import TierLineage.Json.Reader
import TierLineage.Text.LetterCase

/-!
# Enumerations with names

Every enumeration of the domain has one written name for each of its values.  Data holds the exact
name; people may also write it in other letter cases, and some enumerations know synonyms.
-/

namespace TierLineage

/-- A finite type whose values have names. -/
class Named (α : Type) where
  /-- What a value of the type is called in a message. -/
  title : String
  /-- All values. -/
  all : List α
  /-- The written name of a value. -/
  name : α → String
  /-- Other names under which a value is found. -/
  synonyms : List (String × α) := []
  /-- Whether hyphens may stand for underscores. -/
  hyphens : Bool := false

/-- A name that no value of a type has. -/
structure UnknownName where
  title : String
  name : String
  deriving Repr, DecidableEq

/-- The wording of the refusal of a name. -/
def UnknownName.message (u : UnknownName) : String :=
  "Invalid " ++ u.title ++ ": " ++ u.name

namespace Named

variable {α : Type} [Named α]

/-- The names of data, with their values. -/
def table : List (String × α) :=
  (all : List α).map fun a => (name a, a)

/-- The value that people mean by a text. -/
def parse (s : String) : Except UnknownName α :=
  let folded := Text.lowercase s.toList
  let folded := if hyphens α then folded.map fun c => if c = '-' then '_' else c else folded
  match (table ++ synonyms : List (String × α)).lookup (String.ofList folded) with
  | some a => .ok a
  | none => .error ⟨title α, s⟩

/-- Read a value from data. -/
def read : Json.Reader α :=
  Json.readName table

/-- The data of a value. -/
def toJson (a : α) : Json :=
  Json.str (name a)

end Named

end TierLineage
