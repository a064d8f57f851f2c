import TierLineage.Json.Numeral

/-!
# Data values

The tree of a JSON text.  A text that breaks off or goes wrong still has a tree: the place of the
fault is a `broken` leaf or a container that is `unfinished`, so that a reader that walks the tree
in the order of the text meets the faults of the text and its own objections in that order.

A string literal whose escapes name an unpaired surrogate spells no text; it is kept as `none`,
which only a reader that wants the text objects to.  Other data formats give numbers by their value
rather than by a numeral; such a number is `measured`.  Their containers are `lax`: a reader may
leave the last items of a list unread, and an empty container may stand where nothing is said.
-/

namespace TierLineage.Json

/-- How a container ended. -/
inductive Ending where
  | closed
  | lax
  | unfinished
  deriving Repr, DecidableEq

/-- Whether a container was read to its end. -/
def Ending.complete : Ending → Bool
  | closed => true
  | lax => true
  | unfinished => false

end TierLineage.Json

namespace TierLineage

/-- A data value as it stands in a text. -/
inductive Json where
  | null
  | bool (b : Bool)
  | number (n : Json.Numeral)
  | measured (q : Json.Quantity)
  | text (s : Option String)
  | list (items : List Json) (ending : Json.Ending)
  | record (entries : List (Option String × Json)) (ending : Json.Ending)
  | broken
  deriving Repr, Inhabited

namespace Json

/-! ### Making values -/

/-- A string value. -/
def str (s : String) : Json := .text (some s)

/-- An integer value. -/
def int (n : Int) : Json := .number (Numeral.ofInt n)

/-- A natural number value. -/
def nat (n : Nat) : Json := int n

/-- A single-precision value; infinities and `nan` are written as `null`. -/
def single (x : Number.Single) : Json :=
  match Numeral.ofSingle? x with
  | some n => .number n
  | none => .null

/-- A finished list. -/
def arr (items : List Json) : Json := .list items .closed

/-- A finished record. -/
def obj (entries : List (String × Json)) : Json :=
  .record (entries.map fun (k, v) => (some k, v)) .closed

/-- A value, or `null` in place of none. -/
def opt {α : Type} (write : α → Json) : Option α → Json
  | some a => write a
  | none => .null

/-- A list of values of one type. -/
def listOf {α : Type} (write : α → Json) (as : List α) : Json :=
  arr (as.map write)

/-! ### Looking at values -/

/-- Whether the value at the root of a tree was read to its end. -/
def finished : Json → Bool
  | .broken => false
  | .list _ e => e.complete
  | .record _ e => e.complete
  | _ => true

/-- The number that a value denotes. -/
def quantity? : Json → Option Quantity
  | .number n => some n.value
  | .measured q => some q
  | _ => none

/-- The value of an entry of a record, where it has one of that name; the last one counts. -/
def get? (name : String) : Json → Option Json
  | .record entries _ => (entries.reverse.find? (·.1 == some name)).map Prod.snd
  | _ => none

end Json

end TierLineage
