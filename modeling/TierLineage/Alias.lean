import TierLineage.Failure
import TierLineage.Text.Blank

/-!
# Connection aliases

An alias is the name of a configured database connection: not empty, without white space, and
without the null character.  White space around it is dropped when it is read.
-/

namespace TierLineage

open TierLineage.Text

/-- Whether a text is the name of a connection. -/
def isAliasName (s : String) : Bool :=
  !s.toList.isEmpty && s.toList.all fun c => !isBlank c && c != '\x00'

/-- The name of a configured connection. -/
structure Alias where
  name : String
  valid : isAliasName name = true
  deriving DecidableEq

namespace Alias

instance : Repr Alias := ⟨fun a n => reprPrec a.name n⟩

instance : Inhabited Alias := ⟨⟨"x", by decide⟩⟩

instance : Ord Alias := ⟨compareOn Alias.name⟩

instance : Std.TransOrd Alias := inferInstanceAs (Std.TransCmp (compareOn Alias.name))

instance : ToString Alias := ⟨Alias.name⟩

/-- Read an alias from a text. -/
def parse (s : String) : Except Refusal Alias :=
  let name := trimString s
  if name.isEmpty then .error (.missing "connection_alias")
  else if h : isAliasName name then .ok ⟨name, h⟩
  else .error (.invalid "connection_alias"
    ("'" ++ s ++ "' contains whitespace or control characters"))

/-- Read an alias from data. -/
def read : Json.Reader Alias := fun v => do
  match parse (← Json.readText v) with
  | .ok a => return a
  | .error _ => throw .mismatch

/-- The data of an alias. -/
def toJson (a : Alias) : Json :=
  Json.str a.name

end Alias

end TierLineage
