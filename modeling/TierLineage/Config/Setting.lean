import TierLineage.Number.Decimal
import TierLineage.Text.Ascii
import TierLineage.Text.Blank

/-!
# Settings from the environment

The environment gives texts by name.  A setting that is missing or does not read as its type is
left as it is.
-/

namespace TierLineage

open TierLineage.Number TierLineage.Text

/-- Texts by name. -/
abbrev Environment := List (String × String)

namespace Setting

/-- A natural number below a limit: digits, perhaps after a plus sign. -/
def natural? (limit : Nat) (s : String) : Option Nat :=
  let cs := match s.toList with
    | '+' :: cs => cs
    | cs => cs
  if cs.isEmpty || !cs.all Char.isDigit then none
  else
    let n := ofDigits cs
    if n < limit then some n else none

/-- The words that stand for what no digits can write. -/
def wordNumber? {f : Format} (negative : Bool) (cs : List Char) : Option (Binary f) :=
  if sameIgnoringCase cs "inf".toList || sameIgnoringCase cs "infinity".toList then
    some (.infinite negative)
  else if sameIgnoringCase cs "nan".toList then some .nan
  else none

/-- An exponent: nothing, or digits with a sign after the letter `e`. -/
def exponent? : List Char → Option Int
  | [] => some 0
  | c :: cs =>
    if c = 'e' ∨ c = 'E' then
      let (below, ds) := match cs with
        | '-' :: r => (true, r)
        | '+' :: r => (false, r)
        | r => (false, r)
      if ds.isEmpty || !ds.all Char.isDigit then none
      else some (if below then -(ofDigits ds : Int) else ofDigits ds)
    else none

/-- A number of a binary format: digits with or without a point and an exponent, or a word. -/
def binary? (f : Format) (s : String) : Option (Binary f) :=
  let (negative, cs) := match s.toList with
    | '-' :: r => (true, r)
    | '+' :: r => (false, r)
    | r => (false, r)
  let whole := cs.takeWhile Char.isDigit
  let rest := cs.dropWhile Char.isDigit
  let (fraction, rest) := match rest with
    | '.' :: r => (r.takeWhile Char.isDigit, r.dropWhile Char.isDigit)
    | r => ([], r)
  if whole.isEmpty && fraction.isEmpty then wordNumber? negative cs
  else (exponent? rest).map fun e =>
    Binary.ofDecimal negative ⟨ofDigits (whole ++ fraction), e - fraction.length⟩

/-- A setting, if it is there and reads as its type; otherwise what is given. -/
def override {α : Type} (env : Environment) (name : String) (read : String → Option α)
    (given : α) : α :=
  ((env.lookup name).bind read).getD given

end Setting

end TierLineage
