import TierLineage.Json.Value
import TierLineage.Config.Setting
import TierLineage.Text.Pieces

/-!
# Words of settings files

A value that is not in quotes or brackets is a word: a truth value, an integer of 64 bits in one of
four bases, or a double.  Single underscores may stand between digits, decimal numbers have no
leading zeros, and a double has a fraction or an exponent, or is infinite or not a number.
-/

namespace TierLineage.Toml

open TierLineage.Number TierLineage.Text

/-- The characters of words. -/
def isWordChar (c : Char) : Bool :=
  c.isAlphanum || c == '_' || c == '+' || c == '-' || c == '.'

/-- Digits, of which every underscore stands between two. -/
def digits? (isDigit : Char → Bool) (cs : List Char) : Option (List Char) :=
  let groups := pieces '_' cs
  if groups.all fun g => !g.isEmpty && g.all isDigit then some groups.flatten else none

/-- Decimal digits without a leading zero. -/
def whole? (cs : List Char) : Option (List Char) :=
  match cs with
  | '0' :: _ :: _ => none
  | _ => digits? Char.isDigit cs

/-- A sign, and what follows it. -/
def sign : List Char → Bool × List Char
  | '-' :: cs => (true, cs)
  | '+' :: cs => (false, cs)
  | cs => (false, cs)

/-! ### Integers -/

/-- The value of a digit. -/
def digitValue (c : Char) : Nat :=
  if c.isDigit then c.toNat - 0x30 else c.toLower.toNat - 0x61 + 10

/-- Whether a character is a digit of a base. -/
def isDigitOf (base : Nat) (c : Char) : Bool :=
  c.isAlphanum && decide (digitValue c < base)

/-- An integer in a word of 64 bits with a sign. -/
def inWord (n : Int) : Option Json :=
  if -0x8000000000000000 ≤ n ∧ n < 0x8000000000000000 then some (Json.int n) else none

/-- An integer without a sign in a base. -/
def based? (base : Nat) (cs : List Char) : Option Json := do
  let ds ← digits? (isDigitOf base) cs
  inWord (ds.foldl (fun n d => base * n + digitValue d) 0 : Nat)

/-- A decimal integer. -/
def decimal? (cs : List Char) : Option Json := do
  let (negative, cs) := sign cs
  let n := ofDigits (← whole? cs)
  inWord (if negative then -(n : Int) else n)

/-! ### Doubles -/

/-- The text of a fraction, where it stands. -/
def fractionText? : Option (List Char) → Option (List Char)
  | none => some []
  | some cs => (digits? Char.isDigit cs).map ('.' :: ·)

/-- The text of an exponent, where it stands. -/
def exponentText? : Option (List Char) → Option (List Char)
  | none => some []
  | some cs =>
    let (below, ds) := sign cs
    (digits? Char.isDigit ds).map fun ds => 'e' :: (if below then '-' :: ds else ds)

/-- What stands behind the first character of a class, where there is one. -/
def behind? (p : Char → Bool) (cs : List Char) : Option (List Char) :=
  match cs.dropWhile (!p ·) with
  | [] => none
  | _ :: rest => some rest

/-- A double as digits; only the greatest numbers are out of range. -/
def double? (cs : List Char) : Option Json := do
  let (negative, body) := sign cs
  let isMark (c : Char) : Bool := c == 'e' || c == 'E'
  let front := body.takeWhile (!isMark ·)
  let exponent := behind? isMark body
  let fraction := behind? (· == '.') front
  if exponent.isNone && fraction.isNone then none
  else
    let text := (← whole? (front.takeWhile (· != '.'))) ++ (← fractionText? fraction) ++
      (← exponentText? exponent)
    let x ← Setting.binary? double (String.ofList (if negative then '-' :: text else text))
    match x with
    | .infinite false => none
    | x => some (.measured (.real x))

/-- A double as a word. -/
def special? (cs : List Char) : Option Json :=
  let (negative, cs) := sign cs
  if cs = "inf".toList then some (.measured (.real (.infinite negative)))
  else if cs = "nan".toList then some (.measured (.real .nan))
  else none

/-! ### Words -/

/-- The value of a word. -/
def word? (cs : List Char) : Option Json :=
  if cs = "true".toList then some (.bool true)
  else if cs = "false".toList then some (.bool false)
  else match cs with
    | '0' :: 'x' :: ds => based? 16 ds
    | '0' :: 'o' :: ds => based? 8 ds
    | '0' :: 'b' :: ds => based? 2 ds
    | _ => ((decimal? cs).or (double? cs)).or (special? cs)

end TierLineage.Toml
