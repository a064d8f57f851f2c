import TierLineage.Number.Decimal

/-!
# Numbers as data text writes them

A `Numeral` is what stands in the text; `Numeral.value` is the number it denotes.  A numeral with
neither fraction nor exponent is a natural number or a negative integer when it fits in 64 bits.
Every other numeral is a double: its leading digits, as many as fit in an unsigned word of 64 bits,
are scaled by a power of ten, with one rounding for the word and one for the scaling.
-/

namespace TierLineage.Json

open TierLineage.Number

/-- A number as written. -/
structure Numeral where
  negative : Bool
  whole : List Char
  fraction : List Char
  exponent : Option (Bool × List Char)
  deriving Repr, DecidableEq

/-- The number that a numeral denotes. -/
inductive Quantity where
  | natural (n : Nat)
  | negative (n : Nat)
  | real (x : Double)
  | outOfRange
  deriving Repr, DecidableEq

/-! ### Doubles -/

/-- The longest leading part of the digits that keeps the number below `2 ^ 64`, and the rest. -/
def leadingWord (n : Nat) : List Char → Nat × List Char
  | [] => (n, [])
  | c :: cs =>
    let m := 10 * n + (c.toNat - 0x30)
    if m < 0x10000000000000000 then leadingWord m cs else (n, c :: cs)

/-- The greatest power of ten in the range of doubles. -/
def greatestPower : Nat := 308

/-- A double divided by a power of ten, in steps no longer than the greatest power. -/
def dividedByPower (x : Double) (power : Nat) : Double :=
  if power ≤ greatestPower then x.div (Binary.ofNat (Nat.pow 10 power))
  else if x.compare? (Binary.ofNat 0) = some .eq then x
  else dividedByPower (x.div (Binary.ofNat (Nat.pow 10 greatestPower))) (power - greatestPower)
termination_by power
decreasing_by simp only [greatestPower] at *; omega

/-- A word times a power of ten, if that is in range. -/
def scaled (word : Nat) (power : Int) : Option Double :=
  let x : Double := Binary.ofNat word
  if power < 0 then some (dividedByPower x power.natAbs)
  else if power.toNat ≤ greatestPower then
    match x.mul (Binary.ofNat (Nat.pow 10 power.toNat)) with
    | .infinite _ => none
    | y => some y
  else if word = 0 then some x else none

/-- The greatest exponent that is read digit by digit. -/
def greatestExponent : Nat := 0x7FFFFFFF

/-- The double that a numeral denotes, up to its sign. -/
def Numeral.magnitude (n : Numeral) : Option Double :=
  let (word, dropped) := leadingWord 0 n.whole
  let (word, ignored) := leadingWord word n.fraction
  let power : Int := (dropped.length : Int) - ((n.fraction.length - ignored.length : Nat) : Int)
  match n.exponent with
  | none => scaled word power
  | some (below, ds) =>
    let e := ofDigits ds
    if greatestExponent < e then
      if word ≠ 0 && !below then none else some (Binary.finite false 0)
    else scaled word (if below then power - e else power + e)

/-! ### Quantities -/

/-- The number that a numeral denotes. -/
def Numeral.value (n : Numeral) : Quantity :=
  let m := ofDigits n.whole
  let whole := n.fraction.isEmpty && n.exponent.isNone
  if whole && !n.negative && decide (m < 0x10000000000000000) then .natural m
  else if whole && n.negative && decide (0 < m) && decide (m ≤ 0x8000000000000000) then .negative m
  else match n.magnitude with
    | some x => .real (if n.negative then x.negate else x)
    | none => .outOfRange

/-! ### Numerals of numbers -/

/-- The numeral of an integer. -/
def Numeral.ofInt (n : Int) : Numeral :=
  ⟨n < 0, digitsOf n.natAbs, [], none⟩

/-- The numeral of a decimal.  Numbers of more than thirteen places before the point, or more than
five zeros behind it, are written with an exponent. -/
def Numeral.ofDecimal (negative : Bool) (d : Decimal) : Numeral :=
  let cs := digitsOf d.digits
  let place : Int := d.exponent + cs.length
  if -5 ≤ place ∧ place ≤ 13 then
    let (whole, fraction) := Binary.placed cs place
    ⟨negative, whole, if fraction.isEmpty then ['0'] else fraction, none⟩
  else
    let e := place - 1
    ⟨negative, cs.take 1, cs.drop 1, some (e < 0, digitsOf e.natAbs)⟩

/-- The numeral of a number with as few digits as read back; infinities and `nan` have none. -/
def Numeral.ofSingle? : Single → Option Numeral
  | .finite s u =>
    if u = 0 then some ⟨s, ['0'], ['0'], none⟩
    else some (ofDecimal s (Binary.trimmed (Binary.shortest single u)))
  | _ => none

/-- The text of a numeral. -/
def Numeral.text (n : Numeral) : List Char :=
  (if n.negative then ['-'] else []) ++ n.whole ++
    (if n.fraction.isEmpty then [] else '.' :: n.fraction) ++
    (match n.exponent with
      | none => []
      | some (below, ds) => 'e' :: ((if below then ['-'] else []) ++ ds))

end TierLineage.Json
