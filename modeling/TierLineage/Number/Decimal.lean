import TierLineage.Number.Binary

/-!
# Decimal text of numbers

A decimal is a whole number of powers of ten.  `Binary.ofDecimal` reads one, correctly rounded;
`Binary.shortest` is the decimal with the fewest digits that reads back to a given number, and of
those the nearest to it.  `plainText` writes it without an exponent, as numbers stand inside
messages.
-/

namespace TierLineage.Number

/-- `digits · 10 ^ exponent`. -/
structure Decimal where
  digits : Nat
  exponent : Int
  deriving Repr, DecidableEq

/-- The digits of a natural number, most significant first. -/
def digitsOf (n : Nat) : List Char :=
  Nat.toDigits 10 n

/-- The number that a list of decimal digits spells. -/
def ofDigits (cs : List Char) : Nat :=
  cs.foldl (fun n c => 10 * n + (c.toNat - 0x30)) 0

/-- The decimal text of an integer. -/
def integerText (n : Int) : String :=
  (if n < 0 then "-" else "") ++ String.ofList (digitsOf n.natAbs)

namespace Binary

variable {f : Format}

/-! ### Reading -/

/-- Powers of ten beyond this bound leave every format's range whatever the digits are. -/
def exponentBound : Int := 400

/-- A signed decimal as a number of the format. -/
def ofDecimal (negative : Bool) (d : Decimal) : Binary f :=
  let magnitude : Int := d.exponent + (digitsOf d.digits).length
  if d.digits = 0 then finite negative 0
  else if exponentBound < magnitude then infinite negative
  else if magnitude < -exponentBound then finite negative 0
  else if 0 ≤ d.exponent then
    ofUnits negative (d.digits * Nat.pow 10 d.exponent.toNat * Nat.pow 2 f.scale) 1
  else
    ofUnits negative (d.digits * Nat.pow 2 f.scale) (Nat.pow 10 (-d.exponent).toNat)

/-! ### The fewest digits that read back -/

/-- Whether twice a quotient of units lies strictly between two bounds, or on one of them where
bounds count. -/
def between (inclusive : Bool) (low num den high : Nat) : Bool :=
  if inclusive then decide (low * den ≤ 2 * num) && decide (2 * num ≤ high * den)
  else decide (low * den < 2 * num) && decide (2 * num < high * den)

/-- The neighbour on the grid of `10 ^ exponent` that reads back to the magnitude and is nearest
to it, if there is one. -/
def onGrid? (f : Format) (units : Nat) (exponent : Int) : Option Decimal :=
  let g := f.grain units
  let below := if units = Nat.pow 2 (Nat.log2 units) ∧ 1 < g then g / 2 else g
  let inclusive := units / g % 2 == 0
  let up := Nat.pow 10 exponent.toNat
  let down := Nat.pow 10 (-exponent).toNat
  let step := up * Nat.pow 2 f.scale
  let q := units * down / step
  let hit (d : Nat) : Bool := between inclusive (2 * units - below) (d * step) down (2 * units + g)
  let r := units * down % step
  let nearer := if 2 * r < step ∨ (2 * r = step ∧ q % 2 = 0) then q else q + 1
  let farther := if nearer = q then q + 1 else q
  if 0 < nearer && hit nearer then some ⟨nearer, exponent⟩
  else if 0 < farther && hit farther then some ⟨farther, exponent⟩
  else none

/-- The exponent of ten just above a magnitude. -/
def decimalWidth (f : Format) (units : Nat) : Int :=
  let scaled := units * Nat.pow 10 exponentBound.toNat / Nat.pow 2 f.scale
  ((digitsOf scaled).length : Int) - exponentBound

/-- The decimal with the fewest digits that reads back to a magnitude. -/
def shortest (f : Format) (units : Nat) : Decimal :=
  let top := decimalWidth f units
  let grids := (List.range 17).map fun (n : Nat) => top - (n : Int) - 1
  (grids.findSome? (onGrid? f units)).getD ⟨0, 0⟩

/-- A decimal without trailing zeros in its digits. -/
def trimmed (d : Decimal) : Decimal :=
  let cs := digitsOf d.digits
  let kept := (cs.reverse.dropWhile (· == '0')).reverse
  ⟨ofDigits kept, d.exponent + ((cs.length - kept.length : Nat) : Int)⟩

/-! ### Writing -/

/-- Digits with the point at a place counted from their left end. -/
def placed (digits : List Char) (place : Int) : List Char × List Char :=
  if place ≤ 0 then (['0'], List.replicate (-place).toNat '0' ++ digits)
  else
    let n := place.toNat
    (digits.take n ++ List.replicate (n - digits.length) '0', digits.drop n)

/-- The text of a number inside a message: as few digits as read back, and no exponent. -/
def plainText : Binary f → String
  | finite s u =>
    let d := trimmed (shortest f u)
    let cs := digitsOf d.digits
    let (whole, fraction) := if u = 0 then (['0'], []) else placed cs (d.exponent + cs.length)
    String.ofList ((if s then ['-'] else []) ++ whole ++
      (if fraction.isEmpty then [] else '.' :: fraction))
  | infinite s => if s then "-inf" else "inf"
  | nan => "NaN"

end Binary

end TierLineage.Number
