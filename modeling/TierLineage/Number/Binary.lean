/-!
# Binary floating-point numbers

A finite number of a binary format is a whole multiple of the format's least positive number, its
*unit*, so a magnitude is a natural number of units and every operation is exact arithmetic on
naturals followed by one rounding to nearest, ties to even.  Which multiples are representable is
the format's precision: a magnitude of more bits than that keeps its leading bits.

Scores and confidences are of the `single` format; `double` is the format through which decimal
text is read.
-/

namespace TierLineage.Number

/-! ### Rounding -/

/-- The quotient rounded to the nearest whole number, a half going to the even neighbour. -/
def roundDiv (num den : Nat) : Nat :=
  let q := num / den
  let r := num % den
  if 2 * r < den then q else if den < 2 * r then q + 1 else q + q % 2

/-- A binary format: the number of leading bits kept, the exponent of two of the unit's inverse,
and the number of bits of the least magnitude out of range. -/
structure Format where
  precision : Nat
  scale : Nat
  width : Nat
  deriving Repr, DecidableEq

/-- The 32-bit interchange format. -/
def single : Format := ⟨24, 149, 277⟩

/-- The 64-bit interchange format. -/
def double : Format := ⟨53, 1074, 2098⟩

/-- The spacing of representable magnitudes around a magnitude. -/
def Format.grain (f : Format) (units : Nat) : Nat :=
  Nat.pow 2 (Nat.log2 units + 1 - f.precision)

/-- The representable magnitude nearest to a quotient of units. -/
def Format.nearest (f : Format) (num den : Nat) : Nat :=
  let g := f.grain (num / den)
  roundDiv num (den * g) * g

/-! ### Numbers of a format -/

/-- A number of a format: a signed count of units, an infinity, or no number. -/
inductive Binary (f : Format) where
  | finite (negative : Bool) (units : Nat)
  | infinite (negative : Bool)
  | nan
  deriving Repr, DecidableEq

/-- Numbers of the 32-bit format. -/
abbrev Single := Binary single

/-- Numbers of the 64-bit format. -/
abbrev Double := Binary double

namespace Binary

variable {f : Format}

instance : Inhabited (Binary f) := ⟨finite false 0⟩

/-- A quotient of units as a number of the format. -/
def ofUnits (negative : Bool) (num den : Nat) : Binary f :=
  let u := f.nearest num den
  if u < Nat.pow 2 f.width then finite negative u else infinite negative

/-- A quotient as a number of the format. -/
def ofRatio (num den : Nat) : Binary f :=
  ofUnits false (num * Nat.pow 2 f.scale) den

/-- A natural number as a number of the format. -/
def ofNat (n : Nat) : Binary f :=
  ofRatio n 1

/-- An integer as a number of the format; zero is positive. -/
def ofInt (n : Int) : Binary f :=
  ofUnits (n < 0) (n.natAbs * Nat.pow 2 f.scale) 1

/-- A number of one format rounded to another. -/
def convert {g : Format} : Binary g → Binary f
  | finite s u => ofUnits s (u * Nat.pow 2 f.scale) (Nat.pow 2 g.scale)
  | infinite s => infinite s
  | nan => nan

/-- The signed number of units of a finite number. -/
def signed (negative : Bool) (units : Nat) : Int :=
  if negative then -(units : Int) else units

/-! ### Arithmetic -/

/-- The number with the other sign. -/
def negate : Binary f → Binary f
  | finite s u => finite (!s) u
  | infinite s => infinite (!s)
  | nan => nan

/-- The sum. -/
def add : Binary f → Binary f → Binary f
  | finite s u, finite t v =>
    let n := signed s u + signed t v
    if n = 0 then finite (s && t) 0 else ofUnits (n < 0) n.natAbs 1
  | infinite s, infinite t => if s = t then infinite s else nan
  | infinite s, finite _ _ => infinite s
  | finite _ _, infinite t => infinite t
  | nan, _ => nan
  | _, nan => nan

/-- The difference. -/
def sub (x y : Binary f) : Binary f :=
  x.add y.negate

/-- The product. -/
def mul : Binary f → Binary f → Binary f
  | finite s u, finite t v => ofUnits (s != t) (u * v) (Nat.pow 2 f.scale)
  | infinite s, infinite t => infinite (s != t)
  | infinite s, finite t v => if v = 0 then nan else infinite (s != t)
  | finite s u, infinite t => if u = 0 then nan else infinite (s != t)
  | nan, _ => nan
  | _, nan => nan

/-- The quotient. -/
def div : Binary f → Binary f → Binary f
  | finite s u, finite t v =>
    if v = 0 then (if u = 0 then nan else infinite (s != t))
    else ofUnits (s != t) (u * Nat.pow 2 f.scale) v
  | infinite _, infinite _ => nan
  | infinite s, finite t _ => infinite (s != t)
  | finite s _, infinite t => finite (s != t) 0
  | nan, _ => nan
  | _, nan => nan

/-- The magnitude. -/
def abs : Binary f → Binary f
  | finite _ u => finite false u
  | infinite _ => infinite false
  | nan => nan

/-! ### Order -/

/-- How two numbers compare; what is no number compares with nothing, and both zeros are equal. -/
def compare? : Binary f → Binary f → Option Ordering
  | finite s u, finite t v => some (compare (signed s u) (signed t v))
  | infinite s, infinite t => some (compare t.toNat s.toNat)
  | infinite s, finite _ _ => some (if s then .lt else .gt)
  | finite _ _, infinite t => some (if t then .gt else .lt)
  | nan, _ => none
  | _, nan => none

/-- Whether the first number is below the second. -/
def less (x y : Binary f) : Bool :=
  x.compare? y == some .lt

/-- Whether the first number is at most the second. -/
def atMost (x y : Binary f) : Bool :=
  x.compare? y == some .lt || x.compare? y == some .eq

/-- The number moved into an interval; what is no number stays. -/
def clamp (x low high : Binary f) : Binary f :=
  if x.less low then low else if high.less x then high else x

end Binary

end TierLineage.Number
