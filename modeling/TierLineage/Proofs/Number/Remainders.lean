import Mathlib.Algebra.Order.Ring.Abs
import Mathlib.Algebra.Order.Ring.Int
import Mathlib.Tactic.LinearCombination
import Mathlib.Tactic.Ring

/-!
# How near multiples come to each other

Euclid's algorithm for two numbers meets, with each of its remainders, counts of the two whose
multiples differ by that remainder, to one side and to the other by turns.  Any two counts are made
of those that belong to neighbouring remainders.  So as long as the count of the first number is
below that of the later remainder, no multiples come nearer than the earlier one.

The boundaries between numbers of single precision are multiples of powers of two, and decimal
fractions are multiples of inverse powers of ten.  Run for each pair of powers, the algorithm tells
that a decimal fraction whose spacing is not much finer than that of the numbers is a boundary or
off it by more than doubles confuse, with one exception.
-/

namespace TierLineage.Number

/-- Two consecutive remainders of Euclid's algorithm, with the counts that lead to them. -/
structure Remainders where
  count : Nat
  rest : Nat
  nextCount : Nat
  nextRest : Nat
  deriving DecidableEq

namespace Remainders

/-! ### Euclid's algorithm -/

/-- The remainders at the beginning. -/
def start (c m : Nat) : Remainders := ⟨0, m, 1, c % m⟩

/-- The remainders after one more division. -/
def next (e : Remainders) : Remainders :=
  ⟨e.nextCount, e.nextRest, e.count + e.rest / e.nextRest * e.nextCount, e.rest % e.nextRest⟩

/-- The first remainders whose later count is above a bound, after so many divisions at most. -/
def beyond (bound : Nat) : Nat → Remainders → Remainders
  | 0, e => e
  | n + 1, e => if bound < e.nextCount then e else beyond bound n e.next

/-- Whether remainders are met by the algorithm for two numbers: the multiples of the counts are off
those of other counts to different sides, and all pairs of counts are made of these two. -/
def Of (e : Remainders) (c m : Nat) : Prop :=
  ∃ s p p' : Int, s * s = 1 ∧ e.count * c - p * m = s * e.rest ∧
    p' * m - e.nextCount * c = s * e.nextRest ∧ e.count * p' - e.nextCount * p = s

variable {e : Remainders} {c m b : Nat}

theorem of_start (c m : Nat) : (start c m).Of c m := by
  refine ⟨-1, 1, (c / m : Nat), by decide, by simp [start], ?_, by simp [start]⟩
  have hdiv : ((m * (c / m) + c % m : Nat) : Int) = (c : Int) := congrArg _ (Nat.div_add_mod c m)
  rw [Nat.cast_add, Nat.cast_mul] at hdiv
  simp only [start, Nat.cast_one]
  linear_combination hdiv

theorem Of.next (h : e.Of c m) : e.next.Of c m := by
  obtain ⟨s, p, p', hs, hrest, hnext, hdet⟩ := h
  have hdiv : ((e.nextRest * (e.rest / e.nextRest) + e.rest % e.nextRest : Nat) : Int) =
      (e.rest : Int) := congrArg _ (Nat.div_add_mod e.rest e.nextRest)
  rw [Nat.cast_add, Nat.cast_mul] at hdiv
  refine ⟨-s, p', p + (e.rest / e.nextRest : Nat) * p', by linear_combination hs, ?_, ?_, ?_⟩
  · simp only [Remainders.next]
    linear_combination -hnext
  · simp only [Remainders.next, Nat.cast_add, Nat.cast_mul]
    linear_combination -hrest + (e.rest / e.nextRest : Nat) * hnext + s * hdiv
  · simp only [Remainders.next, Nat.cast_add, Nat.cast_mul]
    linear_combination -hdet

theorem Of.beyond (h : e.Of c m) (bound n : Nat) : (beyond bound n e).Of c m := by
  induction n generalizing e with
  | zero => exact h
  | succ n ih =>
    rw [Remainders.beyond]
    split
    · exact h
    · exact ih h.next

/-- Any two counts are made of those that belong to the two remainders, and so is what their
multiples are apart. -/
theorem Of.exists_parts (h : e.Of c m) (b a : Int) : ∃ x y : Int,
    x * e.count + y * e.nextCount = b ∧ |b * c - a * m| = |x * e.rest - y * e.nextRest| := by
  obtain ⟨s, p, p', hs, hrest, hnext, hdet⟩ := h
  obtain ⟨x, hx⟩ : ∃ x : Int, x = s * (p' * b - e.nextCount * a) := ⟨_, rfl⟩
  obtain ⟨y, hy⟩ : ∃ y : Int, y = s * (e.count * a - p * b) := ⟨_, rfl⟩
  have hcount : x * e.count + y * e.nextCount = b := by
    rw [hx, hy]
    linear_combination (b * s) * hdet + b * hs
  have hother : x * p + y * p' = a := by
    rw [hx, hy]
    linear_combination (a * s) * hdet + a * hs
  have hoff : b * c - a * m = s * (x * e.rest - y * e.nextRest) := by
    rw [← hcount, ← hother]
    linear_combination x * hrest - y * hnext
  have hunit : |s| = 1 := by
    rcases Int.isUnit_iff.mp (IsUnit.of_mul_eq_one s hs) with rfl | rfl <;> rfl
  exact ⟨x, y, hcount, by rw [hoff, abs_mul, hunit, one_mul]⟩

/-- A count below the later one leads to no multiple that is nearer than the earlier remainder: of
the two parts that it is made of, one is taken away. -/
theorem Of.rest_le (h : e.Of c m) (hpos : 0 < b) (hlt : b < e.nextCount) (a : Int) :
    (e.rest : Int) ≤ |b * c - a * m| := by
  obtain ⟨x, y, hcount, hoff⟩ := h.exists_parts b a
  rw [hoff]
  have hb : (0 : Int) < b := by exact_mod_cast hpos
  have hb' : (b : Int) < e.nextCount := by exact_mod_cast hlt
  have hc : (0 : Int) ≤ e.count := Int.natCast_nonneg _
  have hr : (0 : Int) ≤ e.rest := Int.natCast_nonneg _
  have hr' : (0 : Int) ≤ e.nextRest := Int.natCast_nonneg _
  rcases Int.lt_or_le 0 y with hy | hy
  · have hleast : (e.nextCount : Int) ≤ y * e.nextCount :=
      le_mul_of_one_le_left (Int.natCast_nonneg _) hy
    have hneg : x ≤ -1 := by
      by_contra hx
      have hmore : 0 ≤ x * e.count := Int.mul_nonneg (by omega) hc
      omega
    have hmost : x * e.rest ≤ -1 * e.rest := Int.mul_le_mul_of_nonneg_right hneg hr
    have hother : 0 ≤ y * e.nextRest := Int.mul_nonneg (Int.le_of_lt hy) hr'
    refine le_trans ?_ (neg_le_abs _)
    omega
  · have hmost : y * e.nextCount ≤ 0 :=
      Int.mul_nonpos_of_nonpos_of_nonneg hy (Int.natCast_nonneg _)
    have hone : 1 ≤ x := by
      by_contra hx
      have hless : x * e.count ≤ 0 := Int.mul_nonpos_of_nonpos_of_nonneg (by omega) hc
      omega
    have hleast : (e.rest : Int) ≤ x * e.rest := le_mul_of_one_le_left hr hone
    have hother : y * e.nextRest ≤ 0 := Int.mul_nonpos_of_nonpos_of_nonneg hy hr'
    refine le_trans ?_ (le_abs_self _)
    omega

/-- A count between the later one and its double comes nearer by the later remainder at most. -/
theorem Of.rest_sub_le (h : e.Of c m) (hlt : e.nextCount < b) (hdouble : b < 2 * e.nextCount)
    (a : Int) : (e.rest : Int) - e.nextRest ≤ |b * c - a * m| := by
  obtain ⟨s, p, p', hs, hrest, hnext, hdet⟩ := id h
  have hless := h.rest_le (b := b - e.nextCount) (by omega) (by omega) (a - p')
  have hnear : |p' * m - e.nextCount * c| = (e.nextRest : Int) := by
    rw [hnext, abs_mul]
    rcases Int.isUnit_iff.mp (IsUnit.of_mul_eq_one s hs) with rfl | rfl <;> simp
  have hsplit : ((b - e.nextCount : Nat) : Int) * c - (a - p') * m =
      (b * c - a * m) + (p' * m - e.nextCount * c) := by
    rw [Nat.cast_sub (Nat.le_of_lt hlt)]
    ring
  rw [hsplit] at hless
  have htriangle := abs_add_le (b * c - a * m : Int) (p' * m - e.nextCount * c)
  omega

end Remainders

end TierLineage.Number
