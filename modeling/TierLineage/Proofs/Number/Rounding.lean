import Mathlib.Algebra.Order.Ring.Nat
import Mathlib.Data.Nat.Log
import Mathlib.Tactic.Common
import Mathlib.Tactic.Ring
import TierLineage.Number.Binary

/-!
# Rounding keeps the order

The grain of a format around a magnitude divides every power of two above the magnitude, so powers
of two are never rounded away: what is at most such a power stays so, and what is at least such a
power too.  Between two of them the grain is one and the same, and there a greater quotient has no
smaller nearest whole number; so rounding never turns the order of two magnitudes round.
-/

namespace TierLineage.Number

/-! ### Whole numbers -/

section Whole

variable {num num' den n : Nat}

theorem roundDiv_le (h : num ≤ den * n) : roundDiv num den ≤ n := by
  rcases Nat.eq_zero_or_pos den with rfl | hden
  · obtain rfl : num = 0 := by simpa using h
    simp [roundDiv]
  have hsplit := Nat.div_add_mod num den
  have hle : num / den ≤ n := Nat.div_le_of_le_mul h
  rcases Nat.lt_or_eq_of_le hle with hlt | heq
  · simp only [roundDiv]
    split_ifs <;> omega
  · -- the quotient is the bound, so that nothing remains to be rounded
    have hmod : num % den = 0 := by
      rw [heq] at hsplit
      omega
    simp only [roundDiv, hmod, Nat.mul_zero, if_pos hden, hle]

theorem le_roundDiv (hden : 0 < den) (h : den * n ≤ num) : n ≤ roundDiv num den := by
  have hle : n ≤ num / den := (Nat.le_div_iff_mul_le hden).mpr (by rwa [Nat.mul_comm])
  simp only [roundDiv]
  split_ifs <;> omega

/-- Rounding is off by half the divisor at most. -/
theorem roundDiv_error (num : Nat) (hden : 0 < den) :
    2 * num ≤ 2 * (roundDiv num den * den) + den ∧
      2 * (roundDiv num den * den) ≤ 2 * num + den := by
  have hsplit := Nat.div_add_mod num den
  have hmod := Nat.mod_lt num hden
  have hnext : (num / den + 1) * den = den * (num / den) + den := by rw [Nat.mul_comm, Nat.mul_succ]
  have hsame : num / den * den = den * (num / den) := Nat.mul_comm _ _
  rcases Nat.mod_two_eq_zero_or_one (num / den) with heven | hodd
  · simp only [roundDiv, heven, Nat.add_zero]
    split_ifs <;> simp only [hnext, hsame] <;> omega
  · simp only [roundDiv, hodd]
    split_ifs <;> simp only [hnext, hsame] <;> omega

/-- A quotient is rounded to the whole number that is half a unit away at most; if it is as much as
that away, the whole number is the even one. -/
theorem roundDiv_eq (hden : 0 < den) (hlow : 2 * (n * den) ≤ 2 * num + den)
    (hhigh : 2 * num ≤ 2 * (n * den) + den)
    (htie : 2 * (n * den) = 2 * num + den ∨ 2 * num = 2 * (n * den) + den → n % 2 = 0) :
    roundDiv num den = n := by
  have hsplit := Nat.div_add_mod num den
  rcases Nat.lt_or_ge num (n * den) with hless | hmore
  · -- the quotient is one less, and is rounded up
    obtain ⟨k, rfl⟩ : ∃ k, n = k + 1 :=
      Nat.exists_eq_add_one_of_ne_zero fun hzero => by simp [hzero] at hless
    have hnext : (k + 1) * den = k * den + den := Nat.add_one_mul k den
    have hquotient : num / den = k :=
      Nat.div_eq_of_lt_le (by omega) hless
    rw [hquotient, Nat.mul_comm] at hsplit
    simp only [roundDiv, hquotient]
    split_ifs <;> omega
  · have hquotient : num / den = n :=
      Nat.div_eq_of_lt_le hmore (by rw [Nat.add_one_mul]; omega)
    rw [hquotient, Nat.mul_comm] at hsplit
    simp only [roundDiv, hquotient]
    split_ifs <;> omega

/-- Where a divisor and the quotient by it are rounded the quotient is off by both errors. -/
theorem close_of_close {p unit d divisor q : Nat} (hunit : 0 < unit)
    (hlow : (p + 1) * (d * unit) ≤ (p + 1) * divisor + d * unit)
    (hhigh : (p + 1) * divisor ≤ (p + 1) * (d * unit) + d * unit)
    (hbelow : (p + 1) * (n * unit * unit) ≤ (p + 1) * (q * divisor) + n * unit * unit)
    (habove : (p + 1) * (q * divisor) ≤ (p + 1) * (n * unit * unit) + n * unit * unit) :
    p * (n * unit) ≤ (p + 1 + 1) * (q * d) ∧ p * (q * d) ≤ (p + 1 + 1) * (n * unit) := by
  rw [Nat.add_one_mul p (d * unit)] at hlow
  rw [Nat.add_one_mul p (n * unit * unit)] at hbelow
  constructor <;> refine Nat.le_of_mul_le_mul_right (c := unit) ?_ hunit
  · calc p * (n * unit) * unit = p * (n * unit * unit) := by ring
      _ ≤ (p + 1) * (q * divisor) := by omega
      _ = q * ((p + 1) * divisor) := by ring
      _ ≤ q * ((p + 1) * (d * unit) + d * unit) := Nat.mul_le_mul_left _ hhigh
      _ = (p + 1 + 1) * (q * d) * unit := by ring
  · calc p * (q * d) * unit = q * (p * (d * unit)) := by ring
      _ ≤ q * ((p + 1) * divisor) := Nat.mul_le_mul_left _ (by omega)
      _ = (p + 1) * (q * divisor) := by ring
      _ ≤ (p + 1) * (n * unit * unit) + n * unit * unit := habove
      _ = (p + 1 + 1) * (n * unit) * unit := by ring

theorem roundDiv_mono (h : num ≤ num') : roundDiv num den ≤ roundDiv num' den := by
  have hdiv : num / den ≤ num' / den := Nat.div_le_div_right h
  rcases Nat.lt_or_eq_of_le hdiv with hlt | heq
  · have hbelow : roundDiv num den ≤ num / den + 1 := by
      simp only [roundDiv]
      split_ifs <;> omega
    have habove : num' / den ≤ roundDiv num' den := by
      simp only [roundDiv]
      split_ifs <;> omega
    omega
  · have hsplit := Nat.div_add_mod num den
    have hsplit' := Nat.div_add_mod num' den
    rw [heq] at hsplit
    have hmod : num % den ≤ num' % den := by omega
    simp only [roundDiv, heq]
    split_ifs <;> omega

end Whole

/-! ### Magnitudes -/

namespace Format

variable {f : Format} {units num num' den k : Nat}

theorem grain_pos (f : Format) (units : Nat) : 0 < f.grain units :=
  Nat.pow_pos (by decide)

/-- The grain around a magnitude divides the powers of two that are not below it. -/
theorem grain_dvd_pow (hf : 0 < f.precision) (h : Nat.log2 units ≤ k) :
    f.grain units ∣ 2 ^ k :=
  Nat.pow_dvd_pow 2 (by omega)

/-- The grain around a magnitude whose bits are counted. -/
theorem grain_eq_pow (hf : 0 < f.precision) (hlt : units < 2 ^ (f.precision + k))
    (hle : k = 0 ∨ 2 ^ (f.precision - 1 + k) ≤ units) : f.grain units = 2 ^ k := by
  have hexponent : Nat.log2 units + 1 - f.precision = k := by
    rcases Nat.eq_zero_or_pos units with rfl | hpos
    · rcases hle with rfl | hle
      · rw [Nat.log2_zero]
        omega
      · exact absurd hle (Nat.not_le.mpr (Nat.two_pow_pos _))
    · have hbelow := (Nat.log2_lt (Nat.ne_of_gt hpos)).mpr hlt
      rcases hle with rfl | hle
      · omega
      · have habove := (Nat.le_log2 (Nat.ne_of_gt hpos)).mpr hle
        omega
  rw [grain, hexponent, Nat.pow_eq]

/-- A magnitude of few bits before its last zeros is one of the format. -/
theorem grain_dvd_mul_pow {n : Nat} (h : n < 2 ^ f.precision) (k : Nat) :
    f.grain (n * 2 ^ k) ∣ n * 2 ^ k := by
  rcases Nat.eq_zero_or_pos (n * 2 ^ k) with hzero | hpos
  · rw [hzero]
    exact Nat.dvd_zero _
  · have hlt : n * 2 ^ k < 2 ^ (f.precision + k) := by
      rw [Nat.pow_add]
      exact Nat.mul_lt_mul_of_pos_right h (Nat.two_pow_pos _)
    have hlog := (Nat.log2_lt (Nat.ne_of_gt hpos)).mpr hlt
    exact Nat.dvd_trans (Nat.pow_dvd_pow 2 (by omega)) (Nat.dvd_mul_left _ _)

/-- The grain around a magnitude that is not too small is fine. -/
theorem grain_mul_le (hf : 0 < f.precision) (h : 2 ^ (f.precision - 1) ≤ units) :
    f.grain units * 2 ^ (f.precision - 1) ≤ units := by
  have hne : units ≠ 0 := Nat.ne_of_gt (Nat.lt_of_lt_of_le (Nat.two_pow_pos _) h)
  have hlog : f.precision - 1 ≤ Nat.log2 units := (Nat.le_log2 hne).mpr h
  have hexponent : Nat.log2 units + 1 - f.precision + (f.precision - 1) = Nat.log2 units := by omega
  rw [grain, Nat.pow_eq, ← Nat.pow_add, hexponent]
  exact Nat.log2_self_le hne

theorem nearest_le_pow (hf : 0 < f.precision) (h : num ≤ den * 2 ^ k) :
    f.nearest num den ≤ 2 ^ k := by
  have hle : num / den ≤ 2 ^ k := Nat.div_le_of_le_mul h
  have hlog : Nat.log2 (num / den) ≤ k := by
    rcases Nat.eq_zero_or_pos (num / den) with hzero | hpos
    · simp [hzero]
    · exact (Nat.pow_le_pow_iff_right (by decide : 1 < 2)).mp
        (Nat.le_trans (Nat.log2_self_le (Nat.ne_of_gt hpos)) hle)
  obtain ⟨j, hj⟩ := grain_dvd_pow hf hlog
  have hround : roundDiv num (den * f.grain (num / den)) ≤ j :=
    roundDiv_le (by rwa [Nat.mul_assoc, ← hj])
  rw [nearest, hj, Nat.mul_comm]
  exact Nat.mul_le_mul_left _ hround

theorem pow_le_nearest (hf : 0 < f.precision) (hden : 0 < den) (h : den * 2 ^ k ≤ num) :
    2 ^ k ≤ f.nearest num den := by
  have hle : 2 ^ k ≤ num / den := (Nat.le_div_iff_mul_le hden).mpr (by rwa [Nat.mul_comm])
  have hne : num / den ≠ 0 := Nat.ne_of_gt (Nat.lt_of_lt_of_le (Nat.pow_pos (by decide)) hle)
  -- the grain divides the greatest power of two in the quotient, which is rounded to at least itself
  have hk : k ≤ Nat.log2 (num / den) := (Nat.le_log2 hne).mpr hle
  obtain ⟨j, hj⟩ := grain_dvd_pow hf (Nat.le_refl (Nat.log2 (num / den)))
  have hmul : den * 2 ^ Nat.log2 (num / den) ≤ num :=
    Nat.le_trans (Nat.mul_le_mul_left _ (Nat.log2_self_le hne)) (Nat.mul_div_le num den)
  have hround : j ≤ roundDiv num (den * f.grain (num / den)) :=
    le_roundDiv (Nat.mul_pos hden (f.grain_pos _)) (by rwa [Nat.mul_assoc, ← hj])
  calc 2 ^ k ≤ 2 ^ Nat.log2 (num / den) := Nat.pow_le_pow_right (by decide) hk
    _ = j * f.grain (num / den) := by rw [hj, Nat.mul_comm]
    _ ≤ f.nearest num den := Nat.mul_le_mul_right _ hround

/-- A greater quotient has no smaller nearest magnitude. -/
theorem nearest_mono (hf : 0 < f.precision) (hden : 0 < den) (h : num ≤ num') :
    f.nearest num den ≤ f.nearest num' den := by
  have hdiv : num / den ≤ num' / den := Nat.div_le_div_right h
  by_cases hlog : Nat.log2 (num' / den) ≤ Nat.log2 (num / den)
  · have hgrain : f.grain (num / den) = f.grain (num' / den) := by
      have hle : Nat.log2 (num / den) ≤ Nat.log2 (num' / den) := by
        simpa only [Nat.log2_eq_log_two] using Nat.log_mono_right hdiv
      rw [grain, grain, Nat.le_antisymm hle hlog]
    rw [nearest, nearest, hgrain]
    exact Nat.mul_le_mul_right _ (roundDiv_mono h)
  · -- a power of two stands between the two quotients
    have hlt : Nat.log2 (num / den) + 1 ≤ Nat.log2 (num' / den) := Nat.not_le.mp hlog
    have hne : num' / den ≠ 0 := fun hzero => by simp [hzero] at hlt
    have hbelow : num ≤ den * 2 ^ (Nat.log2 (num / den) + 1) := by
      have hself : num / den < 2 ^ (Nat.log2 (num / den) + 1) := Nat.lt_log2_self
      rw [Nat.mul_comm]
      exact Nat.le_of_lt ((Nat.div_lt_iff_lt_mul hden).mp hself)
    have habove : den * 2 ^ Nat.log2 (num' / den) ≤ num' :=
      Nat.le_trans (Nat.mul_le_mul_left _ (Nat.log2_self_le hne)) (Nat.mul_div_le num' den)
    calc f.nearest num den ≤ 2 ^ (Nat.log2 (num / den) + 1) := nearest_le_pow hf hbelow
      _ ≤ 2 ^ Nat.log2 (num' / den) := Nat.pow_le_pow_right (by decide) hlt
      _ ≤ f.nearest num' den := pow_le_nearest hf hden habove

/-- Rounding is off by half the grain at most. -/
theorem nearest_error (f : Format) (num : Nat) (hden : 0 < den) :
    2 * num ≤ 2 * (f.nearest num den * den) + den * f.grain (num / den) ∧
      2 * (f.nearest num den * den) ≤ 2 * num + den * f.grain (num / den) := by
  have hround : f.nearest num den * den =
      roundDiv num (den * f.grain (num / den)) * (den * f.grain (num / den)) := by
    rw [nearest, Nat.mul_assoc, Nat.mul_comm den]
  rw [hround]
  exact roundDiv_error num (Nat.mul_pos hden (f.grain_pos _))

/-- Rounding changes the bits behind the precision only. -/
theorem nearest_close (hf : 0 < f.precision) (hden : 0 < den)
    (h : den * 2 ^ (f.precision - 1) ≤ num) :
    2 ^ f.precision * num ≤ 2 ^ f.precision * (f.nearest num den * den) + num ∧
      2 ^ f.precision * (f.nearest num den * den) ≤ 2 ^ f.precision * num + num := by
  obtain ⟨hlow, hhigh⟩ := f.nearest_error num hden
  have hquotient : 2 ^ (f.precision - 1) ≤ num / den :=
    (Nat.le_div_iff_mul_le hden).mpr (by rwa [Nat.mul_comm])
  have hgrain : 2 ^ (f.precision - 1) * (den * f.grain (num / den)) ≤ num :=
    calc 2 ^ (f.precision - 1) * (den * f.grain (num / den))
        = den * (f.grain (num / den) * 2 ^ (f.precision - 1)) := by
          rw [Nat.mul_comm, Nat.mul_assoc]
      _ ≤ den * (num / den) := Nat.mul_le_mul_left _ (grain_mul_le hf hquotient)
      _ ≤ num := Nat.mul_div_le num den
  have htwo : 2 ^ f.precision = 2 * 2 ^ (f.precision - 1) := by
    rw [← Nat.pow_succ', Nat.succ_eq_add_one, Nat.sub_add_cancel hf]
  have hlow' := Nat.mul_le_mul_left (2 ^ (f.precision - 1)) hlow
  have hhigh' := Nat.mul_le_mul_left (2 ^ (f.precision - 1)) hhigh
  rw [Nat.mul_add, Nat.mul_left_comm, Nat.mul_left_comm _ 2] at hlow' hhigh'
  rw [htwo, Nat.mul_assoc, Nat.mul_assoc]
  omega

/-- A quotient is rounded to the multiple of its grain that is half a grain away at most; if it is
as much as that away, the multiple is an even one. -/
theorem nearest_eq {m : Nat} (hf : 0 < f.precision) (hden : 0 < den)
    (hlt : num < 2 ^ f.precision * (2 ^ k * den))
    (hle : k = 0 ∨ 2 ^ (f.precision - 1) * (2 ^ k * den) ≤ num)
    (hlow : 2 * (m * (2 ^ k * den)) ≤ 2 * num + 2 ^ k * den)
    (hhigh : 2 * num ≤ 2 * (m * (2 ^ k * den)) + 2 ^ k * den)
    (htie : 2 * (m * (2 ^ k * den)) = 2 * num + 2 ^ k * den ∨
      2 * num = 2 * (m * (2 ^ k * den)) + 2 ^ k * den → m % 2 = 0) :
    f.nearest num den = m * 2 ^ k := by
  rw [← Nat.mul_assoc, ← Nat.pow_add] at hlt hle
  have hgrain : f.grain (num / den) = 2 ^ k :=
    grain_eq_pow hf ((Nat.div_lt_iff_lt_mul hden).mpr hlt)
      (hle.imp_right (Nat.le_div_iff_mul_le hden).mpr)
  rw [nearest, hgrain, Nat.mul_comm den,
    roundDiv_eq (Nat.mul_pos (Nat.two_pow_pos k) hden) hlow hhigh htie]

/-- A quotient that is a magnitude of the format is not changed. -/
theorem nearest_mul (hden : 0 < den) (h : f.grain units ∣ units) :
    f.nearest (den * units) den = units := by
  obtain ⟨n, hn⟩ := h
  have hsteps : den * units = n * (den * f.grain units) :=
    calc den * units = den * (f.grain units * n) := by rw [← hn]
      _ = n * (den * f.grain units) := by rw [Nat.mul_comm, Nat.mul_comm _ n, Nat.mul_assoc,
          Nat.mul_comm _ den]
  have hround : roundDiv (den * units) (den * f.grain units) = n := by
    have hpos := Nat.mul_pos hden (f.grain_pos units)
    refine roundDiv_eq hpos ?_ ?_ ?_ <;> omega
  rw [nearest, Nat.mul_div_cancel_left _ hden, hround, Nat.mul_comm, ← hn]

/-- What is rounded is a magnitude of the format. -/
theorem grain_dvd_nearest (hf : 0 < f.precision) (hden : 0 < den) :
    f.grain (f.nearest num den) ∣ f.nearest num den := by
  have hbelow : num ≤ den * 2 ^ (Nat.log2 (num / den) + 1) := by
    rw [Nat.mul_comm]
    exact Nat.le_of_lt ((Nat.div_lt_iff_lt_mul hden).mp Nat.lt_log2_self)
  rcases Nat.lt_or_eq_of_le (nearest_le_pow hf hbelow) with hlt | heq
  · have hlog : Nat.log2 (f.nearest num den) ≤ Nat.log2 (num / den) := by
      rcases Nat.eq_zero_or_pos (f.nearest num den) with hzero | hpos
      · simp [hzero]
      · exact Nat.le_of_lt_succ ((Nat.log2_lt (Nat.ne_of_gt hpos)).mpr hlt)
    have hgrain : f.grain (f.nearest num den) ∣ f.grain (num / den) :=
      Nat.pow_dvd_pow 2 (by omega)
    exact Nat.dvd_trans hgrain (by rw [nearest]; exact Nat.dvd_mul_left _ _)
  · -- the quotient is rounded up to a power of two
    rw [heq]
    exact grain_dvd_pow hf (by rw [Nat.log2_two_pow])

/-! ### Quotients of natural numbers -/

section Quotient

variable {n d x : Nat}

/-- The units of the quotient of two natural numbers, each of which is rounded before. -/
def quotient (f : Format) (n d : Nat) : Nat :=
  f.nearest (f.nearest (n * 2 ^ f.scale) 1 * 2 ^ f.scale) (f.nearest (d * 2 ^ f.scale) 1)

/-- A number of no more bits than the precision is not rounded. -/
theorem nearest_whole (h : n < 2 ^ f.precision) :
    f.nearest (n * 2 ^ f.scale) 1 = n * 2 ^ f.scale := by
  have hexact := nearest_mul Nat.one_pos (grain_dvd_mul_pow h f.scale)
  rwa [Nat.one_mul] at hexact

theorem pow_le_nearest_whole (hf : 0 < f.precision) (hd : 0 < d) :
    2 ^ f.scale ≤ f.nearest (d * 2 ^ f.scale) 1 := by
  refine pow_le_nearest hf Nat.one_pos ?_
  rw [Nat.one_mul]
  exact Nat.le_mul_of_pos_left _ hd

/-- The quotient by a number that is not exceeded is not above one. -/
theorem quotient_le (hf : 0 < f.precision) (h : n ≤ d) : f.quotient n d ≤ 2 ^ f.scale :=
  nearest_le_pow hf
    (Nat.mul_le_mul_right _ (nearest_mono hf Nat.one_pos (Nat.mul_le_mul_right _ h)))

/-- A quotient that is a magnitude of the format is exact. -/
theorem quotient_eq (hn : n < 2 ^ f.precision) (hpos : 0 < d) (hd : d < 2 ^ f.precision)
    (hx : f.grain x ∣ x) (h : n * 2 ^ f.scale = x * d) : f.quotient n d = x := by
  have hnum : x * d * 2 ^ f.scale = d * 2 ^ f.scale * x := by ring
  rw [quotient, nearest_whole hn, nearest_whole hd, h, hnum]
  exact nearest_mul (Nat.mul_pos hpos (Nat.two_pow_pos _)) hx

/-- The quotient of a number of few bits is off by two roundings at most. -/
theorem quotient_close (hf : 0 < f.precision) (hpos : 0 < n) (hn : n < 2 ^ f.precision)
    (hd : 0 < d) (hk : d ≤ 2 ^ k) (hscale : k + f.precision ≤ f.scale + 1) :
    (2 ^ f.precision - 1) * (n * 2 ^ f.scale) ≤ (2 ^ f.precision + 1) * (f.quotient n d * d) ∧
      (2 ^ f.precision - 1) * (f.quotient n d * d) ≤
        (2 ^ f.precision + 1) * (n * 2 ^ f.scale) := by
  have hone : 1 * 2 ^ (f.precision - 1) ≤ d * 2 ^ f.scale :=
    Nat.mul_le_mul hd (Nat.pow_le_pow_right (by decide) (by omega))
  obtain ⟨hlow, hhigh⟩ := nearest_close hf Nat.one_pos hone
  have hdivisor : f.nearest (d * 2 ^ f.scale) 1 * 2 ^ (f.precision - 1) ≤
      n * 2 ^ f.scale * 2 ^ f.scale := by
    have hle : f.nearest (d * 2 ^ f.scale) 1 ≤ 2 ^ (k + f.scale) := by
      refine nearest_le_pow hf ?_
      rw [Nat.one_mul, Nat.pow_add]
      exact Nat.mul_le_mul_right _ hk
    calc f.nearest (d * 2 ^ f.scale) 1 * 2 ^ (f.precision - 1)
        ≤ 2 ^ (k + f.scale) * 2 ^ (f.precision - 1) := Nat.mul_le_mul_right _ hle
      _ = 2 ^ (k + f.scale + (f.precision - 1)) := (Nat.pow_add ..).symm
      _ ≤ 2 ^ (f.scale + f.scale) := Nat.pow_le_pow_right (by decide) (by omega)
      _ = 1 * 2 ^ f.scale * 2 ^ f.scale := by rw [Nat.one_mul, Nat.pow_add]
      _ ≤ n * 2 ^ f.scale * 2 ^ f.scale := Nat.mul_le_mul_right _ (Nat.mul_le_mul_right _ hpos)
  obtain ⟨hbelow, habove⟩ := nearest_close hf
    (Nat.lt_of_lt_of_le (Nat.two_pow_pos _) (pow_le_nearest_whole hf hd)) hdivisor
  have hquotient : f.nearest (n * 2 ^ f.scale * 2 ^ f.scale) (f.nearest (d * 2 ^ f.scale) 1) =
      f.quotient n d := by rw [quotient, nearest_whole hn]
  rw [hquotient] at hbelow habove
  rw [Nat.mul_one] at hlow hhigh
  obtain ⟨p, hp⟩ : ∃ p, 2 ^ f.precision = p + 1 :=
    Nat.exists_eq_add_one_of_ne_zero (Nat.ne_of_gt (Nat.two_pow_pos _))
  rw [hp] at hlow hhigh hbelow habove ⊢
  rw [Nat.add_sub_cancel]
  exact close_of_close (Nat.two_pow_pos _) hlow hhigh hbelow habove

end Quotient

end Format

end TierLineage.Number
