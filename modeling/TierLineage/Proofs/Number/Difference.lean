import Mathlib.Data.Int.ConditionallyCompleteOrder
import Mathlib.Order.ConditionallyCompleteLattice.Basic
import Mathlib.Order.WithBot
import TierLineage.Proofs.Number.Rounding

/-!
# Differences

The numbers of a format other than `nan` are in line: a finite number stands where its units are, and
the infinities stand at both ends.  A difference of finite numbers is never `nan`, and as rounding keeps
the order, a greater exact difference is no smaller after it is rounded.  So of two numbers below a third
one the greater is never farther away, however differences are rounded.
-/

namespace TierLineage.Number.Binary

variable {f : Format} {x y z x' y' : Binary f}

/-! ### Places -/

/-- Whether a number has units. -/
def IsFinite : Binary f → Prop
  | finite _ _ => True
  | infinite _ => False
  | nan => False

instance : DecidablePred (IsFinite (f := f)) := fun x =>
  match x with
  | finite _ _ => .isTrue trivial
  | infinite _ => .isFalse id
  | nan => .isFalse id

/-- The signed units of a finite number. -/
def units : Binary f → Int
  | finite s u => signed s u
  | infinite _ => 0
  | nan => 0

/-- Where a number stands; `nan` stands nowhere. -/
def place : Binary f → WithBot (WithTop Int)
  | finite s u => ((signed s u : WithTop Int) : WithBot (WithTop Int))
  | infinite false => ⊤
  | infinite true => ⊥
  | nan => ⊥

theorem ofNat_zero_single : (ofNat 0 : Single) = finite false 0 := by
  decide +kernel

theorem coe_lt_top (n : Int) : ((n : WithTop Int) : WithBot (WithTop Int)) < ⊤ :=
  WithBot.coe_lt_coe.mpr (WithTop.coe_lt_top n)

theorem IsFinite.ne_nan (hx : x.IsFinite) : x ≠ nan := by
  rintro rfl
  exact hx

theorem IsFinite.place_eq (hx : x.IsFinite) :
    x.place = ((x.units : WithTop Int) : WithBot (WithTop Int)) := by
  cases x with
  | finite s u => rfl
  | infinite s => cases hx
  | nan => cases hx

theorem less_iff (hx : x ≠ nan) (hy : y ≠ nan) : x.less y = true ↔ x.place < y.place := by
  cases x with
  | nan => exact absurd rfl hx
  | finite s u =>
    cases y with
    | nan => exact absurd rfl hy
    | finite t v => simp [less, compare?, place, Int.compare_eq_lt]
    | infinite t => cases t <;> simp [less, compare?, place, coe_lt_top]
  | infinite s =>
    cases y with
    | nan => exact absurd rfl hy
    | finite t v => cases s <;> simp [less, compare?, place]
    | infinite t => cases s <;> cases t <;> simp [less, compare?, place] <;> decide

theorem atMost_iff (hx : x ≠ nan) (hy : y ≠ nan) : x.atMost y = true ↔ x.place ≤ y.place := by
  cases x with
  | nan => exact absurd rfl hx
  | finite s u =>
    cases y with
    | nan => exact absurd rfl hy
    | finite t v =>
      simp [atMost, compare?, place, Int.compare_eq_lt, Int.le_iff_lt_or_eq]
    | infinite t => cases t <;> simp [atMost, compare?, place]
  | infinite s =>
    cases y with
    | nan => exact absurd rfl hy
    | finite t v => cases s <;> simp [atMost, compare?, place]
    | infinite t => cases s <;> cases t <;> simp [atMost, compare?, place] <;> decide

theorem ne_nan_of_atMost (h : x.atMost y = true) : x ≠ nan ∧ y ≠ nan := by
  refine ⟨?_, ?_⟩ <;> rintro rfl
  · cases h
  · cases x <;> cases h

theorem atMost_trans (hxy : x.atMost y = true) (hyz : y.atMost z = true) : x.atMost z = true := by
  obtain ⟨hx, hy⟩ := ne_nan_of_atMost hxy
  obtain ⟨-, hz⟩ := ne_nan_of_atMost hyz
  exact (atMost_iff hx hz).mpr (((atMost_iff hx hy).mp hxy).trans ((atMost_iff hy hz).mp hyz))

/-- What is not above a number is at most that number. -/
theorem not_less_iff (hx : x ≠ nan) (hy : y ≠ nan) : x.less y = false ↔ y.atMost x = true := by
  rw [Bool.eq_false_iff, ne_eq, less_iff hx hy, atMost_iff hy hx, not_lt]

theorem IsFinite.atMost_iff (hx : x.IsFinite) (hy : y.IsFinite) :
    x.atMost y = true ↔ x.units ≤ y.units := by
  rw [Binary.atMost_iff hx.ne_nan hy.ne_nan, hx.place_eq, hy.place_eq]
  simp

theorem IsFinite.less_iff (hx : x.IsFinite) (hy : y.IsFinite) :
    x.less y = true ↔ x.units < y.units := by
  rw [Binary.less_iff hx.ne_nan hy.ne_nan, hx.place_eq, hy.place_eq]
  simp

/-! ### Rounded differences -/

/-- A signed count of units as a number of the format. -/
def ofSigned (n : Int) : Binary f :=
  ofUnits (n < 0) n.natAbs 1

/-- A sign is rounded to the same sign, and what is rounded away does not matter. -/
theorem place_ofUnits (s : Bool) (n : Nat) : (ofUnits s n 1 : Binary f).place =
    if f.nearest n 1 < 2 ^ f.width then
      ((signed s (f.nearest n 1) : WithTop Int) : WithBot (WithTop Int))
    else if s then ⊥ else ⊤ := by
  rw [ofUnits]
  simp only [Nat.pow_eq]
  split
  · rfl
  · cases s <;> rfl

/-- Rounding keeps the order of signed counts. -/
theorem place_ofSigned_mono (hf : 0 < f.precision) {m n : Int} (h : m ≤ n) :
    (ofSigned m : Binary f).place ≤ (ofSigned n : Binary f).place := by
  have hmono : ∀ {i j : Nat}, i ≤ j → f.nearest i 1 ≤ f.nearest j 1 :=
    fun hij => Format.nearest_mono hf Nat.one_pos hij
  rw [ofSigned, ofSigned, place_ofUnits, place_ofUnits]
  rcases lt_or_ge n 0 with hn | hn
  · have hm : m < 0 := h.trans_lt hn
    have habs := hmono (show n.natAbs ≤ m.natAbs by omega)
    simp only [hm, hn, decide_true, if_true, signed]
    split_ifs with hm' hn' hn'
    · simp only [WithBot.coe_le_coe, WithTop.coe_le_coe]
      omega
    · exact absurd (habs.trans_lt hm') hn'
    · exact bot_le
    · exact bot_le
  · rcases lt_or_ge m 0 with hm | hm
    · have hn' : ¬ n < 0 := not_lt.mpr hn
      simp only [hm, hn', decide_true, decide_false, if_true, Bool.false_eq_true, if_false, signed]
      split_ifs
      · simp only [WithBot.coe_le_coe, WithTop.coe_le_coe]
        omega
      · exact le_top
      · exact bot_le
      · exact bot_le
    · have habs := hmono (show m.natAbs ≤ n.natAbs by omega)
      have hn' : ¬ n < 0 := not_lt.mpr hn
      have hm' : ¬ m < 0 := not_lt.mpr hm
      simp only [hm', hn', decide_false, Bool.false_eq_true, if_false, signed]
      split_ifs with hm'' hn'' hn''
      · simp only [WithBot.coe_le_coe, WithTop.coe_le_coe]
        omega
      · exact le_top
      · exact absurd (habs.trans_lt hn'') hm''
      · exact le_top

theorem place_ofSigned_zero :
    (ofSigned 0 : Binary f).place = (((0 : Int) : WithTop Int) : WithBot _) := by
  have hnearest : f.nearest 0 1 = 0 := by
    rw [Format.nearest, roundDiv]
    simp
  rw [ofSigned, place_ofUnits]
  simp [hnearest, signed]

theorem place_sub (hx : x.IsFinite) (hy : y.IsFinite) :
    (x.sub y).place = (ofSigned (x.units - y.units) : Binary f).place := by
  cases x with
  | infinite s => cases hx
  | nan => cases hx
  | finite s u =>
    cases y with
    | infinite t => cases hy
    | nan => cases hy
    | finite t v =>
      have hsum : signed s u + signed (!t) v = signed s u - signed t v := by
        cases t <;> simp [signed, sub_eq_add_neg]
      rw [sub, negate, add]
      simp only [hsum, units]
      split
      · next hzero =>
        rw [hzero, place_ofSigned_zero]
        simp [place, signed]
      · rfl

theorem sub_ne_nan (hx : x.IsFinite) (hy : y.IsFinite) : x.sub y ≠ nan := by
  cases x with
  | infinite s => cases hx
  | nan => cases hx
  | finite s u =>
    cases y with
    | infinite t => cases hy
    | nan => cases hy
    | finite t v =>
      rw [sub, negate, add]
      split
      · exact nofun
      · rw [ofUnits]
        split <;> exact nofun

/-- A greater difference is no smaller after it is rounded. -/
theorem sub_atMost_sub (hf : 0 < f.precision) (hx : x.IsFinite) (hy : y.IsFinite)
    (hx' : x'.IsFinite) (hy' : y'.IsFinite) (h : x.units - y.units ≤ x'.units - y'.units) :
    (x.sub y).atMost (x'.sub y') = true := by
  rw [atMost_iff (sub_ne_nan hx hy) (sub_ne_nan hx' hy'), place_sub hx hy, place_sub hx' hy']
  exact place_ofSigned_mono hf h

/-- What is not positive is at most whatever zero is at most. -/
theorem sub_atMost_of_le (hf : 0 < f.precision) (hx : x.IsFinite) (hy : y.IsFinite)
    (h : x.units ≤ y.units) (hz : (finite false 0 : Binary f).atMost z = true) :
    (x.sub y).atMost z = true := by
  refine atMost_trans ?_ hz
  have hzero : (finite false 0 : Binary f).IsFinite := trivial
  rw [atMost_iff (sub_ne_nan hx hy) hzero.ne_nan, place_sub hx hy]
  exact (place_ofSigned_mono hf (by omega : x.units - y.units ≤ 0)).trans_eq place_ofSigned_zero

/-- A difference to a number that is no greater is its own magnitude. -/
theorem place_abs_sub (hf : 0 < f.precision) (hx : x.IsFinite) (hy : y.IsFinite)
    (h : y.units ≤ x.units) : (x.sub y).abs.place = (x.sub y).place := by
  have hzero : (((0 : Int) : WithTop Int) : WithBot _) ≤ (x.sub y).place := by
    rw [← place_ofSigned_zero (f := f), place_sub hx hy]
    exact place_ofSigned_mono hf (Int.sub_nonneg_of_le h)
  cases hz : x.sub y with
  | nan => exact absurd hz (sub_ne_nan hx hy)
  | infinite s =>
    rw [hz] at hzero
    cases s with
    | false => rfl
    | true => simp [place] at hzero
  | finite s u =>
    rw [hz] at hzero
    have hsigned : 0 ≤ signed s u := by
      simpa [place] using hzero
    have hmagnitude : signed false u = signed s u := by
      cases s
      · rfl
      · simp only [signed, if_true, Bool.false_eq_true, if_false] at hsigned ⊢
        omega
    simp only [place, abs, hmagnitude]

theorem abs_sub_atMost (hf : 0 < f.precision) (hx : x.IsFinite) (hy : y.IsFinite)
    (h : y.units ≤ x.units) : (x.sub y).abs.atMost z = (x.sub y).atMost z := by
  have hsub := sub_ne_nan hx hy
  have habs : (x.sub y).abs ≠ nan := by
    cases hz : x.sub y with
    | nan => exact absurd hz hsub
    | finite s u => exact nofun
    | infinite s => exact nofun
  rw [Bool.eq_iff_iff]
  by_cases hz : z = nan
  · -- nothing is at most what is not a number
    exact iff_of_false (fun hle => (ne_nan_of_atMost hle).2 hz) fun hle => (ne_nan_of_atMost hle).2 hz
  · rw [atMost_iff habs hz, atMost_iff hsub hz, place_abs_sub hf hx hy h]

end TierLineage.Number.Binary
