import TierLineage.Proofs.Number.Remainders
import TierLineage.Proofs.Number.Shortest

/-!
# Decimals beside the boundaries between numbers

The boundaries of a number of single precision lie half way to its neighbours.  Its shortest decimal
lies between them.  Where the spacing of the decimals is clearly finer than that of the numbers the
decimal is the nearest one, which is well inside.  Otherwise it has few digits, and then Euclid's
algorithm for the powers of two and of five tells how near it may come to a boundary: except beside
one boundary it lies on it or is off by more than two roundings to doubles.
-/

namespace TierLineage.Number

/-- Whether a magnitude is another one, or is off it by more than two roundings to doubles. -/
structure Discernible (x y : Nat) : Prop where
  below : x < y → 17 * y + 2 ^ 56 * x ≤ 2 ^ 56 * y
  above : y < x → 17 * y + 2 ^ 56 * y ≤ 2 ^ 56 * x

variable {x y r k u d e h b : Nat}

theorem discernible_mul_iff (hk : 0 < k) : Discernible (k * x) (k * y) ↔ Discernible x y := by
  have hbelow : 17 * (k * y) + 2 ^ 56 * (k * x) = k * (17 * y + 2 ^ 56 * x) := by ring
  have habove : 17 * (k * y) + 2 ^ 56 * (k * y) = k * (17 * y + 2 ^ 56 * y) := by ring
  have hx : 2 ^ 56 * (k * x) = k * (2 ^ 56 * x) := by ring
  have hy : 2 ^ 56 * (k * y) = k * (2 ^ 56 * y) := by ring
  constructor
  · intro h
    refine ⟨fun hlt => ?_, fun hlt => ?_⟩
    · have := h.below (Nat.mul_lt_mul_of_pos_left hlt hk)
      rw [hbelow, hy] at this
      exact Nat.le_of_mul_le_mul_left this hk
    · have := h.above (Nat.mul_lt_mul_of_pos_left hlt hk)
      rw [habove, hx] at this
      exact Nat.le_of_mul_le_mul_left this hk
  · intro h
    refine ⟨fun hlt => ?_, fun hlt => ?_⟩
    · rw [hbelow, hy]
      exact Nat.mul_le_mul_left k (h.below (Nat.lt_of_mul_lt_mul_left hlt))
    · rw [habove, hx]
      exact Nat.mul_le_mul_left k (h.above (Nat.lt_of_mul_lt_mul_left hlt))

theorem discernible_of_rest (hr : 17 * y ≤ 2 ^ 56 * r) (h : (r : Int) ≤ |(y : Int) - x|) :
    Discernible x y where
  below hlt := by
    rw [abs_of_pos (by omega)] at h
    omega
  above hlt := by
    rw [abs_of_neg (by omega)] at h
    omega

/-- What is close to a magnitude lies on its side of another one from which that can be told. -/
theorem Discernible.compare_eq {z : Nat} (h : Discernible x y)
    (hlow : (2 ^ 53 - 1) * x ≤ (2 ^ 53 + 1) * z) (hhigh : (2 ^ 53 - 1) * z ≤ (2 ^ 53 + 1) * x)
    (htie : x = y → z = y) : compare z y = compare x y := by
  rcases Nat.lt_trichotomy x y with hlt | heq | hgt
  · have hgap := h.below hlt
    rw [Nat.compare_eq_lt.mpr hlt, Nat.compare_eq_lt]
    omega
  · rw [htie heq, heq]
  · have hgap := h.above hgt
    rw [Nat.compare_eq_gt.mpr hgt, Nat.compare_eq_gt]
    omega

/-! ### Powers of two and of ten -/

/-- So many times at most the lower half of the space around a number goes into its boundaries. -/
def widest : Nat := 2 ^ 25 + 2

/-- The remainders that tell how near a count of `5 ^ e` comes to multiples of a power of two. -/
def remainders (bound h e : Nat) : Remainders :=
  .beyond bound 24 (.start (5 ^ e) (2 ^ (150 - h - e)))

theorem of_remainders (bound h e : Nat) : (remainders bound h e).Of (5 ^ e) (2 ^ (150 - h - e)) :=
  (Remainders.of_start _ _).beyond bound 24

/-- What remains is large, except for one pair of powers. -/
theorem remainders_large : ∀ e < 45, ∀ h < 110, 12 ≤ e ∧ 7 * 2 ^ h * 10 ^ e < 2 ^ 152 ∧
    ¬ (h = 42 ∧ e = 32) → widest < (remainders widest h e).nextCount ∧
      17 * (widest * 5 ^ e) ≤ 2 ^ 56 * (remainders widest h e).rest := by
  decide +kernel

/-- For that pair one count comes near, and no other does. -/
theorem remainders_rare : remainders 22841338 42 32 =
    ⟨14495598, 3297259502135186, 22841339, 16835570817659⟩ := by
  decide +kernel

section Coarse

variable (hcoarse : 7 * 2 ^ h * 10 ^ e < 2 ^ 152)

include hcoarse

theorem add_lt_of_coarse : h + 3 * e < 150 := by
  by_contra hle
  have height : 2 ^ (h + 3 * e) ≤ 2 ^ h * 10 ^ e := by
    rw [Nat.pow_add, Nat.pow_mul]
    exact Nat.mul_le_mul_left _ (Nat.pow_le_pow_left (by decide) e)
  have hlarge : 2 ^ 150 ≤ 2 ^ (h + 3 * e) := Nat.pow_le_pow_right (by decide) (by omega)
  rw [Nat.mul_assoc] at hcoarse
  omega

/-- The common power of two of a decimal and a boundary. -/
theorem split_of_coarse (d b : Nat) : d * 2 ^ 150 = 2 ^ (h + e) * (d * 2 ^ (150 - h - e)) ∧
    b * 2 ^ h * 10 ^ e = 2 ^ (h + e) * (b * 5 ^ e) := by
  have hsum := add_lt_of_coarse hcoarse
  have hexponent : h + e + (150 - h - e) = 150 := by omega
  constructor
  · calc d * 2 ^ 150 = d * (2 ^ (h + e) * 2 ^ (150 - h - e)) := by rw [← Nat.pow_add, hexponent]
      _ = 2 ^ (h + e) * (d * 2 ^ (150 - h - e)) := by ring
  · have hten : 10 ^ e = 2 ^ e * 5 ^ e := by rw [← Nat.mul_pow]
    rw [hten, Nat.pow_add]
    ring

variable (hpos : 0 < b) (hwide : b ≤ widest) (hrare : ¬ (h = 42 ∧ e = 32 ∧ b = 22841339))

include hpos hwide hrare

theorem exists_rest (he : 12 ≤ e) : ∃ r : Nat, 17 * (b * 5 ^ e) ≤ 2 ^ 56 * r ∧ ∀ d : Nat,
    (r : Int) ≤ |((b * 5 ^ e : Nat) : Int) - (d * 2 ^ (150 - h - e) : Nat)| := by
  have hfew : e < 45 := by
    by_contra hle
    have hten : 10 ^ 45 ≤ 10 ^ e := Nat.pow_le_pow_right (by decide) (by omega)
    have htwo : 1 * 10 ^ e ≤ 2 ^ h * 10 ^ e := Nat.mul_le_mul_right _ Nat.one_le_two_pow
    rw [Nat.mul_assoc] at hcoarse
    omega
  have hlow : h < 110 := by
    by_contra hle
    have hten : 10 ^ 12 ≤ 10 ^ e := Nat.pow_le_pow_right (by decide) he
    have htwo : 2 ^ 110 * 10 ^ e ≤ 2 ^ h * 10 ^ e :=
      Nat.mul_le_mul_right _ (Nat.pow_le_pow_right (by decide) (by omega))
    rw [Nat.mul_assoc] at hcoarse
    omega
  have hbound : 17 * (b * 5 ^ e) ≤ 17 * (widest * 5 ^ e) :=
    Nat.mul_le_mul_left _ (Nat.mul_le_mul_right _ hwide)
  by_cases hpair : h = 42 ∧ e = 32
  · obtain ⟨rfl, rfl⟩ := hpair
    have hof := of_remainders 22841338 42 32
    rw [remainders_rare] at hof
    refine ⟨3297259502135186 - 16835570817659, Nat.le_trans hbound (by decide), fun d => ?_⟩
    have hne : b ≠ 22841339 := fun heq => hrare ⟨rfl, rfl, heq⟩
    rcases Nat.lt_or_gt_of_ne hne with hless | hmore
    · have hrest := hof.rest_le hpos hless d
      push_cast at hrest ⊢
      omega
    · have hrest := hof.rest_sub_le hmore (Nat.lt_of_le_of_lt hwide (by decide)) d
      push_cast at hrest ⊢
      omega
  · obtain ⟨hbeyond, hlarge⟩ := remainders_large e hfew h hlow ⟨he, hcoarse, hpair⟩
    refine ⟨_, Nat.le_trans hbound hlarge, fun d => ?_⟩
    have hrest := (of_remainders widest h e).rest_le hpos (Nat.lt_of_le_of_lt hwide hbeyond) d
    push_cast at hrest ⊢
    exact hrest

/-- A coarse decimal is a boundary or can be told from it. -/
theorem discernible_of_coarse (d : Nat) : Discernible (d * 2 ^ 150) (b * 2 ^ h * 10 ^ e) := by
  obtain ⟨hdecimal, hboundary⟩ := split_of_coarse hcoarse d b
  rw [hdecimal, hboundary, discernible_mul_iff (Nat.two_pow_pos _)]
  rcases Nat.lt_or_ge e 12 with hshort | hlong
  · -- few powers of five are no problem: the difference is one at least
    have hfive : b * 5 ^ e ≤ widest * 5 ^ 11 :=
      Nat.mul_le_mul hwide (Nat.pow_le_pow_right (by decide) (by omega))
    have hsmall : widest * 5 ^ 11 = 1638400097656250 := by decide
    constructor <;> intro hlt <;> omega
  · obtain ⟨r, hr, hrest⟩ := exists_rest hcoarse hpos hwide hrare hlong
    exact discernible_of_rest hr (hrest d)

/-- Coarse decimals that are boundaries are written with few places. -/
theorem le_of_tie (htie : d * 2 ^ 150 = b * 2 ^ h * 10 ^ e) : e ≤ 11 := by
  by_contra hle
  obtain ⟨r, hr, hrest⟩ := exists_rest hcoarse hpos hwide hrare (by omega)
  obtain ⟨hdecimal, hboundary⟩ := split_of_coarse hcoarse d b
  have heq : d * 2 ^ (150 - h - e) = b * 5 ^ e :=
    Nat.eq_of_mul_eq_mul_left (Nat.two_pow_pos (h + e)) (by rw [← hdecimal, ← hboundary, htie])
  have hzero := hrest d
  rw [heq, sub_self, abs_zero] at hzero
  have hfive : 0 < b * 5 ^ e := Nat.mul_pos hpos (Nat.pow_pos (by decide))
  omega

end Coarse

/-! ### The boundaries of a number -/

namespace Binary

/-- A number of single precision is a power of two with half its grain below it, or a count of its
grain.  Where the grain is not the unit, the count has all bits of the precision. -/
theorem roomBelow_cases (hpos : 0 < u) (hgrain : single.grain u ∣ u) :
    (∃ h, u = 2 ^ 24 * 2 ^ h ∧ single.grain u = 2 * 2 ^ h ∧ roomBelow u = 2 ^ h) ∨
      ∃ h m, u = m * 2 ^ h ∧ single.grain u = 2 ^ h ∧ roomBelow u = 2 ^ h ∧ 0 < m ∧ m < 2 ^ 24 ∧
        (h = 0 ∨ 2 ^ 23 < m) := by
  obtain ⟨log, hlog⟩ : ∃ log, Nat.log2 u = log := ⟨_, rfl⟩
  have hbelow : 2 ^ log ≤ u := hlog ▸ Nat.log2_self_le (Nat.ne_of_gt hpos)
  have habove : u < 2 ^ (log + 1) := hlog ▸ Nat.lt_log2_self
  obtain ⟨h, hh⟩ : ∃ h, log + 1 - 24 = h := ⟨_, rfl⟩
  have hspace : single.grain u = 2 ^ h := by
    rw [Format.grain, hlog, ← hh]
    rfl
  by_cases hpower : u = 2 ^ log ∧ 1 < single.grain u
  · have hne : h ≠ 0 := by
      rintro rfl
      rw [hspace] at hpower
      exact absurd hpower.2 (by decide)
    obtain ⟨k, rfl⟩ := Nat.exists_eq_add_one_of_ne_zero hne
    obtain rfl : log = 24 + k := by omega
    have hdouble : single.grain u = 2 * 2 ^ k := by rw [hspace, Nat.pow_succ']
    refine .inl ⟨k, by rw [hpower.1, Nat.pow_add], hdouble, ?_⟩
    rw [roomBelow, hlog, Nat.pow_eq, if_pos hpower, hdouble, Nat.mul_div_cancel_left _ (by decide)]
  · obtain ⟨m, hm⟩ := hgrain
    rw [hspace, Nat.mul_comm] at hm
    have hfew : m < 2 ^ 24 := by
      by_contra hmany
      have hlarge : 2 ^ 24 * 2 ^ h ≤ m * 2 ^ h := Nat.mul_le_mul_right _ (by omega)
      have hle : 2 ^ (log + 1) ≤ 2 ^ (24 + h) := Nat.pow_le_pow_right (by decide) (by omega)
      rw [Nat.pow_add 2 24] at hle
      omega
    refine .inr ⟨h, m, hm, hspace, ?_, ?_, hfew, ?_⟩
    · rw [roomBelow, hlog, Nat.pow_eq, if_neg hpower, hspace]
    · refine Nat.pos_of_ne_zero fun hzero => ?_
      rw [hzero, Nat.zero_mul] at hm
      omega
    · rcases Nat.eq_zero_or_pos h with hzero | hwide
      · exact .inl hzero
      · obtain rfl : log = 23 + h := by omega
        have hne : u ≠ 2 ^ (23 + h) := fun heq =>
          hpower ⟨heq, by rw [hspace]; exact Nat.one_lt_two_pow (by omega)⟩
        rw [Nat.pow_add] at hbelow hne
        exact .inr (Nat.lt_of_mul_lt_mul_right (a := 2 ^ h) (by omega))

/-- The boundaries of a number of single precision, counted in the space below it. -/
theorem exists_boundaries (hpos : 0 < u) (hgrain : single.grain u ∣ u) : ∃ h low high : Nat,
    roomBelow u = 2 ^ h ∧ 0 < low ∧ low < high ∧ 2 * u = (low + 1) * 2 ^ h ∧
      2 * u + single.grain u = high * 2 ^ h ∧ high ≤ widest ∧ (high = low + 2 ∨ high = widest) := by
  rcases roomBelow_cases hpos hgrain with ⟨h, hu, hspace, hroom⟩ |
      ⟨h, m, hu, hspace, hroom, hm, hfew, -⟩
  · refine ⟨h, 2 ^ 25 - 1, widest, hroom, by decide, by decide, ?_, ?_, Nat.le_refl _, .inr rfl⟩
    · omega
    · rw [hspace, widest]
      omega
  · refine ⟨h, 2 * m - 1, 2 * m + 1, hroom, by omega, by omega, ?_, ?_, by rw [widest]; omega,
      .inl (by omega)⟩
    · rw [Nat.sub_add_cancel (by omega), Nat.mul_assoc, ← hu]
    · rw [hspace, Nat.add_one_mul (2 * m), Nat.mul_assoc, ← hu]

/-- The two numbers beside the boundary to which a decimal comes near. -/
def Rare (u : Nat) : Prop := u = 11420669 * 2 ^ 42 ∨ u = 11420670 * 2 ^ 42

instance : DecidablePred Rare := fun _ => inferInstanceAs (Decidable (_ ∨ _))

/-- On a grid that is clearly finer than the numbers the decimal is off both boundaries. -/
theorem off_of_fine (hpos : 0 < u) (hfine : 2 ^ 152 ≤ 7 * (roomBelow u * 10 ^ e))
    (hd : onGrid? single u (-(e : Int)) = some ⟨d, -(e : Int)⟩) {boundary : Nat}
    (hboundary : boundary = 2 * u - roomBelow u ∨ boundary = 2 * u + single.grain u)
    (hwide : boundary ≤ widest * roomBelow u) :
    Discernible (d * 2 ^ 150) (boundary * 10 ^ e) ∧ d * 2 ^ 150 ≠ boundary * 10 ^ e := by
  rw [onGrid?_of_lt hpos (by omega), Option.some.injEq, Decimal.mk.injEq] at hd
  obtain ⟨hlow, hhigh⟩ := roundDiv_error (u * 10 ^ e) (by decide : 0 < 2 ^ 149)
  rw [hd.1] at hlow hhigh
  have hle := (roomBelow_spec u).1
  have hgrow : roomBelow u * 10 ^ e ≤ single.grain u * 10 ^ e := Nat.mul_le_mul_right _ hle
  have hself : roomBelow u * 10 ^ e ≤ 2 * (u * 10 ^ e) :=
    Nat.le_trans (Nat.le_trans hgrow (Nat.mul_le_mul_right _ (grain_le_self hpos)))
      (Nat.le_mul_of_pos_left _ (by decide))
  have hsize : boundary * 10 ^ e ≤ widest * (roomBelow u * 10 ^ e) := by
    rw [← Nat.mul_assoc]
    exact Nat.mul_le_mul_right _ hwide
  have hplace : boundary * 10 ^ e = 2 * (u * 10 ^ e) - roomBelow u * 10 ^ e ∨
      boundary * 10 ^ e = 2 * (u * 10 ^ e) + single.grain u * 10 ^ e := by
    rcases hboundary with rfl | rfl
    · exact .inl (by rw [Nat.sub_mul, Nat.mul_assoc])
    · exact .inr (by rw [Nat.add_mul, Nat.mul_assoc])
  rw [widest] at hsize
  have hdouble : d * 2 ^ 150 = 2 * (d * 2 ^ 149) := by ring
  rw [hdouble]
  refine ⟨⟨fun hlt => ?_, fun hlt => ?_⟩, ?_⟩ <;> omega

/-- The decimal that is found for a number can be told from the boundaries, or it is one of them and
has few places. -/
theorem discernible_of_onGrid? (hpos : 0 < u) (hgrain : single.grain u ∣ u) (hrare : ¬ Rare u)
    (hd : onGrid? single u (-(e : Int)) = some ⟨d, -(e : Int)⟩) {boundary : Nat}
    (hboundary : boundary = 2 * u - roomBelow u ∨ boundary = 2 * u + single.grain u) :
    Discernible (d * 2 ^ 150) (boundary * 10 ^ e) ∧
      (d * 2 ^ 150 = boundary * 10 ^ e → e ≤ 11) ∧
      ∃ h b, boundary = b * 2 ^ h ∧ b ≤ widest := by
  obtain ⟨h, low, high, hroom, hlow, hless, hdouble, hhigh, hwide, hcount⟩ :=
    exists_boundaries hpos hgrain
  have hsub : 2 * u - roomBelow u = low * 2 ^ h := by
    rw [hroom, hdouble, Nat.succ_mul, Nat.add_sub_cancel]
  obtain ⟨b, hb, hbpos, hbwide, hbrare⟩ : ∃ b, boundary = b * 2 ^ h ∧ 0 < b ∧ b ≤ widest ∧
      ¬ (h = 42 ∧ e = 32 ∧ b = 22841339) := by
    rcases hboundary with rfl | rfl
    · refine ⟨low, hsub, hlow, by omega, ?_⟩
      rintro ⟨rfl, -, rfl⟩
      exact hrare (.inr (by omega))
    · refine ⟨high, hhigh, by omega, hwide, ?_⟩
      rintro ⟨rfl, -, rfl⟩
      rw [widest] at hcount
      exact hrare (.inl (by omega))
  by_cases hcoarse : 7 * 2 ^ h * 10 ^ e < 2 ^ 152
  · rw [hb]
    exact ⟨discernible_of_coarse hcoarse hbpos hbwide hbrare d,
      le_of_tie hcoarse hbpos hbwide hbrare, h, b, rfl, hbwide⟩
  · rw [Nat.not_lt, ← hroom, Nat.mul_assoc] at hcoarse
    obtain ⟨hdiscernible, hoff⟩ := off_of_fine hpos hcoarse hd hboundary (by
      rw [hb, hroom]
      exact Nat.mul_le_mul_right _ hbwide)
    exact ⟨hdiscernible, fun htie => absurd htie hoff, h, b, hb, hbwide⟩

end Binary

end TierLineage.Number
