import TierLineage.Proofs.Number.Boundaries
import TierLineage.Proofs.Number.UnitInterval

/-!
# Numbers between zero and one are read back

A number of single precision is written as its shortest decimal.  That is read as a double, the
quotient of a word and a power of ten that may be rounded as well, and the double is rounded to
single precision.  A decimal close to a boundary of the number could be read as a double on the
other side of it, and so as a neighbour of the number.  No decimal is: where it can be told from the
boundaries the double is on the same side of them, and where it is a boundary it is read exactly.
-/

namespace TierLineage.Number

namespace Binary

variable {f : Format} {u num num' den den' low high n d k x y B : Nat} {inclusive : Bool}

/-! ### Numbers of a format -/

/-- Whether a number is one of its format: what rounding leaves of its units. -/
inductive IsRounded : Binary f → Prop
  | finite {s : Bool} {u : Nat} (h : f.grain u ∣ u) : IsRounded (.finite s u)
  | infinite {s : Bool} : IsRounded (.infinite s)
  | nan : IsRounded .nan

theorem isRounded_ofUnits (hf : 0 < f.precision) (hden : 0 < den) (s : Bool) (num : Nat) :
    (ofUnits s num den : Binary f).IsRounded := by
  rw [ofUnits]
  split
  · exact .finite (Format.grain_dvd_nearest hf hden)
  · exact .infinite

theorem isRounded_ofNat (n : Nat) : (ofNat n : Single).IsRounded := by
  rw [ofNat, ofRatio]
  exact isRounded_ofUnits (by decide) Nat.one_pos _ _

theorem isRounded_ofInt (n : Int) : (ofInt n : Single).IsRounded := by
  rw [ofInt]
  exact isRounded_ofUnits (by decide) Nat.one_pos _ _

theorem isRounded_convert (hf : 0 < f.precision) {g : Format} (x : Binary g) :
    (x.convert : Binary f).IsRounded := by
  cases x with
  | finite s u => exact isRounded_ofUnits hf (Nat.two_pow_pos _) ..
  | infinite s => exact .infinite
  | nan => exact .nan

theorem IsRounded.clamp {x low high : Binary f} (hx : x.IsRounded) (hlow : low.IsRounded)
    (hhigh : high.IsRounded) : (x.clamp low high).IsRounded := by
  rw [Binary.clamp]
  split_ifs
  · exact hlow
  · exact hhigh
  · exact hx

/-! ### Between the boundaries of a number -/

theorem between_bounds (h : between inclusive low num den high = true) :
    low * den ≤ 2 * num ∧ 2 * num ≤ high * den ∧
      (low * den = 2 * num ∨ 2 * num = high * den → inclusive = true) := by
  rw [between] at h
  cases inclusive
  · rw [if_neg Bool.false_ne_true, Bool.and_eq_true, decide_eq_true_eq, decide_eq_true_eq] at h
    exact ⟨Nat.le_of_lt h.1, Nat.le_of_lt h.2, fun htie => by omega⟩
  · rw [if_pos rfl, Bool.and_eq_true, decide_eq_true_eq, decide_eq_true_eq] at h
    exact ⟨h.1, h.2, fun _ => rfl⟩

/-- Only on which side of the bounds a quotient is matters. -/
theorem between_congr (hlow : compare (2 * num) (low * den) = compare (2 * num') (low * den'))
    (hhigh : compare (2 * num) (high * den) = compare (2 * num') (high * den')) :
    between inclusive low num den high = between inclusive low num' den' high := by
  have hmost : low * den ≤ 2 * num ↔ low * den' ≤ 2 * num' := by
    rw [← Nat.isGE_compare, hlow, Nat.isGE_compare]
  have hmore : low * den < 2 * num ↔ low * den' < 2 * num' := by
    rw [← Nat.compare_eq_gt, hlow, Nat.compare_eq_gt]
  have hleast : 2 * num ≤ high * den ↔ 2 * num' ≤ high * den' := by
    rw [← Nat.isLE_compare, hhigh, Nat.isLE_compare]
  have hless : 2 * num < high * den ↔ 2 * num' < high * den' := by
    rw [← Nat.compare_eq_lt, hhigh, Nat.compare_eq_lt]
  simp only [between, hmost, hmore, hleast, hless]

/-- What is half a grain away at most is rounded to a count of that grain. -/
theorem nearest_of_count {h m : Nat} (hden : 0 < den) (hpos : 0 < m) (hfew : m < 2 ^ 24)
    (hfull : h = 0 ∨ 2 ^ 23 < m) (hlow : (2 * (m * 2 ^ h) - 2 ^ h) * den ≤ 2 * num)
    (hhigh : 2 * num ≤ (2 * (m * 2 ^ h) + 2 ^ h) * den)
    (htie : (2 * (m * 2 ^ h) - 2 ^ h) * den = 2 * num ∨
      2 * num = (2 * (m * 2 ^ h) + 2 ^ h) * den → m % 2 = 0) :
    single.nearest num den = m * 2 ^ h := by
  have hsub : (2 * (m * 2 ^ h) - 2 ^ h) * den = 2 * (m * (2 ^ h * den)) - 2 ^ h * den := by
    rw [Nat.sub_mul, Nat.mul_assoc, Nat.mul_assoc]
  have hadd : (2 * (m * 2 ^ h) + 2 ^ h) * den = 2 * (m * (2 ^ h * den)) + 2 ^ h * den := by
    rw [Nat.add_mul, Nat.mul_assoc, Nat.mul_assoc]
  have hstep := Nat.mul_pos (Nat.two_pow_pos h) hden
  have hself := Nat.le_mul_of_pos_left (2 ^ h * den) hpos
  rw [hsub] at hlow htie
  rw [hadd] at hhigh htie
  refine Format.nearest_eq (by decide) hden ?_ (hfull.imp_right fun hfull => ?_) (by omega) hhigh
    (fun htie' => htie (by omega))
  · have hmost : m * (2 ^ h * den) ≤ (2 ^ 24 - 1) * (2 ^ h * den) :=
      Nat.mul_le_mul_right _ (by omega)
    change num < 2 ^ 24 * _
    omega
  · have hleast : (2 ^ 23 + 1) * (2 ^ h * den) ≤ m * (2 ^ h * den) := Nat.mul_le_mul_right _ hfull
    change 2 ^ 23 * _ ≤ num
    omega

/-- Around a power of two, the grain below it is half of that above. -/
theorem nearest_of_power {h : Nat} (hden : 0 < den)
    (hlow : (2 * (2 ^ 24 * 2 ^ h) - 2 ^ h) * den ≤ 2 * num)
    (hhigh : 2 * num ≤ (2 * (2 ^ 24 * 2 ^ h) + 2 * 2 ^ h) * den) :
    single.nearest num den = 2 ^ 24 * 2 ^ h := by
  have hsub : (2 * (2 ^ 24 * 2 ^ h) - 2 ^ h) * den = (2 ^ 25 - 1) * (2 ^ h * den) := by
    rw [← Nat.mul_assoc (2 ^ 25 - 1)]
    congr 1
    omega
  have hadd : (2 * (2 ^ 24 * 2 ^ h) + 2 * 2 ^ h) * den = (2 ^ 25 + 2) * (2 ^ h * den) := by
    rw [← Nat.mul_assoc (2 ^ 25 + 2)]
    congr 1
    omega
  have hdouble : 2 ^ (h + 1) * den = 2 * (2 ^ h * den) := by rw [Nat.pow_succ', Nat.mul_assoc]
  rw [hsub] at hlow
  rw [hadd] at hhigh
  rcases Nat.lt_or_ge num (2 ^ 24 * (2 ^ h * den)) with hless | hmore
  · refine Format.nearest_eq (by decide) hden hless (.inr ?_) (by omega) (by omega)
      (fun _ => by decide)
    change 2 ^ 23 * _ ≤ num
    omega
  · have hcount : 2 ^ 24 * 2 ^ h = 2 ^ 23 * 2 ^ (h + 1) := by
      rw [Nat.pow_succ' (n := h)]
      omega
    have hstep := Nat.mul_pos (Nat.two_pow_pos h) hden
    rw [hcount]
    refine Format.nearest_eq (by decide) hden ?_ (.inr ?_) (by omega) (by omega)
      (fun _ => by decide)
    · change num < 2 ^ 24 * _
      omega
    · change 2 ^ 23 * _ ≤ num
      omega

/-- **What lies between the boundaries of a number is rounded to it.** -/
theorem nearest_of_between (hpos : 0 < u) (hgrain : single.grain u ∣ u) (hden : 0 < den)
    (h : between (u / single.grain u % 2 == 0) (2 * u - roomBelow u) num den
      (2 * u + single.grain u) = true) : single.nearest num den = u := by
  obtain ⟨hlow, hhigh, htie⟩ := between_bounds h
  rw [beq_iff_eq] at htie
  rcases roomBelow_cases hpos hgrain with ⟨h, hu, hspace, hroom⟩ |
      ⟨h, m, hu, hspace, hroom, hm, hfew, hfull⟩
  · rw [hroom, hu] at hlow
    rw [hspace, hu] at hhigh
    rw [hu]
    exact nearest_of_power hden hlow hhigh
  · have hcount : u / single.grain u = m := by
      rw [hspace, hu, Nat.mul_div_cancel _ (Nat.two_pow_pos h)]
    rw [hcount, hroom, hspace, hu] at htie
    rw [hroom, hu] at hlow
    rw [hspace, hu] at hhigh
    rw [hu]
    exact nearest_of_count hden hm hfew hfull hlow hhigh htie

/-! ### Decimals as doubles -/

theorem compare_mul (hk : 0 < k) (x y : Nat) : compare (k * x) (k * y) = compare x y := by
  rcases Nat.lt_trichotomy x y with hlt | rfl | hgt
  · rw [Nat.compare_eq_lt.mpr hlt, Nat.compare_eq_lt]
    exact Nat.mul_lt_mul_of_pos_left hlt hk
  · rw [Nat.compare_eq_eq.mpr rfl, Nat.compare_eq_eq.mpr rfl]
  · rw [Nat.compare_eq_gt.mpr hgt, Nat.compare_eq_gt]
    exact Nat.mul_lt_mul_of_pos_left hgt hk

/-- A quotient and the one that is rounded to the precision of doubles lie on the same side of a
boundary that is met exactly or at a distance. -/
theorem compare_quotient {t j : Nat} (hf : f.precision = 53) (hscale : f.scale = j + t) (hpos : 0 < n)
    (hn : n < 2 ^ 53) (hd : 0 < d) (hk : d ≤ 2 ^ k) (hfit : k + 52 ≤ f.scale)
    (h : Discernible (n * 2 ^ j) (B * d))
    (htie : n * 2 ^ j = B * d → d < 2 ^ 53 ∧ f.grain (B * 2 ^ t) ∣ B * 2 ^ t) :
    compare (f.quotient n d * 2 ^ j) (B * 2 ^ f.scale) = compare (n * 2 ^ j) (B * d) := by
  obtain ⟨hlow, hhigh⟩ := Format.quotient_close (f := f) (by omega) hpos (by rwa [hf]) hd hk
    (by omega)
  rw [hf] at hlow hhigh
  have htwo := Nat.two_pow_pos f.scale
  -- all of them with the factors of the others
  have hdecimal : 2 ^ f.scale * (n * 2 ^ j) = 2 ^ j * (n * 2 ^ f.scale) := by ring
  have hdouble : d * (f.quotient n d * 2 ^ j) = 2 ^ j * (f.quotient n d * d) := by ring
  have hboundary : d * (B * 2 ^ f.scale) = 2 ^ f.scale * (B * d) := by ring
  rw [← compare_mul hd, hboundary, ← compare_mul htwo (n * 2 ^ j), hdecimal, hdouble]
  refine Discernible.compare_eq ?_ ?_ ?_ fun heq => ?_
  · rw [← hdecimal]
    exact (discernible_mul_iff htwo).mpr h
  · rw [Nat.mul_left_comm, Nat.mul_left_comm (2 ^ 53 + 1)]
    exact Nat.mul_le_mul_left _ hlow
  · rw [Nat.mul_left_comm, Nat.mul_left_comm (2 ^ 53 + 1)]
    exact Nat.mul_le_mul_left _ hhigh
  · rw [← hdecimal] at heq
    have heq := Nat.eq_of_mul_eq_mul_left htwo heq
    obtain ⟨hfew, hgrain⟩ := htie heq
    have hquotient : f.quotient n d = B * 2 ^ t := by
      refine Format.quotient_eq (by rwa [hf]) hd (by rwa [hf]) hgrain ?_
      rw [hscale, Nat.pow_add, ← Nat.mul_assoc, heq, Nat.mul_right_comm]
    rw [hquotient, hscale, Nat.pow_add]
    ring

/-- The double that the decimal of a number is read as is rounded to the number. -/
theorem nearest_quotient {places zeros word power : Nat} (hpos : 0 < u) (hgrain : single.grain u ∣ u)
    (hrare : ¬ Rare u) (hfound : onGrid? single u (-((places + zeros : Nat) : Int)) =
      some ⟨10 ^ zeros * n, -((places + zeros : Nat) : Int)⟩)
    (hplaces : places ≤ 53) (hn : 0 < n) (hvalue : word * 10 ^ places = n * 10 ^ power)
    (hword : word ≤ 10 ^ 10) (hpower : power ≤ places + 1) :
    single.nearest (double.quotient word (10 ^ power) * 2 ^ single.scale) (2 ^ double.scale) = u := by
  obtain ⟨-, -, -, hhits⟩ := onGrid?_spec hfound
  have hten := fun k => Nat.pow_pos (n := k) (by decide : 0 < 10)
  have hne : 0 < word := by
    refine Nat.pos_of_ne_zero fun hzero => ?_
    rw [hzero, Nat.zero_mul] at hvalue
    exact absurd hvalue (Nat.ne_of_lt (Nat.mul_pos hn (hten power)))
  have hside : ∀ boundary, boundary = 2 * u - roomBelow u ∨ boundary = 2 * u + single.grain u →
      compare (2 * (double.quotient word (10 ^ power) * 2 ^ single.scale))
          (boundary * 2 ^ double.scale) =
        compare (2 * (10 ^ zeros * n * 2 ^ 149)) (boundary * 10 ^ (places + zeros)) := by
    intro boundary hboundary
    obtain ⟨hdiscernible, htie, h, b, hb, hwide⟩ :=
      discernible_of_onGrid? hpos hgrain hrare hfound hboundary
    -- the word and the digits are compared at a common power of ten
    have hleft : 10 ^ power * (10 ^ zeros * n * 2 ^ 150) =
        10 ^ (places + zeros) * (word * 2 ^ 150) := by
      calc 10 ^ power * (10 ^ zeros * n * 2 ^ 150)
          = n * 10 ^ power * (10 ^ zeros * 2 ^ 150) := by ring
        _ = word * 10 ^ places * (10 ^ zeros * 2 ^ 150) := by rw [hvalue]
        _ = 10 ^ (places + zeros) * (word * 2 ^ 150) := by ring
    have hright : 10 ^ power * (boundary * 10 ^ (places + zeros)) =
        10 ^ (places + zeros) * (boundary * 10 ^ power) := by ring
    rw [← discernible_mul_iff (hten power), hleft, hright, discernible_mul_iff (hten _)]
      at hdiscernible
    have hread : 2 * (double.quotient word (10 ^ power) * 2 ^ single.scale) =
        double.quotient word (10 ^ power) * 2 ^ 150 := by
      change 2 * (_ * 2 ^ 149) = _
      ring
    have hdigits : 2 * (10 ^ zeros * n * 2 ^ 149) = 10 ^ zeros * n * 2 ^ 150 := by ring
    rw [hread, hdigits, ← compare_mul (hten power) (10 ^ zeros * n * 2 ^ 150), hleft, hright,
      compare_mul (hten _)]
    refine compare_quotient (k := 4 * power) (t := 924) rfl rfl hne (by omega) (hten power)
      (pow_ten_le power) (by simp only [double]; omega) hdiscernible fun heq => ?_
    have hfew := htie (Nat.eq_of_mul_eq_mul_left (hten power) (by rw [hleft, hright, heq]))
    constructor
    · exact Nat.lt_of_le_of_lt (Nat.pow_le_pow_right (by decide) (by omega : power ≤ 12)) (by decide)
    · rw [hb, Nat.mul_assoc, ← Nat.pow_add]
      exact Format.grain_dvd_mul_pow (Nat.lt_of_le_of_lt hwide (by decide)) _
  refine nearest_of_between hpos hgrain (Nat.two_pow_pos _) ?_
  rw [← hhits, Hits]
  exact between_congr (hside _ (.inl rfl)) (hside _ (.inr rfl))

end Binary

end TierLineage.Number

namespace TierLineage.Json

open TierLineage.Number

/-! ### Confidences -/

theorem readSingle_rare {u : Nat} (h : Binary.Rare u) :
    readSingle (Json.single (.finite false u)) = .ok (.finite false u) := by
  rcases h with rfl | rfl <;> decide +kernel

/-- A number between zero and one is read back from its numeral. -/
theorem readSingle_single {x : Single} (hx : x.InUnit) (hr : x.IsRounded) :
    readSingle (Json.single x) = .ok x := by
  rcases Binary.inUnit_iff.mp hx with rfl | ⟨u, hu, rfl⟩
  · decide +kernel
  obtain ⟨hgrain⟩ := hr
  rcases Nat.eq_zero_or_pos u with rfl | hpos
  · decide +kernel
  rcases Nat.lt_or_eq_of_le hu with hlt | rfl
  · by_cases hrare : Binary.Rare u
    · exact readSingle_rare hrare
    · obtain ⟨-, n, places, zeros, word, power, hread, hfound, hplaces, hn, hvalue, -, hword, hpower⟩ :=
        single_below_one hpos hlt
      rw [hread, Binary.nearest_quotient hpos hgrain hrare hfound (by omega) hn hvalue hword hpower]
  · decide +kernel

/-- **A number between zero and one is read back from its text.** -/
theorem decode_single {x : Single} (hx : x.InUnit) (hr : x.IsRounded) :
    decode readSingle (compact (Json.single x)) = .ok x := by
  rw [decode_compact readSingle (single_inUnit hx).1]
  exact readSingle_single hx hr

/-- Whatever is read is a number of single precision. -/
theorem isRounded_of_readSingle {v : Json} {x : Single} (h : readSingle v = .ok x) : x.IsRounded := by
  rw [readSingle] at h
  split at h <;> cases h
  · exact Binary.isRounded_ofInt _
  · exact Binary.isRounded_ofInt _
  · exact Binary.isRounded_convert (by decide) _

end TierLineage.Json
