import TierLineage.Proofs.Number.Shortest
import TierLineage.Proofs.Store.Scalars

/-!
# Numbers between zero and one stay there

A number of single precision between zero and one is written as a decimal fraction that is not above
one.  It is read as the quotient of a word and a power of ten, each of which is rounded to a double,
and the quotient is rounded to a double and to single precision; none of these roundings goes above
one.  So a confidence that was written and read again is still one, whatever its units are.
-/

namespace TierLineage.Number

namespace Binary

variable {f : Format}

/-- Whether a number lies between zero and one. -/
def InUnit (x : Binary f) : Prop :=
  (ofNat 0 : Binary f).atMost x = true ∧ x.atMost (ofNat 1) = true

instance (x : Binary f) : Decidable x.InUnit :=
  inferInstanceAs (Decidable (_ ∧ _))

theorem one_eq : (ofNat 1 : Single) = finite false (2 ^ 149) := by
  decide +kernel

theorem zero_eq : (ofNat 0 : Single) = finite false 0 := by
  decide +kernel

theorem atMost_finite {s t : Bool} {u v : Nat} :
    (finite s u : Binary f).atMost (finite t v) = true ↔ signed s u ≤ signed t v := by
  simp only [atMost, compare?, Bool.or_eq_true, beq_iff_eq, Option.some.injEq, compare_lt_iff_lt,
    compare_eq_iff_eq]
  exact Int.le_iff_lt_or_eq.symm

/-- A number between zero and one is a zero or a count of units up to that of one. -/
theorem inUnit_iff {x : Single} : x.InUnit ↔
    x = finite true 0 ∨ ∃ u ≤ 2 ^ 149, x = finite false u := by
  rw [InUnit, one_eq, zero_eq]
  cases x with
  | nan => simp [atMost, compare?]
  | infinite s => cases s <;> simp [atMost, compare?]
  | finite s u =>
    rw [atMost_finite, atMost_finite]
    cases s <;> simp [signed]

theorem inUnit_one : (ofNat 1 : Single).InUnit := by
  decide +kernel

theorem InUnit.ne_nan {x : Binary f} (h : x.InUnit) : x ≠ nan := by
  rintro rfl
  cases h.2

theorem InUnit.exists_finite {x : Single} (h : x.InUnit) :
    ∃ negative units, x = .finite negative units := by
  rcases inUnit_iff.mp h with rfl | ⟨u, -, rfl⟩ <;> exact ⟨_, _, rfl⟩

/-- What is clamped to the unit interval lies in it. -/
theorem inUnit_clamp {x : Single} (hx : x ≠ nan) : (x.clamp (ofNat 0) (ofNat 1)).InUnit := by
  rw [clamp, zero_eq, one_eq]
  cases x with
  | nan => exact absurd rfl hx
  | infinite s => cases s <;> decide +kernel
  | finite s u =>
    split
    · exact inUnit_iff.mpr (.inr ⟨0, by simp, rfl⟩)
    · split
      · exact inUnit_iff.mpr (.inr ⟨_, Nat.le_refl _, rfl⟩)
      · next hlow hhigh =>
        rw [InUnit, one_eq, zero_eq, atMost_finite, atMost_finite]
        simp only [less, compare?, beq_iff_eq, Option.some.injEq, compare_lt_iff_lt] at hlow hhigh
        omega

/-! ### Doubles -/

theorem pow_ten_le (p : Nat) : 10 ^ p ≤ 2 ^ (4 * p) := by
  rw [Nat.pow_mul]
  exact Nat.pow_le_pow_left (by decide) p

/-- A natural number that is not too great is a number of a format. -/
theorem ofNat_eq_finite {n k : Nat} (hf : 0 < f.precision) (hk : k + f.scale < f.width)
    (h : n ≤ 2 ^ k) : (ofNat n : Binary f) = finite false (f.nearest (n * 2 ^ f.scale) 1) := by
  have hle : f.nearest (n * 2 ^ f.scale) 1 ≤ 2 ^ (k + f.scale) := by
    refine Format.nearest_le_pow hf ?_
    rw [Nat.one_mul, Nat.pow_add]
    exact Nat.mul_le_mul_right _ h
  have hlt : f.nearest (n * 2 ^ f.scale) 1 < 2 ^ f.width :=
    Nat.lt_of_le_of_lt hle (Nat.pow_lt_pow_right (by decide) hk)
  rw [ofNat, ofRatio, ofUnits]
  simp only [Nat.pow_eq]
  rw [if_pos hlt]

/-- A quotient of units that is not above one is none of a format either. -/
theorem ofUnits_le_one (hf : 0 < f.precision) (hscale : f.scale < f.width) {num den : Nat}
    (h : num ≤ den * 2 ^ f.scale) (s : Bool) : ∃ v ≤ 2 ^ f.scale,
      ofUnits s num den = (finite s v : Binary f) := by
  have hle : f.nearest num den ≤ 2 ^ f.scale := Format.nearest_le_pow hf h
  refine ⟨_, hle, ?_⟩
  rw [ofUnits]
  exact if_pos (Nat.lt_of_le_of_lt hle (Nat.pow_lt_pow_right (by decide) hscale))

/-- A word divided by a power of ten that it does not exceed is the quotient of the two. -/
theorem scaled_eq {n power : Nat} (hpos : 0 < power) (hpower : power ≤ 100) (h : n ≤ 10 ^ power) :
    Json.scaled n (-(power : Int)) = some (finite false (double.quotient n (10 ^ power))) := by
  have hrange : 4 * power + double.scale < double.width := by
    simp only [double]
    omega
  have hne : double.nearest (10 ^ power * 2 ^ double.scale) 1 ≠ 0 :=
    Nat.ne_of_gt (Nat.lt_of_lt_of_le (Nat.two_pow_pos double.scale)
      (Format.pow_le_nearest_whole (by decide) (Nat.pow_pos (by decide))))
  have hwidth : double.quotient n (10 ^ power) < 2 ^ double.width :=
    Nat.lt_of_le_of_lt (Format.quotient_le (by decide) h)
      (Nat.pow_lt_pow_right (by decide) (by decide))
  have hneg : (-(power : Int)) < 0 := by omega
  rw [Json.scaled, if_pos hneg, Int.natAbs_neg, Int.natAbs_natCast, Json.dividedByPower,
    if_pos (Nat.le_trans hpower (by decide)),
    ofNat_eq_finite (by decide) hrange (Nat.le_trans h (pow_ten_le power))]
  simp only [Nat.pow_eq]
  rw [ofNat_eq_finite (by decide) hrange (pow_ten_le power), div, if_neg hne, bne_self_eq_false,
    ofUnits]
  simp only [Nat.pow_eq]
  rw [← Format.quotient, if_pos hwidth]

end Binary

end TierLineage.Number

namespace TierLineage.Json

open TierLineage.Number

/-! ### Numerals -/

theorem le_ofDigitChars (n : Nat) (cs : List Char) : n ≤ Nat.ofDigitChars 10 cs n := by
  induction cs generalizing n with
  | nil => exact Nat.le_refl n
  | cons c cs ih =>
    rw [Nat.ofDigitChars_cons]
    exact Nat.le_trans (by omega) (ih _)

/-- Digits that spell a word are read to their end. -/
theorem leadingWord_of_lt {n : Nat} {cs : List Char}
    (h : Nat.ofDigitChars 10 cs n < 0x10000000000000000) :
    leadingWord n cs = (Nat.ofDigitChars 10 cs n, []) := by
  induction cs generalizing n with
  | nil => rfl
  | cons c cs ih =>
    rw [Nat.ofDigitChars_cons] at h ⊢
    rw [leadingWord, ← ih h]
    exact if_pos (Nat.lt_of_le_of_lt (le_ofDigitChars _ cs) h)

namespace Numeral

section Magnitude

variable {m : Numeral} (h : ofDigits (m.whole ++ m.fraction) < 0x10000000000000000)

include h

/-- Digits that spell a word are read to their end on both sides of the point. -/
theorem leadingWord_parts : leadingWord 0 m.whole = (ofDigits m.whole, []) ∧
    leadingWord (ofDigits m.whole) m.fraction = (ofDigits (m.whole ++ m.fraction), []) := by
  rw [ofDigits_append] at h ⊢
  exact ⟨leadingWord_of_lt (Nat.lt_of_le_of_lt (le_ofDigitChars _ m.fraction) h), leadingWord_of_lt h⟩

/-- A word is scaled by as many places as stand behind the point. -/
theorem magnitude_of_none (hexponent : m.exponent = none) :
    m.magnitude = scaled (ofDigits (m.whole ++ m.fraction)) (-(m.fraction.length : Int)) := by
  obtain ⟨hwhole, hfraction⟩ := leadingWord_parts h
  simp [magnitude, hwhole, hfraction, hexponent]

/-- A word is scaled by the places behind the point and by a negative exponent. -/
theorem magnitude_of_below {ds : List Char} (hexponent : m.exponent = some (true, ds))
    (hds : ofDigits ds ≤ greatestExponent) : m.magnitude =
      scaled (ofDigits (m.whole ++ m.fraction)) (-((m.fraction.length + ofDigits ds : Nat) : Int)) := by
  obtain ⟨hwhole, hfraction⟩ := leadingWord_parts h
  have hpower : -(m.fraction.length : Int) - ofDigits ds =
      -((m.fraction.length + ofDigits ds : Nat) : Int) := by omega
  simp [magnitude, hwhole, hfraction, hexponent, Nat.not_lt.mpr hds, hpower]

end Magnitude

/-- How a decimal fraction that is not above one is written: behind a zero and further zeros, with
its first digit before the point, or with an exponent. -/
theorem ofDecimal_cases {n places : Nat} (s : Bool) (hle : (digitsOf n).length ≤ places + 1) :
    (∃ zeros, zeros + (digitsOf n).length = places ∧ ofDecimal s ⟨n, -(places : Int)⟩ =
      ⟨s, ['0'], List.replicate zeros '0' ++ digitsOf n, none⟩) ∨
    (places = 0 ∧ ofDecimal s ⟨n, -(places : Int)⟩ = ⟨s, (digitsOf n).take 1, ['0'], none⟩) ∨
    (0 < places ∧ (digitsOf n).length = places + 1 ∧ ofDecimal s ⟨n, -(places : Int)⟩ =
      ⟨s, (digitsOf n).take 1, (digitsOf n).drop 1, none⟩) ∨
    ((digitsOf n).length ≤ places ∧ ofDecimal s ⟨n, -(places : Int)⟩ =
      ⟨s, (digitsOf n).take 1, (digitsOf n).drop 1,
        some (true, digitsOf (places + 1 - (digitsOf n).length))⟩) := by
  have hne : (digitsOf n).length ≠ 0 := fun h => digitsOf_ne_nil n (List.length_eq_zero_iff.mp h)
  simp only [ofDecimal]
  by_cases hnear : -5 ≤ -(places : Int) + (digitsOf n).length
  · rw [if_pos ⟨hnear, by omega⟩]
    by_cases hzero : -(places : Int) + (digitsOf n).length ≤ 0
    · refine .inl ⟨places - (digitsOf n).length, by omega, ?_⟩
      simp [Binary.placed, hzero, digitsOf_ne_nil]
      omega
    · -- the first digit is the only one before the point
      have hplace : (-(places : Int) + (digitsOf n).length) = 1 := by omega
      have hnone : 1 - (digitsOf n).length = 0 := by omega
      rw [hplace]
      rcases Nat.eq_zero_or_pos places with hplaces | hplaces
      · have hdrop : (digitsOf n).drop 1 = [] := List.drop_of_length_le (by omega)
        exact .inr (.inl ⟨hplaces, by simp [Binary.placed, hnone, hdrop]⟩)
      · have hdrop : (digitsOf n).drop 1 ≠ [] := fun h => by
          have hlength := List.drop_eq_nil_iff.mp h
          omega
        exact .inr (.inr (.inl ⟨hplaces, by omega, by simp [Binary.placed, hnone, hdrop, -List.drop_one]⟩))
  · have hfar : ¬ (-5 ≤ -(places : Int) + (digitsOf n).length ∧
        -(places : Int) + (digitsOf n).length ≤ 13) := fun h => hnear h.1
    have hbelow : -(places : Int) + (digitsOf n).length - 1 < 0 := by omega
    have habs : (-(places : Int) + (digitsOf n).length - 1).natAbs =
        places + 1 - (digitsOf n).length := by omega
    refine .inr (.inr (.inr ⟨by omega, ?_⟩))
    rw [if_neg hfar, habs, decide_eq_true hbelow]

/-- The numeral of a decimal fraction that is not above one denotes the double that a word divided
by a power of ten is read as, which are the digits and the places, but for one place behind a whole
number. -/
theorem magnitude_ofDecimal {n places : Nat} (s : Bool) (hplaces : places ≤ 61)
    (hle : n ≤ 10 ^ places) (hn : n ≤ 10 ^ 9) : ∃ word power : Nat,
      (ofDecimal s ⟨n, -(places : Int)⟩).magnitude =
        some (Binary.finite false (double.quotient word (10 ^ power))) ∧
      word * 10 ^ places = n * 10 ^ power ∧ word ≤ 10 ^ power ∧ word ≤ 10 ^ 10 ∧
      power ≤ places + 1 := by
  have hlength : (digitsOf n).length ≤ places + 1 :=
    (length_digitsOf_le (Nat.succ_pos _)).mpr
      (Nat.lt_of_le_of_lt hle (Nat.pow_lt_pow_right (by decide) (Nat.lt_succ_self _)))
  have hne : (digitsOf n).length ≠ 0 := fun h => digitsOf_ne_nil n (List.length_eq_zero_iff.mp h)
  have hdigits : ofDigits ((digitsOf n).take 1 ++ (digitsOf n).drop 1) = n := by
    rw [List.take_append_drop, ofDigits_digitsOf]
  rcases ofDecimal_cases s hlength with ⟨zeros, hzeros, heq⟩ | ⟨rfl, heq⟩ | ⟨hpos, hlong, heq⟩ |
      ⟨hshort, heq⟩
  · have hword : ofDigits (['0'] ++ (List.replicate zeros '0' ++ digitsOf n)) = n := by
      rw [ofDigits_append, Nat.ofDigitChars_append, Nat.ofDigitChars_replicate_zero]
      exact ofDigits_digitsOf n
    refine ⟨n, places, ?_, rfl, hle, by omega, by omega⟩
    rw [heq, magnitude_of_none (by rw [hword]; omega) rfl, hword, List.length_append,
      List.length_replicate, hzeros]
    exact Binary.scaled_eq (by omega) (by omega) hle
  · -- without places the number is at most one, which is written with a place all the same
    have htake : (digitsOf n).take 1 = digitsOf n := List.take_of_length_le (by omega)
    have hword : ofDigits ((digitsOf n).take 1 ++ ['0']) = 10 * n := by
      rw [htake, ofDigits_append, ofDigits_digitsOf]
      simp [Nat.ofDigitChars_cons]
    refine ⟨10 * n, 1, ?_, by omega, by omega, by omega, by omega⟩
    rw [heq, magnitude_of_none (by rw [hword]; omega) rfl, hword]
    have hplace : 10 * n ≤ 10 ^ 1 := by omega
    exact Binary.scaled_eq Nat.one_pos (Nat.le_of_ble_eq_true rfl) hplace
  · refine ⟨n, places, ?_, rfl, hle, by omega, by omega⟩
    rw [heq, magnitude_of_none (by rw [hdigits]; omega) rfl, hdigits, List.length_drop]
    have hplace : (digitsOf n).length - 1 = places := by omega
    rw [hplace]
    exact Binary.scaled_eq hpos (by omega) hle
  · have hexponent : ofDigits (digitsOf (places + 1 - (digitsOf n).length)) ≤ greatestExponent := by
      rw [ofDigits_digitsOf, greatestExponent]
      omega
    refine ⟨n, places, ?_, rfl, hle, by omega, by omega⟩
    rw [heq, magnitude_of_below (by rw [hdigits]; omega) rfl hexponent, hdigits, List.length_drop,
      ofDigits_digitsOf]
    have hplace : (digitsOf n).length - 1 + (places + 1 - (digitsOf n).length) = places := by omega
    rw [hplace]
    exact Binary.scaled_eq (by omega) (by omega) hle

end Numeral

/-! ### Confidences -/

/-- The numeral of a decimal fraction that is not above one can stand in a text, and is not that of
an integer. -/
theorem Numeral.clean_of_le {n places : Nat} (s : Bool) (hle : (digitsOf n).length ≤ places + 1) :
    (ofDecimal s ⟨n, -(places : Int)⟩).Clean ∧
      ((ofDecimal s ⟨n, -(places : Int)⟩).fraction.isEmpty &&
        (ofDecimal s ⟨n, -(places : Int)⟩).exponent.isNone) = false := by
  have hne := digitsOf_ne_nil n
  have hsingle : ∀ {cs : List Char}, (cs.take 1).head? = some '0' → cs.take 1 = ['0'] := by
    rintro (_ | ⟨c, cs⟩) h
    · cases h
    · exact congrArg (· :: []) (Option.some.inj h)
  constructor
  · refine clean_ofDecimal fun hhead => ?_
    rcases ofDecimal_cases s hle with ⟨zeros, -, heq⟩ | ⟨-, heq⟩ | ⟨-, -, heq⟩ | ⟨-, heq⟩ <;>
      rw [heq] at hhead ⊢
    · exact hsingle hhead
    · exact hsingle hhead
    · exact hsingle hhead
  · rcases ofDecimal_cases s hle with ⟨zeros, -, heq⟩ | ⟨-, heq⟩ | ⟨hpos, hlong, heq⟩ | ⟨-, heq⟩ <;>
      rw [heq]
    · simp [hne]
    · rfl
    · have hdrop : (digitsOf n).drop 1 ≠ [] := fun h => by
        have hlength := List.drop_eq_nil_iff.mp h
        omega
      simp [hdrop, -List.drop_one]
    · simp

/-- The numeral of a magnitude below one, and what is read from it. -/
theorem single_below_one {u : Nat} (hpos : 0 < u) (hu : u < 2 ^ 149) :
    (Json.single (.finite false u)).Clean ∧ ∃ n places zeros word power : Nat,
      readSingle (Json.single (.finite false u)) =
        .ok (.finite false (Number.single.nearest
          (double.quotient word (10 ^ power) * 2 ^ Number.single.scale) (2 ^ double.scale))) ∧
      Binary.onGrid? Number.single u (-((places + zeros : Nat) : Int)) =
        some ⟨10 ^ zeros * n, -((places + zeros : Nat) : Int)⟩ ∧
      places + zeros ≤ 53 ∧ 0 < n ∧
      word * 10 ^ places = n * 10 ^ power ∧ word ≤ 10 ^ power ∧ word ≤ 10 ^ 10 ∧
      power ≤ places + 1 := by
  obtain ⟨n, places, zeros, htrimmed, hplaces, hfound, hn, hle, hfew⟩ :=
    Binary.trimmed_shortest hpos hu
  have hlength : (digitsOf n).length ≤ places + 1 :=
    (length_digitsOf_le (Nat.succ_pos _)).mpr
      (Nat.lt_of_le_of_lt hle (Nat.pow_lt_pow_right (by decide) (Nat.lt_succ_self _)))
  obtain ⟨hclean, hreal⟩ := Numeral.clean_of_le false hlength
  obtain ⟨word, power, hmagnitude, hvalue, hunit, hshort, hpower⟩ :=
    Numeral.magnitude_ofDecimal false (by omega) hle hfew
  have hsingle : Json.single (.finite false u) = .number (.ofDecimal false ⟨n, -(places : Int)⟩) := by
    rw [Json.single, Numeral.ofSingle?, if_neg (Nat.ne_of_gt hpos), htrimmed]
  have hnegative : (Numeral.ofDecimal false ⟨n, -(places : Int)⟩).negative = false := by
    rw [Numeral.ofDecimal]
    split <;> rfl
  have hwidth : Number.single.nearest
      (double.quotient word (10 ^ power) * 2 ^ Number.single.scale) (2 ^ double.scale) <
        2 ^ Number.single.width :=
    Nat.lt_of_le_of_lt (Format.nearest_le_pow (by decide)
      (Nat.mul_le_mul_right _ (Format.quotient_le (by decide) hunit)))
      (Nat.pow_lt_pow_right (by decide) (by decide))
  rw [hsingle]
  refine ⟨.number hclean, n, places, zeros, word, power, ?_, hfound, hplaces, hn, hvalue, hunit, hshort,
    hpower⟩
  rw [readSingle, quantity?, Numeral.value, hmagnitude]
  simp only [hreal, hnegative, Bool.false_and, Bool.false_eq_true, if_false, Binary.convert,
    Nat.pow_eq, Binary.ofUnits]
  rw [if_pos hwidth]

/-- A number between zero and one can be written, and what is read from its numeral is one again. -/
theorem single_inUnit {x : Single} (hx : x.InUnit) :
    (Json.single x).Clean ∧ ∃ y, readSingle (Json.single x) = .ok y ∧ y.InUnit := by
  rcases Binary.inUnit_iff.mp hx with rfl | ⟨u, hu, rfl⟩
  · exact ⟨.number ⟨by simp, by simp, by simp, by simp, by simp⟩, _, rfl, by decide +kernel⟩
  rcases Nat.eq_zero_or_pos u with rfl | hpos
  · exact ⟨.number ⟨by simp, by simp, by simp, by simp, by simp⟩, _, rfl, by decide +kernel⟩
  rcases Nat.lt_or_eq_of_le hu with hlt | rfl
  · obtain ⟨hclean, n, places, zeros, word, power, hread, -, -, -, -, hunit, -, -⟩ :=
      single_below_one hpos hlt
    refine ⟨hclean, _, hread, Binary.inUnit_iff.mpr (.inr ⟨_, ?_, rfl⟩)⟩
    exact Format.nearest_le_pow (k := Number.single.scale) (by decide)
      (Nat.mul_le_mul_right _ (Format.quotient_le (by decide) hunit))
  · have hone : Numeral.ofSingle? (.finite false (2 ^ 149)) = some ⟨false, ['1'], ['0'], none⟩ := by
      decide +kernel
    rw [Json.single, hone]
    exact ⟨.number ⟨by simp, by simp, by simp, by simp, by simp⟩, .finite false (2 ^ 149),
      by decide +kernel, by decide +kernel⟩

end TierLineage.Json
