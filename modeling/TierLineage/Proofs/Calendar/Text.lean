import TierLineage.Proofs.Calendar.Days

/-!
# Moments are read back

A moment in a year that dates can have is read back from its text.  Every part of the text is read
by its own reader, which stops where the next part starts.
-/

namespace TierLineage.Calendar

open TierLineage.Number TierLineage.Text

/-! ### Padded numbers -/

theorem isBlank_of_isDigit {c : Char} (h : c.isDigit = true) : isBlank c = false := by
  have hc : 48 ≤ c.toNat ∧ c.toNat ≤ 57 := by
    simpa [Char.isDigit, UInt32.le_iff_toNat_le] using h
  have hne : c ≠ ' ' := by
    rintro rfl
    exact absurd hc.1 (by decide)
  rw [isBlank, byTable_ascii (by omega), isAsciiBlank]
  simp [hne]
  omega

theorem isDigit_of_mem_padded {width n : Nat} {c : Char} (h : c ∈ padded width n) :
    c.isDigit = true := by
  rcases List.mem_append.mp h with hzero | hdigit
  · rw [List.eq_of_mem_replicate hzero]
    rfl
  · exact Nat.isDigit_of_mem_toDigits (by decide) (by decide) hdigit

theorem padded_ne_nil (width n : Nat) : padded width n ≠ [] := by
  simp [padded, digitsOf]

theorem length_padded {width n : Nat} (hw : 0 < width) (h : n < Nat.pow 10 width) :
    (padded width n).length = width := by
  have hlen : (digitsOf n).length ≤ width := (Nat.length_toDigits_le_iff (by decide) hw).mpr h
  simp [padded]
  omega

theorem ofDigits_padded (width n : Nat) : ofDigits (padded width n) = n := by
  have heq : ofDigits (padded width n) = Nat.ofDigitChars 10 (padded width n) 0 := rfl
  rw [heq, padded, Nat.ofDigitChars_append, Nat.ofDigitChars_replicate_zero, digitsOf, Nat.mul_zero,
    Nat.ofDigitChars_ten_toDigits]

/-! ### Readers of parts -/

/-- What stands behind a number. -/
def Ends (rest : List Char) : Prop :=
  ∀ c ∈ rest.head?, c.isDigit = false

theorem takeWhile_padded {width n : Nat} {rest : List Char} (h : Ends rest) :
    (padded width n ++ rest).takeWhile Char.isDigit = padded width n := by
  rw [List.takeWhile_append_of_pos fun c hc => isDigit_of_mem_padded hc]
  cases rest with
  | nil => simp
  | cons c cs => simp [h c rfl]

theorem head_padded {width n : Nat} {rest cs : List Char} {c : Char}
    (h : padded width n ++ rest = c :: cs) : c.isDigit = true := by
  cases hp : padded width n with
  | nil => exact absurd hp (padded_ne_nil width n)
  | cons d ds =>
    rw [hp, List.cons_append] at h
    obtain rfl := (List.cons.inj h).1
    exact isDigit_of_mem_padded (by rw [hp]; exact List.mem_cons_self ..)

theorem trimStartBy_cons {c : Char} (h : isBlank c = false) (rest : List Char) :
    trimStartBy isBlank (c :: rest) = c :: rest := by
  simp [trimStartBy, h]

theorem trimStartBy_padded (width n : Nat) (rest : List Char) :
    trimStartBy isBlank (padded width n ++ rest) = padded width n ++ rest := by
  cases h : padded width n ++ rest with
  | nil => rfl
  | cons c cs => exact trimStartBy_cons (isBlank_of_isDigit (head_padded h)) cs

/-- A number is read up to its end. -/
theorem number?_padded {width limit n : Nat} {rest : List Char}
    (hlimit : (padded width n).length ≤ limit) (h : Ends rest) :
    number? limit (padded width n ++ rest) = some (n, rest) := by
  have hends : Ends (rest.take (limit - (padded width n).length)) := by
    cases limit - (padded width n).length with
    | zero => simp [Ends]
    | succ k =>
      cases rest with
      | nil => exact h
      | cons c cs => exact h
  rw [number?, List.take_append, List.take_of_length_le hlimit, takeWhile_padded hends]
  simp [padded_ne_nil, ofDigits_padded]

theorem field?_padded {width n : Nat} {rest : List Char} (hw : 0 < width)
    (hn : n < Nat.pow 10 width) (h : Ends rest) :
    field? width (padded width n ++ rest) = some (n, rest) := by
  rw [field?, trimStartBy_padded]
  exact number?_padded (Nat.le_of_eq (length_padded hw hn)) h

theorem mark?_cons {c : Char} {rest : List Char} (h : isBlank c = false) :
    mark? c (c :: rest) = some rest := by
  simp [mark?, trimStartBy_cons h, after?]

/-- A year without sign. -/
theorem year?_padded {n : Nat} {rest : List Char} (hn : n < 10000) (h : Ends rest) :
    year? (padded 4 n ++ rest) = some ((n : Int), rest) := by
  have hnumber : number? 4 (padded 4 n ++ rest) = some (n, rest) :=
    number?_padded (Nat.le_of_eq (length_padded (by decide) hn)) h
  rw [year?, trimStartBy_padded]
  split
  · next hp => exact absurd (head_padded hp) (by decide)
  · next hp => exact absurd (head_padded hp) (by decide)
  · rw [hnumber]
    rfl

theorem year?_yearText {year : Int} {rest : List Char} (h : Ends rest) :
    year? (yearText year ++ rest) = some (year, rest) := by
  rw [yearText]
  split
  · next hyear =>
    rw [year?_padded (by omega) h, Int.toNat_of_nonneg hyear.1]
  · have hnumber : number? (padded 4 year.natAbs ++ rest).length (padded 4 year.natAbs ++ rest) =
        some (year.natAbs, rest) :=
      number?_padded (by simp) h
    by_cases hneg : year < 0
    · rw [if_pos hneg, List.cons_append, year?, trimStartBy_cons rfl]
      simp only [hnumber, Option.map_some]
      rw [show (-(year.natAbs : Int)) = year by omega]
    · rw [if_neg hneg, List.cons_append, year?, trimStartBy_cons rfl]
      simp only [hnumber, Option.map_some]
      rw [show (year.natAbs : Int) = year by omega]

/-- A fraction of a second with as many digits as its unit leaves. -/
theorem fraction?_padded {width unit nano : Nat} (hw : 0 < width ∧ width ≤ 9)
    (hunit : Nat.pow 10 (9 - width) = unit) (hsecond : unit * Nat.pow 10 width = 1000000000)
    (hdvd : nano % unit = 0) (h : nano < 1000000000) :
    fraction? ('.' :: padded width (nano / unit) ++ ['Z']) = some (nano, ['Z']) := by
  have hn : nano / unit < Nat.pow 10 width := Nat.div_lt_of_lt_mul (by rwa [hsecond])
  have hlen := length_padded hw.1 hn
  have htake : (padded width (nano / unit)).take 9 = padded width (nano / unit) :=
    List.take_of_length_le (by omega)
  have hends : Ends ['Z'] := by simp [Ends]
  simp only [List.cons_append, fraction?, takeWhile_padded hends, htake, hlen, ofDigits_padded,
    List.drop_left' hlen, hunit, Nat.div_mul_cancel (Nat.dvd_of_mod_eq_zero hdvd)]
  rw [if_neg (by simp [padded_ne_nil])]

theorem fraction?_fractionText {nano : Nat} (h : nano < 1000000000) :
    fraction? (fractionText nano ++ ['Z']) = some (nano, ['Z']) := by
  rw [fractionText]
  split
  · next hzero =>
    rw [hzero]
    rfl
  · split
    · next hmillis => exact fraction?_padded (by decide) rfl rfl hmillis h
    · split
      · next hmicros => exact fraction?_padded (by decide) rfl rfl hmicros h
      · have hnanos : fraction? ('.' :: padded 9 (nano / 1) ++ ['Z']) = some (nano, ['Z']) :=
          fraction?_padded (by decide) rfl rfl (Nat.mod_one nano) h
        rwa [Nat.div_one] at hnanos

/-! ### Moments -/

theorem ends_cons {c : Char} (h : c.isDigit = false) (rest : List Char) : Ends (c :: rest) := by
  rintro d ⟨⟩
  exact h

theorem ends_fractionText (nano : Nat) : Ends (fractionText nano ++ ['Z']) := by
  rw [fractionText]
  repeat' split
  all_goals exact ends_cons rfl _

/-- A date and a time are read from their parts. -/
theorem instant?_parts {year : Int} {month day hour minute second nano : Nat}
    (hyear : ¬(year < -262143 ∨ 262142 < year))
    (hdate : ¬(month = 0 ∨ 12 < month ∨ day = 0 ∨ daysIn year month < day))
    (htime : ¬(23 < hour ∨ 59 < minute ∨ 60 < second)) (hnano : nano < 1000000000) :
    instant? (yearText year ++ '-' :: padded 2 month ++ '-' :: padded 2 day ++ 'T' ::
      padded 2 hour ++ ':' :: padded 2 minute ++ ':' :: padded 2 second ++ fractionText nano ++
      ['Z']) = some ⟨dayNumber year month day * 86400 +
        (hour * 3600 + minute * 60 + (if second = 60 then 59 else second : Nat) : Nat),
        if second = 60 then nano + 1000000000 else nano⟩ := by
  have hlen : daysIn year month ≤ 31 := by
    rw [daysIn]
    repeat' split
    all_goals decide
  have hfield : ∀ {n : Nat} {rest : List Char}, n ≤ 60 → Ends rest →
      field? 2 (padded 2 n ++ rest) = some (n, rest) := fun hn h =>
    field?_padded (by decide) (Nat.lt_of_le_of_lt hn (by decide)) h
  have hyear' : ∀ rest, year? (yearText year ++ '-' :: rest) = some (year, '-' :: rest) :=
    fun _ => year?_yearText (ends_cons rfl _)
  have hmonth : ∀ rest, field? 2 (padded 2 month ++ '-' :: rest) = some (month, '-' :: rest) :=
    fun _ => hfield (by omega) (ends_cons rfl _)
  have hday : ∀ rest, field? 2 (padded 2 day ++ 'T' :: rest) = some (day, 'T' :: rest) :=
    fun _ => hfield (by omega) (ends_cons rfl _)
  have hhour : ∀ rest, field? 2 (padded 2 hour ++ ':' :: rest) = some (hour, ':' :: rest) :=
    fun _ => hfield (by omega) (ends_cons rfl _)
  have hminute : ∀ rest, field? 2 (padded 2 minute ++ ':' :: rest) = some (minute, ':' :: rest) :=
    fun _ => hfield (by omega) (ends_cons rfl _)
  have hsecond := hfield (by omega : second ≤ 60) (ends_fractionText nano)
  have hdash : ∀ rest, mark? '-' ('-' :: rest) = some rest := fun _ => mark?_cons rfl
  have hcolon : ∀ rest, mark? ':' (':' :: rest) = some rest := fun _ => mark?_cons rfl
  have hoffset : offset? ['Z'] = some (0, []) := by decide +kernel
  simp only [List.append_assoc, List.cons_append, instant?, bind, Option.bind, hyear', hmonth, hday,
    hhour, hminute, hsecond, hdash, hcolon, fraction?_fractionText hnano, hoffset]
  have hnil : ¬(!(trimStartBy isBlank []).isEmpty) = true := by decide
  rw [if_pos (.inr (.inl trivial)), if_neg hnil, if_neg hyear, if_neg hdate, if_neg htime]
  split <;> simp

end TierLineage.Calendar

namespace TierLineage

open TierLineage.Calendar

/-- Whether a moment lies in a year that dates can have, and in a second of its minute or in a leap
second after it. -/
structure Instant.Valid (t : Instant) : Prop where
  year_ge : -262143 ≤ (dateOf (Int.fdiv t.second 86400)).1
  year_le : (dateOf (Int.fdiv t.second 86400)).1 ≤ 262142
  nano_lt : t.nano < 1000000000 ∨ t.nano < 2000000000 ∧ t.second % 60 = 59

/-- The start of 1970 is such a moment. -/
theorem Instant.valid_zero : Instant.Valid ⟨0, 0⟩ :=
  ⟨by decide +kernel, by decide +kernel, .inl (by decide)⟩

/-- A moment is read back from its text. -/
theorem Instant.parse?_text {t : Instant} (h : t.Valid) : Instant.parse? t.text = some t := by
  obtain ⟨second, nano⟩ := t
  obtain ⟨hge, hle, hnano⟩ := h
  obtain ⟨year, month, day, hdate, hnumber, hm, hm', hd, hd'⟩ := dateOf_spec (Int.fdiv second 86400)
  simp only [hdate] at hge hle hnano
  obtain ⟨inDay, hlt, hmod, hsecond⟩ : ∃ inDay : Nat, inDay < 86400 ∧
      (Int.fmod second 86400).toNat = inDay ∧ second = Int.fdiv second 86400 * 86400 + inDay := by
    refine ⟨_, ?_, rfl, ?_⟩ <;>
      rw [Int.fmod_eq_emod_of_nonneg _ (by decide)]
    · omega
    · rw [Int.fdiv_eq_ediv_of_nonneg _ (by decide)]
      omega
  simp only [Instant.parse?, Instant.text, String.toList_ofList, instantText, hdate, hmod]
  split
  · next hleap =>
    have hlast : inDay % 60 = 59 := by omega
    rw [instant?_parts (by omega) (by omega) (by omega) (by omega), hnumber, if_pos (by omega),
      if_pos (by omega)]
    congr 2
    · omega
    · omega
  · next hleap =>
    rw [instant?_parts (by omega) (by omega) (by omega) (by omega), hnumber, if_neg (by omega),
      if_neg (by omega)]
    congr 2
    omega

end TierLineage
