import TierLineage.Calendar.Instant

/-!
# Days and dates

Every day number is that of its date, and dates have days that their months have.  An era of four
hundred years that start in March is four centuries of twenty-five spans of four years, of which the
last one of a century has a leap day only at the end of the era.
-/

namespace TierLineage.Calendar

/-- A day of an era lies in a century of it, in a span of four years, and in a year. -/
theorem exists_dayOfEra {d : Nat} (h : d < 146097) : ∃ c a b j : Nat, c < 4 ∧ a < 25 ∧ b < 4 ∧
    d = 36524 * c + 1461 * a + 365 * b + j ∧ (j < 365 ∨ j = 365 ∧ b = 3 ∧ (a = 24 → c = 3)) := by
  obtain ⟨c, r, hc, hr, hd⟩ : ∃ c r, c < 4 ∧ (r < 36524 ∨ r = 36524 ∧ c = 3) ∧
      d = 36524 * c + r := by
    by_cases hlast : d = 146096
    · exact ⟨3, 36524, by omega⟩
    · exact ⟨d / 36524, d % 36524, by omega⟩
  obtain ⟨a, s, ha, hs, hr'⟩ : ∃ a s, a < 25 ∧ s < 1461 ∧ r = 1461 * a + s :=
    ⟨r / 1461, r % 1461, by omega⟩
  by_cases hlast : s = 1460
  · exact ⟨c, a, 3, 365, by omega⟩
  · exact ⟨c, a, s / 365, s % 365, by omega⟩

/-- The year of an era in which a day lies. -/
theorem yearOfEra_eq {c a b j : Nat} (hc : c < 4) (ha : a < 25) (hb : b < 4)
    (hj : j < 365 ∨ j = 365 ∧ b = 3 ∧ (a = 24 → c = 3)) :
    let d := 36524 * c + 1461 * a + 365 * b + j
    (d - d / 1460 + d / 36524 - d / 146096) / 365 = 100 * c + 4 * a + b := by
  intro d
  obtain ⟨e, he, hd⟩ : ∃ e, d / 1460 = 25 * c + a + e ∧ (e = 0 ∧ 24 * c + a + 365 * b + j < 1460 ∨
      e = 1 ∧ 1460 ≤ 24 * c + a + 365 * b + j) := by
    by_cases h : 24 * c + a + 365 * b + j < 1460
    · exact ⟨0, by omega⟩
    · exact ⟨1, by omega⟩
  by_cases hlast : d = 146096
  · omega
  · have hcentury : d / 36524 = c := by omega
    have hera : d / 146096 = 0 := by omega
    rw [he, hcentury, hera]
    omega

/-- The month and the day in which a day of a year lies that starts in March. -/
theorem monthOfYear_spec : ∀ j < 366,
    let mp := (5 * j + 2) / 153
    let month := if mp < 10 then mp + 3 else mp - 9
    let day := j - (153 * mp + 2) / 5 + 1
    (1 ≤ month ∧ month ≤ 12 ∧ (153 * ((month + 9) % 12) + 2) / 5 + day - 1 = j) ∧ 1 ≤ day ∧
      (if month = 2 then day ≤ 28 ∨ day = 29 ∧ j = 365
      else if month = 4 ∨ month = 6 ∨ month = 9 ∨ month = 11 then day ≤ 30 else day ≤ 31) := by
  decide +kernel

theorem fdiv_eq {n m q r : Int} (hr : 0 ≤ r) (hm : r < m) (hn : n = q * m + r) :
    Int.fdiv n m = q := by
  rw [Int.fdiv_eq_ediv_of_nonneg _ (Int.le_of_lt (Int.lt_of_le_of_lt hr hm)), hn, Int.add_comm,
    Int.add_mul_ediv_right _ _ (by omega), Int.ediv_eq_zero_of_lt hr hm, Int.zero_add]

/-- The number of days of the years of an era before a year. -/
theorem daysBefore_eq {c a b : Nat} (ha : a < 25) (hb : b < 4) :
    365 * (100 * c + 4 * a + b) + (100 * c + 4 * a + b) / 4 - (100 * c + 4 * a + b) / 100 =
      36524 * c + 1461 * a + 365 * b := by
  have hquarter : (100 * c + 4 * a + b) / 4 = 25 * c + a := by omega
  have hcentury : (100 * c + 4 * a + b) / 100 = c := by omega
  rw [hquarter, hcentury]
  omega

/-- The date of a day in a year of an era. -/
theorem dateOf_eq {n era : Int} {c a b j : Nat} (hc : c < 4) (ha : a < 25) (hb : b < 4)
    (hj : j < 365 ∨ j = 365 ∧ b = 3 ∧ (a = 24 → c = 3))
    (hn : n + 719468 = era * 146097 + (36524 * c + 1461 * a + 365 * b + j : Nat)) :
    let year : Int := (100 * c + 4 * a + b : Nat) + era * 400
    let mp := (5 * j + 2) / 153
    let month := if mp < 10 then mp + 3 else mp - 9
    dateOf n = (if month ≤ 2 then year + 1 else year, month, j - (153 * mp + 2) / 5 + 1) := by
  have hera : Int.fdiv (n + 719468) 146097 = era := fdiv_eq (by omega) (by omega) hn
  have hday : (n + 719468 - era * 146097).toNat = 36524 * c + 1461 * a + 365 * b + j := by omega
  have hyear := yearOfEra_eq hc ha hb hj
  have hj' : 36524 * c + 1461 * a + 365 * b + j - (36524 * c + 1461 * a + 365 * b) = j :=
    Nat.add_sub_cancel_left _ _
  simp only [dateOf, hera, hday, hyear, daysBefore_eq ha hb, hj']

/-- The day number of a day in a year of an era. -/
theorem dayNumber_eq (era : Int) {c a b j month day : Nat} (hc : c < 4) (ha : a < 25) (hb : b < 4)
    (hday : (153 * ((month + 9) % 12) + 2) / 5 + day - 1 = j) :
    let year : Int := (100 * c + 4 * a + b : Nat) + era * 400
    dayNumber (if month ≤ 2 then year + 1 else year) month day + 719468 =
      era * 146097 + (36524 * c + 1461 * a + 365 * b + j : Nat) := by
  intro year
  have hstart : (if month ≤ 2 then (if month ≤ 2 then year + 1 else year) - 1 else
      if month ≤ 2 then year + 1 else year) = year := by
    split <;> omega
  have hera : Int.fdiv year 400 = era :=
    fdiv_eq (r := (100 * c + 4 * a + b : Nat)) (by omega) (by omega) (Int.add_comm _ _)
  have hyear : (year - era * 400).toNat = 100 * c + 4 * a + b := by omega
  have hdays := daysBefore_eq (c := c) ha hb
  simp only [dayNumber, hstart, hera, hyear, hday]
  omega

/-- A year has a leap day at the end of the one that starts in March before it. -/
theorem isLeapYear_eq {era : Int} {c a : Nat} (ha : a < 25) (h : a = 24 → c = 3) :
    isLeapYear ((100 * c + 4 * a + 3 : Nat) + era * 400 + 1) = true := by
  simp only [isLeapYear, Bool.or_eq_true, Bool.and_eq_true, beq_iff_eq, bne_iff_ne]
  omega

/-- Every day number is that of its date, which has a day that its month has. -/
theorem dateOf_spec (n : Int) : ∃ year month day, dateOf n = (year, month, day) ∧
    dayNumber year month day = n ∧ 1 ≤ month ∧ month ≤ 12 ∧ 1 ≤ day ∧ day ≤ daysIn year month := by
  obtain ⟨era, d, hd, hn⟩ : ∃ (era : Int) (d : Nat), d < 146097 ∧ n + 719468 = era * 146097 + d :=
    ⟨(n + 719468) / 146097, ((n + 719468) % 146097).toNat, by omega⟩
  obtain ⟨c, a, b, j, hc, ha, hb, rfl, hj⟩ := exists_dayOfEra hd
  have hdate := dateOf_eq hc ha hb hj hn
  obtain ⟨⟨hm, hm', hday⟩, hpos, hlen⟩ := monthOfYear_spec j (by omega)
  dsimp only at hdate hm hm' hday hpos hlen
  generalize (if (5 * j + 2) / 153 < 10 then (5 * j + 2) / 153 + 3 else (5 * j + 2) / 153 - 9) =
    month at hdate hm hm' hday hpos hlen
  generalize j - (153 * ((5 * j + 2) / 153) + 2) / 5 + 1 = day at hdate hday hpos hlen
  refine ⟨_, _, _, hdate, ?_, hm, hm', hpos, ?_⟩
  · have hnumber := dayNumber_eq era hc ha hb hday
    dsimp only at hnumber
    omega
  · rw [daysIn]
    split at hlen
    · next hfeb =>
      have hleap : day = 29 → isLeapYear ((100 * c + 4 * a + b : Nat) + era * 400 + 1) = true := by
        intro hlast
        obtain ⟨rfl, h⟩ : b = 3 ∧ (a = 24 → c = 3) := by omega
        exact isLeapYear_eq ha h
      subst hfeb
      rw [if_pos rfl, if_pos (Nat.le_refl 2)]
      rcases hlen with h | ⟨h, -⟩
      · split <;> omega
      · rw [if_pos (hleap h)]
        omega
    · next hfeb =>
      rw [if_neg hfeb]
      split at hlen
      · next h =>
        rw [if_pos h]
        exact hlen
      · next h =>
        rw [if_neg h]
        exact hlen

end TierLineage.Calendar
