import TierLineage.Text.Alphanumeric
import TierLineage.Text.LetterCase

/-!
# Letters

Whatever is lower case is alphabetic, so a character that is neither a letter nor a digit has no case.  The
small ASCII letters and their capitals are what they look like by every one of the Unicode properties, and
a capital in lower case is the letter it comes from.
-/

namespace TierLineage.Text

variable {c : Char}

/-! ### Runs inside runs -/

section Runs

variable {n : Nat} {r s : Run} {runs others : List Run}

/-- Whether a run lies inside one that leaves nothing out. -/
def Run.inside (r s : Run) : Bool :=
  s.step == 1 && decide (s.first ≤ r.first) && decide (r.last ≤ s.last)

theorem Run.has_of_inside (h : r.inside s = true) (hn : r.has n = true) : s.has n = true := by
  simp only [Run.inside, Run.has, Bool.and_eq_true, beq_iff_eq, decide_eq_true_eq] at h hn ⊢
  obtain ⟨⟨hstep, hfirst⟩, hlast⟩ := h
  exact ⟨⟨by omega, by omega⟩, by rw [hstep, Nat.mod_one]⟩

/-- Runs without those at the front that lie inside one of the others, which are tried in their order. -/
def swept (runs others : List Run) : List Run :=
  others.foldl (fun rest s => rest.dropWhile fun r => r.inside s) runs

theorem exists_inside_of_swept (h : swept runs others = []) (hr : r ∈ runs) :
    ∃ s ∈ others, r.inside s = true := by
  induction others generalizing runs with
  | nil =>
    obtain rfl : runs = [] := h
    cases hr
  | cons s others ih =>
    rw [← List.takeWhile_append_dropWhile (p := fun r => r.inside s) (l := runs), List.mem_append] at hr
    rcases hr with hr | hr
    · exact ⟨s, List.mem_cons_self, List.all_eq_true.mp List.all_takeWhile r hr⟩
    · obtain ⟨t, ht, hinside⟩ := ih h hr
      exact ⟨t, List.mem_cons_of_mem s ht, hinside⟩

/-- Runs of which nothing is left cover only what the others cover. -/
theorem covered_of_swept (h : swept runs others = []) (hn : covered runs n = true) :
    covered others n = true := by
  rw [covered, List.any_eq_true] at hn ⊢
  obtain ⟨r, hr, hn⟩ := hn
  obtain ⟨s, hs, hinside⟩ := exists_inside_of_swept h hr
  exact ⟨s, hs, Run.has_of_inside hinside hn⟩

end Runs

/-! ### Case and alphabet -/

theorem swept_lowercaseRuns : swept lowercaseRuns alphanumericRuns = [] := by
  decide +kernel

theorem isAlphanumeric_of_isLowercase (h : isLowercase c = true) : isAlphanumeric c = true := by
  by_cases hc : c.toNat < 0x80
  · rw [isLowercase, byTable_ascii hc] at h
    have hsmall : c.isAlphanum = ((c.isUpper || c.isLower) || c.isDigit) := rfl
    rw [isAlphanumeric, byTable_ascii hc, hsmall, h, Bool.or_true, Bool.true_or]
  · rw [isLowercase, byTable, if_neg hc] at h
    rw [isAlphanumeric, byTable, if_neg hc]
    exact covered_of_swept swept_lowercaseRuns h

theorem isLowercase_of_separator (h : isAlphanumeric c = false) : isLowercase c = false := by
  rw [Bool.eq_false_iff]
  intro hc
  rw [isAlphanumeric_of_isLowercase hc] at h
  cases h

/-! ### Small letters -/

/-- What holds of the twenty-six small letters holds of every one of them. -/
theorem of_isLower {P : Char → Prop} (hall : ∀ n < 26, P (Char.ofNat (97 + n)))
    (h : c.isLower = true) : P c := by
  have hval : (decide (97 ≤ c.val) && decide (c.val ≤ 122)) = true := h
  have hc : 97 ≤ c.toNat ∧ c.toNat ≤ 122 := by
    simpa [UInt32.le_iff_toNat_le] using hval
  have hn := hall (c.toNat - 97) (by omega)
  rwa [Nat.add_sub_cancel' hc.1, Char.ofNat_toNat] at hn

theorem small_spec (h : c.isLower = true) : isAlphanumeric c = true ∧ isLowercase c = true ∧
    isUppercase c = false ∧ c.toLower = c ∧ c.toNat < 0x80 :=
  of_isLower (P := fun c => isAlphanumeric c = true ∧ isLowercase c = true ∧
    isUppercase c = false ∧ c.toLower = c ∧ c.toNat < 0x80) (by decide) h

theorem capital_spec (h : c.isLower = true) : isAlphanumeric c.toUpper = true ∧
    isUppercase c.toUpper = true ∧ isLowercase c.toUpper = false ∧ c.toUpper.isDigit = false ∧
    c.toUpper.toLower = c ∧ c.toUpper.toNat < 0x80 :=
  of_isLower (P := fun c => isAlphanumeric c.toUpper = true ∧
    isUppercase c.toUpper = true ∧ isLowercase c.toUpper = false ∧ c.toUpper.isDigit = false ∧
    c.toUpper.toLower = c ∧ c.toUpper.toNat < 0x80) (by decide) h

/-- ASCII texts are put into lower case character by character. -/
theorem lowercase_of_ascii {cs : List Char} (h : ∀ c ∈ cs, c.toNat < 0x80) :
    lowercase cs = cs.map Char.toLower := by
  have hafter : ∀ before, lowerAfter before cs = cs.map Char.toLower := by
    induction cs with
    | nil => exact fun _ => rfl
    | cons c cs ih =>
      intro before
      obtain ⟨hc, hcs⟩ := List.forall_mem_cons.mp h
      have hsigma : c.toNat ≠ 0x3A3 := by omega
      rw [lowerAfter, if_neg hsigma, lowerChar, if_pos hc, ih hcs, List.map_cons, List.singleton_append]
  exact hafter []

end TierLineage.Text
