import Mathlib.Data.List.Perm.Subperm
import TierLineage.Proofs.Mapping.Rankings
import TierLineage.Proofs.Matching.Distance
import TierLineage.Proofs.Matching.Words
import TierLineage.Proofs.Number.UnitInterval

/-!
# Scores of names

The words that two lists have in common are the same seen from either, and so are the edits between two
texts; hence a score does not depend on which name comes first.  Both parts of a score are quotients of
counts of which the first is not above the second, and the second is not zero where there are words at
all.  So they are numbers between zero and one, their weighted mean is a number, and clamping keeps it
below one.  Only names with the same words score one.
-/

namespace TierLineage.Matching

open TierLineage.Number TierLineage.Text

/-! ### Words in common -/

section Common

variable {α : Type} [BEq α] {as bs : List α}

/-- The number of entries of one list that another one has as well. -/
def commonCount (as bs : List α) : Nat :=
  (as.filter bs.contains).length

theorem commonCount_le (as bs : List α) : commonCount as bs ≤ as.length :=
  List.length_filter_le _ _

variable [LawfulBEq α]

theorem nodup_eraseDups (as : List α) : as.eraseDups.Nodup := by
  match as with
  | [] => exact List.nodup_nil
  | a :: as =>
    rw [List.eraseDups_cons, List.nodup_cons, List.mem_eraseDups]
    refine ⟨fun h => ?_, nodup_eraseDups _⟩
    simpa using (List.mem_filter.mp h).2
termination_by as.length
decreasing_by exact Nat.lt_succ_of_le (List.length_filter_le _ _)

theorem length_eraseDups_le (as : List α) : as.eraseDups.length ≤ as.length :=
  (List.subperm_of_subset (nodup_eraseDups as) fun _ => List.mem_eraseDups.mp).length_le

/-- Lists without duplicates have the same entries in common, seen from either. -/
theorem commonCount_comm (ha : as.Nodup) (hb : bs.Nodup) : commonCount as bs = commonCount bs as := by
  refine ((List.perm_ext_iff_of_nodup (ha.filter _) (hb.filter _)).mpr fun x => ?_).length_eq
  rw [List.mem_filter, List.mem_filter, List.contains_iff_mem, List.contains_iff_mem, and_comm]

end Common

theorem wordShare_eq (a b : List Word) : wordShare a b =
    (Binary.ofNat (commonCount a.eraseDups b.eraseDups)).div (Binary.ofNat
      (a.eraseDups.length + b.eraseDups.length - commonCount a.eraseDups b.eraseDups)) := rfl

/-! ### Symmetry -/

theorem wordShare_comm (a b : List Word) : wordShare a b = wordShare b a := by
  rw [wordShare_eq, wordShare_eq, commonCount_comm (nodup_eraseDups a) (nodup_eraseDups b),
    Nat.add_comm]

theorem editShare_comm (s t : List Char) : editShare s t = editShare t s := by
  rw [editShare, editShare, Nat.max_comm, editDistance_comm]

theorem scoreWords_comm (a b : List Word) : scoreWords a b = scoreWords b a := by
  rw [scoreWords, scoreWords, wordShare_comm, editShare_comm, Bool.or_comm]
  simp only [eq_comm]

/-! ### Numbers between zero and one -/

/-- Whether a number lies between zero and one and has no sign. -/
def IsShare (x : Single) : Prop :=
  ∃ u ≤ 2 ^ single.scale, x = .finite false u

theorem isShare_one : IsShare (Binary.ofNat 1) :=
  ⟨_, Nat.le_refl _, Binary.one_eq⟩

theorem isShare_ofUnits {num den : Nat} (h : num ≤ den * 2 ^ single.scale) :
    IsShare (Binary.ofUnits false num den) :=
  Binary.ofUnits_le_one (by decide) (by decide) h false

theorem isShare_ofRatio {num den : Nat} (h : num ≤ den) : IsShare (Binary.ofRatio num den) :=
  isShare_ofUnits (Nat.mul_le_mul_right _ h)

/-- The quotient of two counts, of which the first is not above the second, is a share. -/
theorem isShare_div {m n : Nat} (h : m ≤ n) (hn : 0 < n) (hrange : n ≤ 2 ^ 127) :
    IsShare ((Binary.ofNat m).div (Binary.ofNat n)) := by
  have hmono : single.nearest (m * 2 ^ single.scale) 1 ≤ single.nearest (n * 2 ^ single.scale) 1 :=
    Format.nearest_mono (by decide) (by decide) (Nat.mul_le_mul_right _ h)
  have hne : single.nearest (n * 2 ^ single.scale) 1 ≠ 0 := by
    refine Nat.ne_of_gt (Nat.lt_of_lt_of_le (Nat.pow_pos (by decide) : 0 < 2 ^ single.scale) ?_)
    refine Format.pow_le_nearest (by decide) (by decide) ?_
    rw [Nat.one_mul]
    exact Nat.le_mul_of_pos_left _ hn
  rw [Binary.ofNat_eq_finite (by decide) (by decide) (Nat.le_trans h hrange),
    Binary.ofNat_eq_finite (by decide) (by decide) hrange]
  rw [Binary.div, if_neg hne, bne_self_eq_false, Nat.pow_eq]
  exact isShare_ofUnits (Nat.mul_le_mul_right _ hmono)

/-- One less a share is a share. -/
theorem isShare_one_sub {x : Single} (h : IsShare x) : IsShare ((Binary.ofNat 1).sub x) := by
  obtain ⟨u, hu, rfl⟩ := h
  have hone : (Binary.ofNat 1 : Single) = .finite false (2 ^ single.scale) := Binary.one_eq
  rw [hone, Binary.sub, Binary.negate, Binary.add]
  simp only [Binary.signed, Bool.not_false, Bool.false_eq_true, if_false, if_true, Bool.false_and]
  split
  · exact ⟨0, Nat.zero_le _, rfl⟩
  · have hnonneg : ¬((2 ^ single.scale : Nat) : Int) + -(u : Int) < 0 := by omega
    rw [decide_eq_false hnonneg]
    exact isShare_ofUnits (by omega)

theorem isShare_mul {x y : Single} (hx : IsShare x) (hy : IsShare y) : IsShare (x.mul y) := by
  obtain ⟨u, hu, rfl⟩ := hx
  obtain ⟨v, hv, rfl⟩ := hy
  have hproduct : u * v ≤ Nat.pow 2 single.scale * 2 ^ single.scale := Nat.mul_le_mul hu hv
  rw [Binary.mul]
  exact isShare_ofUnits hproduct

/-- The sum of two shares is a number. -/
theorem add_ne_nan_of_isShare {x y : Single} (hx : IsShare x) (hy : IsShare y) : x.add y ≠ .nan := by
  obtain ⟨u, -, rfl⟩ := hx
  obtain ⟨v, -, rfl⟩ := hy
  rw [Binary.add]
  split
  · simp
  · rw [Binary.ofUnits]
    split <;> simp

/-! ### The parts of a score -/

/-- The share of words in common is a number between zero and one where there are words. -/
theorem isShare_wordShare {a b : List Word} (ha : a ≠ []) (hrange : a.length + b.length ≤ 2 ^ 127) :
    IsShare (wordShare a b) := by
  have hleft := commonCount_le a.eraseDups b.eraseDups
  have hright := commonCount_le b.eraseDups a.eraseDups
  rw [← commonCount_comm (nodup_eraseDups a) (nodup_eraseDups b)] at hright
  have hpos : 0 < a.eraseDups.length := by
    obtain ⟨w, hw⟩ := List.exists_mem_of_ne_nil a ha
    exact List.length_pos_of_mem (List.mem_eraseDups.mpr hw)
  have hlengths := Nat.add_le_add (length_eraseDups_le a) (length_eraseDups_le b)
  rw [wordShare_eq]
  exact isShare_div (by omega) (by omega) (by omega)

theorem isShare_editShare {s t : List Char} (hrange : max s.length t.length ≤ 2 ^ 127) :
    IsShare (editShare s t) := by
  simp only [editShare]
  split
  · exact isShare_one
  · next hlongest =>
    exact isShare_one_sub (isShare_div (editDistance_le s t) (Nat.pos_of_ne_zero hlongest) hrange)

/-- What is clamped to two numbers, the first not above the second, lies between them. -/
theorem clamp_between {f : Format} {x low high : Binary f} (hx : x ≠ .nan)
    (hbounds : low.atMost high = true) : x.clamp low high ≠ .nan ∧
      low.atMost (x.clamp low high) = true ∧ (x.clamp low high).atMost high = true := by
  obtain ⟨hlow, hhigh⟩ := Binary.ne_nan_of_atMost hbounds
  have hself : ∀ {y : Binary f}, y ≠ .nan → y.atMost y = true := fun hy =>
    (Binary.atMost_iff hy hy).mpr (le_refl _)
  rcases x.clamp_cases low high with h | h | ⟨h, hbelow, habove⟩ <;> rw [h]
  · exact ⟨hlow, hself hlow, hbounds⟩
  · exact ⟨hhigh, hbounds, hself hhigh⟩
  · exact ⟨hx, (Binary.not_less_iff hx hlow).mp hbelow, (Binary.not_less_iff hhigh hx).mp habove⟩

/-- Names score one only if they have the same words. -/
theorem scoreWords_eq_one_iff {a b : List Word} : scoreWords a b = Binary.ofNat 1 ↔ a = b := by
  refine ⟨fun h => ?_, fun h => if_pos h⟩
  by_contra hne
  rw [scoreWords, if_neg hne] at h
  have hzero : (Binary.ofNat 0 : Single) ≠ Binary.ofNat 1 := by decide +kernel
  split at h
  · exact hzero h
  · rcases Binary.clamp_cases _ (Binary.ofNat 0) greatestPartial with hx | hx | ⟨hx, -, hhigh⟩
    · exact hzero (hx.symm.trans h)
    · exact absurd (hx.symm.trans h) (by decide +kernel)
    · rw [← hx, h] at hhigh
      exact absurd hhigh (by decide +kernel)

/-- Names with different words score between zero and the greatest score of such names, if their words
can be counted. -/
theorem scoreWords_between {a b : List Word} (hne : a ≠ b) (hwords : a.length + b.length ≤ 2 ^ 127)
    (hchars : max (joined [' '] a).length (joined [' '] b).length ≤ 2 ^ 127) :
    scoreWords a b ≠ .nan ∧ (Binary.ofNat 0 : Single).atMost (scoreWords a b) = true ∧
      (scoreWords a b).atMost greatestPartial = true := by
  have hbounds : (Binary.ofNat 0 : Single).atMost greatestPartial = true := by decide +kernel
  rw [scoreWords, if_neg hne]
  split
  · exact ⟨by decide +kernel, by decide +kernel, hbounds⟩
  · next hempty =>
    rw [Bool.or_eq_true, not_or, List.isEmpty_iff, List.isEmpty_iff] at hempty
    have hwordWeight : IsShare wordWeight := isShare_ofRatio (by decide : 7 ≤ 10)
    have heditWeight : IsShare editWeight := isShare_ofRatio (by decide : 3 ≤ 10)
    exact clamp_between (add_ne_nan_of_isShare
      (isShare_mul hwordWeight (isShare_wordShare hempty.1 hwords))
      (isShare_mul heditWeight (isShare_editShare hchars))) hbounds

/-! ### Names -/

/-- **Scores of names.**  A score does not depend on which name comes first.  It is one exactly if the
names have the same words.  In every other case it is a number between zero and `0.99`.  That the names
are texts of an address space of 64 bits only says that their words and edits can be counted in single
precision, which ends near `2 ^ 128`. -/
theorem scoreNames_spec (a b : String) : scoreNames a b = scoreNames b a ∧
    (scoreNames a b = Binary.ofNat 1 ↔ normalizeString a = normalizeString b) ∧
    (normalizeString a ≠ normalizeString b → a.length < 2 ^ 64 → b.length < 2 ^ 64 →
      scoreNames a b ≠ .nan ∧ (Binary.ofNat 0 : Single).atMost (scoreNames a b) = true ∧
        (scoreNames a b).atMost greatestPartial = true) := by
  refine ⟨scoreWords_comm _ _, scoreWords_eq_one_iff, fun hne ha hb => ?_⟩
  have hextent : ∀ {s : String}, s.length < 2 ^ 64 → extent (normalizeString s) ≤ 2 ^ 66 := by
    intro s hs
    have h := extent_normalize_le s.toList
    rw [String.length_toList] at h
    rw [normalizeString]
    omega
  refine scoreWords_between hne ?_ ?_
  · have hwords := Nat.add_le_add (length_le_extent (normalizeString a))
      (length_le_extent (normalizeString b))
    have hextents := Nat.add_le_add (hextent ha) (hextent hb)
    omega
  · have hlonger := max_le ((length_joined_le (normalizeString a)).trans (hextent ha))
      ((length_joined_le (normalizeString b)).trans (hextent hb))
    exact hlonger.trans (by decide)

/-- A name that has one of two words of another one. -/
theorem scoreNames_customer :
    normalizeString "customer_raw" ≠ normalizeString "Customers" ∧
    scoreNames "customer_raw" "Customers" = scoreNames "Customers" "customer_raw" ∧
    scoreNames "customer_raw" "Customers" ≠ Binary.ofNat 1 ∧
    scoreNames "customer_raw" "Customers" ≠ .nan ∧
    (Binary.ofNat 0 : Single).atMost (scoreNames "customer_raw" "Customers") = true ∧
    (scoreNames "customer_raw" "Customers").atMost greatestPartial = true := by
  have hne : normalizeString "customer_raw" ≠ normalizeString "Customers" := by decide +kernel
  obtain ⟨hcomm, hone, hbetween⟩ := scoreNames_spec "customer_raw" "Customers"
  exact ⟨hne, hcomm, fun h => hne (hone.mp h), hbetween hne (by decide) (by decide)⟩

/-! ### Columns in common -/

section Overlap

variable (these those : List Column)

/-- A column counts if its words are those of another one, that is, if the two score one. -/
theorem columnOverlap_eq_countP :
    columnOverlap (these.map (·.name)) (those.map (·.name)) =
      these.countP fun c => decide (∃ d ∈ those, scoreColumns c d = Binary.ofNat 1) := by
  have hone : ∀ c d : Column, scoreColumns c d = Binary.ofNat 1 ↔
      normalizeString d.name = normalizeString c.name := by
    intro c d
    rw [scoreColumns, scoreNames, scoreWords_eq_one_iff, eq_comm]
  rw [columnOverlap, List.countP_map]
  refine List.countP_congr fun c _ => ?_
  rw [Function.comp_apply, List.contains_iff_mem, List.map_map, List.mem_map, decide_eq_true_iff]
  simp only [hone, Function.comp_apply]

/-- **Columns in common.**  The columns that a table has in common with another one, which are found by
comparing words, are those that score one with some column of the other.  There are no more of them than
columns, and neither the order of the other columns nor how often each of them occurs makes a difference. -/
theorem columnOverlap_spec :
    columnOverlap (these.map (·.name)) (those.map (·.name)) =
        these.countP (fun c => decide (∃ d ∈ those, scoreColumns c d = Binary.ofNat 1)) ∧
      columnOverlap (these.map (·.name)) (those.map (·.name)) ≤ these.length ∧
      ∀ others : List Column, (∀ d, d ∈ others ↔ d ∈ those) →
        columnOverlap (these.map (·.name)) (others.map (·.name)) =
          columnOverlap (these.map (·.name)) (those.map (·.name)) := by
  refine ⟨columnOverlap_eq_countP these those, ?_, fun others h => ?_⟩
  · rw [columnOverlap_eq_countP]
    exact List.countP_le_length
  · rw [columnOverlap_eq_countP, columnOverlap_eq_countP]
    simp only [h]

end Overlap

/-- A column of the samples. -/
def sampleColumn (name : String) : Column :=
  ⟨⟨⟨"shop", by decide⟩, "", "dbo", "customers"⟩, name, "int", true⟩

/-- Two of three columns are found among others, in whatever order those stand. -/
theorem columnOverlap_spec_sample :
    let these := ["CustomerId", "Name", "Region"].map sampleColumn
    let those := ["customer_id", "name", "load_ts"].map sampleColumn
    let others := ["name", "load_ts", "customer_id", "name"].map sampleColumn
    (∀ d, d ∈ others ↔ d ∈ those) ∧
      columnOverlap (these.map (·.name)) (others.map (·.name)) =
        columnOverlap (these.map (·.name)) (those.map (·.name)) ∧
      columnOverlap (these.map (·.name)) (those.map (·.name)) = 2 := by
  intro these those others
  have hsame : ∀ d, d ∈ others ↔ d ∈ those := by
    intro d
    simp only [others, those, List.map_cons, List.map_nil, List.mem_cons, List.not_mem_nil, or_false]
    constructor <;> rintro (rfl | rfl | rfl | rfl) <;> simp
  obtain ⟨-, -, hothers⟩ := columnOverlap_spec these those
  exact ⟨hsame, hothers others hsame, by decide +kernel⟩

end TierLineage.Matching
