import Mathlib.Algebra.BigOperators.Ring.List
import Mathlib.Algebra.Order.BigOperators.Group.List
import Mathlib.Algebra.Order.Ring.Nat
import TierLineage.Matching.Words
import TierLineage.Proofs.Matching.Trimming
import TierLineage.Proofs.Text.Parts
import TierLineage.Text.Pieces

/-!
# The order in which words are compared

The words of a name are made singular before those at its ends are judged, so the plural of a tier marker
counts as a marker there.  Where the documented order drops the markers of the words as they are written,
and makes the others singular afterwards, such a plural stays.  The two orders agree on a name exactly if
no plural of a marker is left at either end by the documented one, or if all its words name tiers and it
keeps them all anyway.
-/

namespace TierLineage.Matching

open TierLineage.Text

/-! ### Words -/

section Words

variable {c : Char} {cs current before : List Char} {w stem ending : Word} {name : List Char}

theorem before?_eq_some_iff : before? ending cs = some stem ↔ cs = stem ++ ending := by
  rw [before?, Option.map_eq_some_iff]
  simp only [after?_eq_some_iff]
  constructor
  · rintro ⟨rest, hcs, rfl⟩
    rw [← List.reverse_reverse ending, ← List.reverse_append, ← hcs, List.reverse_reverse]
  · rintro rfl
    exact ⟨stem.reverse, by rw [List.reverse_append], List.reverse_reverse stem⟩

theorem wordsFrom_ne_nil (h : w ∈ wordsFrom current cs) : w ≠ [] := by
  have hfinished : ∀ {current : List Char}, w ∈ finishedWord current → w ≠ [] := by
    intro current hw
    rw [finishedWord] at hw
    split at hw
    · cases hw
    · next hempty =>
      rw [List.mem_singleton.mp hw]
      simpa using hempty
  fun_induction wordsFrom current cs with
  | case1 => exact hfinished h
  | case2 _ _ _ _ ih =>
    rcases List.mem_append.mp h with h | h
    · exact hfinished h
    · exact ih h
  | case3 _ _ _ ih => exact ih h
  | case4 _ _ _ _ _ _ ih =>
    rcases List.mem_cons.mp h with rfl | h
    · simp
    · exact ih h
  | case5 _ _ _ _ _ _ ih => exact ih h

theorem length_lowerChar (c : Char) : 1 ≤ (lowerChar c).length ∧ (lowerChar c).length ≤ 2 := by
  rw [lowerChar]
  split
  · simp
  · split
    · simp
    · split <;> simp

/-- In lower case a text has one or two characters for each of its own. -/
theorem length_lowercase (cs : List Char) :
    cs.length ≤ (lowercase cs).length ∧ (lowercase cs).length ≤ 2 * cs.length := by
  have hafter : ∀ before, cs.length ≤ (lowerAfter before cs).length ∧
      (lowerAfter before cs).length ≤ 2 * cs.length := by
    induction cs with
    | nil => exact fun _ => ⟨Nat.le_refl 0, Nat.le_refl 0⟩
    | cons c rest ih =>
      intro before
      have hrest := ih (c :: before)
      have hhere := length_lowerChar c
      rw [lowerAfter, List.length_append, List.length_cons]
      split
      · split <;> simp only [List.length_singleton] <;> omega
      · omega
  exact hafter []

theorem lowercase_ne_nil (h : w ≠ []) : lowercase w ≠ [] :=
  List.ne_nil_of_length_pos ((List.length_pos_of_ne_nil h).trans_le (length_lowercase w).1)

/-- The ways to make a word singular. -/
inductive Singular : Word → Word → Prop
  | ies (stem : Word) : Singular (stem ++ ['i', 'e', 's']) (stem ++ ['y'])
  | ses (stem : Word) : Singular (stem ++ ['s', 'e', 's']) (stem ++ ['s'])
  | s (stem : Word) (h : stem ≠ []) : Singular (stem ++ ['s']) stem
  | same (w : Word) : Singular w w

theorem singular_spec (w : Word) : Singular w (singular w) := by
  have hending : ∀ {ending stem : Word}, (if 3 < byteLength w then before? ending w else none) =
      some stem → w = stem ++ ending := by
    intro ending stem h
    split at h
    · exact before?_eq_some_iff.mp h
    · cases h
  rw [singular]
  split
  · next stem h => exact hending h ▸ .ies stem
  · next stem _ h => exact hending h ▸ .ses stem
  · split
    · next h =>
      obtain ⟨hlong, hs, -⟩ := h
      obtain ⟨stem, hs⟩ := Option.isSome_iff_exists.mp hs
      obtain rfl := before?_eq_some_iff.mp hs
      rw [List.dropLast_concat]
      refine .s stem fun hnil => ?_
      rw [hnil] at hlong
      exact absurd hlong (by decide)
    · exact .same w

theorem singular_ne_nil (h : w ≠ []) : singular w ≠ [] := by
  have hspec := singular_spec w
  generalize singular w = v at hspec ⊢
  cases hspec with
  | ies stem => simp
  | ses stem => simp
  | s stem hstem => exact hstem
  | same => exact h

/-! ### Plurals of tier markers -/

/-- Whether a word is the plural of a tier marker. -/
def isMarkerPlural (w : Word) : Bool :=
  tierMarkers.any fun m => w == m ++ ['s']

/-- Whether a word names a tier, in the singular or the plural. -/
def namesTier (w : Word) : Bool :=
  isTierMarker w || isMarkerPlural w

theorem isTierMarker_iff : isTierMarker w = true ↔ w ∈ tierMarkers :=
  List.contains_iff_mem

theorem isMarkerPlural_iff : isMarkerPlural w = true ↔ ∃ m ∈ tierMarkers, w = m ++ ['s'] := by
  simp only [isMarkerPlural, List.any_eq_true, beq_iff_eq]

/-- No tier marker is the plural of one. -/
theorem isMarkerPlural_eq_false (h : isTierMarker w = true) : isMarkerPlural w = false := by
  have hmarkers : ∀ m ∈ tierMarkers, isMarkerPlural m = false := by decide
  exact hmarkers w (isTierMarker_iff.mp h)

/-- The singular of a word is a tier marker exactly if the word names a tier. -/
theorem isTierMarker_singular (w : Word) : isTierMarker (singular w) = namesTier w := by
  have hends : ∀ m ∈ tierMarkers, m.getLast? ≠ some 'y' ∧ m.getLast? ≠ some 's' := by decide
  have hmarkers : ∀ m ∈ tierMarkers, singular m = m ∧ singular (m ++ ['s']) = m := by decide
  rw [Bool.eq_iff_iff, namesTier, Bool.or_eq_true, isTierMarker_iff, isTierMarker_iff,
    isMarkerPlural_iff]
  constructor
  · intro h
    have hspec := singular_spec w
    generalize singular w = v at hspec h
    cases hspec with
    | ies stem => exact absurd List.getLast?_concat (hends _ h).1
    | ses stem => exact absurd List.getLast?_concat (hends _ h).2
    | s stem hstem => exact .inr ⟨v, h, rfl⟩
    | same => exact .inl h
  · rintro (h | ⟨m, hm, rfl⟩)
    · rwa [(hmarkers w h).1]
    · rwa [(hmarkers m hm).2]

/-! ### Sizes -/

/-- The characters of some words, and one more for each of them. -/
def extent (ws : List Word) : Nat :=
  (ws.map fun w => w.length + 1).sum

theorem length_le_extent (ws : List Word) : ws.length ≤ extent ws := by
  induction ws with
  | nil => exact Nat.le_refl 0
  | cons w ws ih =>
    simp only [extent, List.map_cons, List.sum_cons, List.length_cons] at ih ⊢
    omega

theorem length_joined_le (ws : List Word) : (joined [' '] ws).length ≤ extent ws := by
  fun_induction joined [' '] ws with
  | case1 => exact Nat.le_refl 0
  | case2 w => simp [extent]
  | case3 w v ws ih =>
    simp only [extent, List.map_cons, List.sum_cons, List.length_append, List.length_singleton] at ih ⊢
    omega

theorem extent_mono {us ws : List Word} (h : us.Sublist ws) : extent us ≤ extent ws :=
  (h.map _).sum_le_sum fun _ _ => Nat.zero_le _

theorem extent_map_le {f : Word → Word} (hf : ∀ w, (f w).length ≤ w.length) (ws : List Word) :
    extent (ws.map f) ≤ extent ws := by
  rw [extent, List.map_map]
  exact List.sum_le_sum fun w _ => Nat.succ_le_succ (hf w)

theorem length_singular_le (w : Word) : (singular w).length ≤ w.length := by
  have hspec := singular_spec w
  generalize singular w = v at hspec ⊢
  cases hspec <;> simp

theorem sum_length_wordsFrom (current cs : List Char) :
    ((wordsFrom current cs).map List.length).sum ≤ current.length + cs.length := by
  have hfinished : ∀ current, ((finishedWord current).map List.length).sum = current.length := by
    intro current
    cases current <;> simp [finishedWord]
  fun_induction wordsFrom current cs with
  | case1 current => rw [hfinished, List.length_nil, Nat.add_zero]
  | case2 current _ _ _ ih =>
    rw [List.map_append, List.sum_append, hfinished]
    simp only [List.length_cons, List.length_nil] at ih ⊢
    omega
  | case3 _ _ _ ih =>
    simp only [List.length_cons, List.length_nil] at ih ⊢
    omega
  | case4 _ _ _ _ _ _ ih =>
    simp only [List.map_cons, List.sum_cons, List.length_reverse, List.length_cons, List.length_nil]
      at ih ⊢
    omega
  | case5 _ _ _ _ _ _ ih =>
    simp only [List.length_cons] at ih ⊢
    omega

/-! ### The words of a name -/

/-- The words of a name as they are written, in lower case. -/
def lowerWords (name : List Char) : List Word :=
  (splitWords name).map lowercase

theorem trimMarkers_eq (ws : List Word) : trimMarkers ws = trimmed isTierMarker ws := rfl

/-- Words are trimmed of whatever names a tier, and then singular. -/
theorem normalize_eq_trimmed (name : List Char) :
    normalize name = (trimmed namesTier (lowerWords name)).map singular := by
  have hne : ∀ w ∈ (splitWords name).map fun w => singular (lowercase w), (!w.isEmpty) = true := by
    intro w hw
    obtain ⟨v, hv, rfl⟩ := List.mem_map.mp hw
    rw [Bool.not_eq_true', List.isEmpty_eq_false_iff]
    exact singular_ne_nil (lowercase_ne_nil (wordsFrom_ne_nil hv))
  have hsingular : isTierMarker ∘ singular = namesTier := funext isTierMarker_singular
  rw [normalize, List.filter_eq_self.mpr hne, trimMarkers_eq, lowerWords, ← hsingular, ← trimmed_map,
    List.map_map]
  rfl

/-- The words of a name are singular before they are trimmed of tier markers. -/
theorem normalize_eq (name : List Char) :
    normalize name = trimmed isTierMarker ((lowerWords name).map singular) := by
  have hsingular : isTierMarker ∘ singular = namesTier := funext isTierMarker_singular
  rw [normalize_eq_trimmed, trimmed_map, hsingular]

/-- The words by which a name is compared are not much longer than the name. -/
theorem extent_normalize_le (name : List Char) : extent (normalize name) ≤ 3 * name.length := by
  have hword : ∀ w ∈ splitWords name, (lowercase w).length + 1 ≤ 3 * w.length := by
    intro w hw
    have hpos := List.length_pos_of_ne_nil (wordsFrom_ne_nil hw)
    have hlower := (length_lowercase w).2
    omega
  rw [normalize_eq_trimmed]
  calc extent ((trimmed namesTier (lowerWords name)).map singular)
      ≤ extent (trimmed namesTier (lowerWords name)) := extent_map_le length_singular_le _
    _ ≤ extent (lowerWords name) := extent_mono (trimmed_sublist _ _)
    _ = ((splitWords name).map fun w => (lowercase w).length + 1).sum := by
      rw [extent, lowerWords, List.map_map]
      rfl
    _ ≤ ((splitWords name).map fun w => 3 * w.length).sum := List.sum_le_sum hword
    _ = 3 * ((splitWords name).map List.length).sum := List.sum_map_mul_left _ _ _
    _ ≤ 3 * name.length := by
      have hsum := sum_length_wordsFrom [] name
      rw [List.length_nil, Nat.zero_add] at hsum
      exact Nat.mul_le_mul_left 3 hsum

/-! ### The documented order -/

/-- The words of a name in the documented order: without the tier markers at either end, unless there is
nothing else, and then singular. -/
def trimmedFirst (name : List Char) : List Word :=
  (trimMarkers (lowerWords name)).map singular

/-- **Words are made singular before they are trimmed.**  Of the words of a name in lower case those are
dropped at either end that are tier markers or plurals of them, unless there is nothing else, and what is
left is made singular.  The documented order, which drops tier markers only, gives the same exactly if it
leaves no plural of a tier marker at either end, or if it leaves all words and all of them name tiers. -/
theorem normalize_eq_trimmedFirst_iff (name : List Char) :
    normalize name = (trimmed namesTier (lowerWords name)).map singular ∧
      (normalize name = trimmedFirst name ↔
        (∀ w, AtEnd (trimMarkers (lowerWords name)) w → isMarkerPlural w = false) ∨
          (trimMarkers (lowerWords name) = lowerWords name ∧
            ∀ w ∈ lowerWords name, namesTier w = true)) := by
  have hwider : ∀ w, isTierMarker w = true → namesTier w = true := fun w h => by
    rw [namesTier, h, Bool.true_or]
  have hplural : ∀ w, (namesTier w = true → isTierMarker w = true) ↔ isMarkerPlural w = false := by
    intro w
    cases hmarker : isTierMarker w with
    | true => simp [isMarkerPlural_eq_false hmarker]
    | false => simp [namesTier, hmarker]
  refine ⟨normalize_eq_trimmed name, ?_⟩
  rw [normalize_eq_trimmed, trimmedFirst, trimMarkers_eq]
  constructor
  · intro h
    rcases (trimmed_eq_trimmed_iff hwider).mp (trimmed_eq_of_map_eq hwider h) with h | h
    · exact .inl fun w hw => (hplural w).mp (h w hw)
    · exact .inr h
  · intro h
    rw [(trimmed_eq_trimmed_iff hwider).mpr (h.imp_left fun h w hw => (hplural w).mpr (h w hw))]

/-- The plural of a tier marker is dropped, though it is no marker itself. -/
theorem not_trimmedFirst_sources : ¬∀ name, normalize name = trimmedFirst name := by
  intro h
  have hdropped : normalize "sources_orders".toList = ["order".toList] := by decide +kernel
  have hkept : trimmedFirst "sources_orders".toList = ["source".toList, "order".toList] := by
    decide +kernel
  have hne : ["order".toList] ≠ ["source".toList, "order".toList] := by decide
  exact hne ((hdropped.symm.trans (h _)).trans hkept)

end Words

end TierLineage.Matching
