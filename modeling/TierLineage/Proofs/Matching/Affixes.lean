import TierLineage.Proofs.Matching.Spellings

/-!
# Tier markers at the ends of a name

A tier marker that is put in front of a name or behind it, with any separators between the two, is cut off
as a word of its own and leaves the words of the name as they are.  Markers at the ends are dropped, so a
name is compared as if it had none, as long as it has a word that is no marker.
-/

namespace TierLineage.Matching

open TierLineage.Number TierLineage.Text

/-- The sides of a name. -/
inductive Side
  | front
  | back
  deriving Repr, DecidableEq

/-- A tier marker for one side of a name. -/
structure Affix where
  side : Side
  marker : Word
  casing : Casing
  /-- What stands between the marker and the name. -/
  gap : String
  isMarker : isTierMarker marker = true
  gap_ne_empty : gap ≠ ""
  separates : gap.toList.all (fun c => !isAlphanumeric c) = true

namespace Affix

/-- The marker as it is written. -/
def text (a : Affix) : String :=
  String.ofList (a.casing.write a.marker)

/-- A name with a marker at one side. -/
def attach (a : Affix) (name : String) : String :=
  match a.side with
  | .front => a.text ++ a.gap ++ name
  | .back => name ++ a.gap ++ a.text

/-- A name with some markers, the last of them next to it. -/
def attachAll (as : List Affix) (name : String) : String :=
  as.foldr attach name

section Attached

variable {name : String}

theorem small_of_isTierMarker {m : Word} (h : isTierMarker m = true) :
    m ≠ [] ∧ ∀ c ∈ m, c.isLower = true := by
  have hmarkers : ∀ m ∈ tierMarkers, m ≠ [] ∧ m.all Char.isLower = true := by decide
  obtain ⟨hne, hsmall⟩ := hmarkers m (isTierMarker_iff.mp h)
  exact ⟨hne, List.all_eq_true.mp hsmall⟩

theorem lowerWords_text (a : Affix) : lowerWords a.text.toList = [a.marker] := by
  obtain ⟨hne, hsmall⟩ := small_of_isTierMarker a.isMarker
  rw [text, String.toList_ofList, lowerWords_write a.casing hne hsmall]

/-- A marker becomes one more word at its side. -/
theorem lowerWords_attach (a : Affix) (name : String) : lowerWords (a.attach name).toList =
    match a.side with
    | .front => a.marker :: lowerWords name.toList
    | .back => lowerWords name.toList ++ [a.marker] := by
  have happend : ∀ s t : String, lowerWords (s ++ a.gap ++ t).toList =
      lowerWords s.toList ++ lowerWords t.toList := by
    intro s t
    have hne : a.gap.toList ≠ [] := by simpa using a.gap_ne_empty
    have hgap : ∀ c ∈ a.gap.toList, isAlphanumeric c = false := by simpa using a.separates
    rw [String.toList_append, String.toList_append, lowerWords, splitWords_append hne hgap,
      List.map_append, ← lowerWords, ← lowerWords]
  rw [attach]
  rcases a.side with _ | _
  · rw [happend, lowerWords_text, List.singleton_append]
  · rw [happend, lowerWords_text]

/-- Markers surround the words of a name. -/
theorem exists_lowerWords_attachAll (as : List Affix) (name : String) :
    ∃ front back, lowerWords (attachAll as name).toList = front ++ lowerWords name.toList ++ back ∧
      (∀ w ∈ front, isTierMarker w = true) ∧ ∀ w ∈ back, isTierMarker w = true := by
  induction as with
  | nil => exact ⟨[], [], by simp [attachAll]⟩
  | cons a as ih =>
    obtain ⟨front, back, hwords, hfront, hback⟩ := ih
    have hattach := lowerWords_attach a (attachAll as name)
    rw [hwords] at hattach
    rcases hside : a.side with _ | _ <;> rw [hside] at hattach
    · exact ⟨a.marker :: front, back, hattach, List.forall_mem_cons.mpr ⟨a.isMarker, hfront⟩, hback⟩
    · refine ⟨front, back ++ [a.marker], by rw [← List.append_assoc]; exact hattach, hfront, ?_⟩
      intro w hw
      rcases List.mem_append.mp hw with hw | hw
      · exact hback w hw
      · rw [List.mem_singleton.mp hw]
        exact a.isMarker

/-- **Tier markers at the ends do not count.**  A name that has a word besides tier markers is compared by
the same words as with any markers in front of it and behind it, in any casing and with any separators.
So the two score one, and no marker is the first or the last of those words. -/
theorem normalize_attachAll (as : List Affix) (h : ∃ w ∈ normalizeString name, isTierMarker w = false) :
    normalizeString (attachAll as name) = normalizeString name ∧
      scoreNames (attachAll as name) name = Binary.ofNat 1 ∧
      ∀ w, AtEnd (normalizeString name) w → isTierMarker w = false := by
  obtain ⟨front, back, hwords, hfront, hback⟩ := exists_lowerWords_attachAll as name
  have hsingular : ∀ {ws : List Word}, (∀ w ∈ ws, isTierMarker w = true) →
      ∀ w ∈ ws.map singular, isTierMarker w = true := by
    intro ws hws v hv
    obtain ⟨w, hw, rfl⟩ := List.mem_map.mp hv
    rw [isTierMarker_singular, namesTier, hws w hw, Bool.true_or]
  have hname : ¬∀ w ∈ (lowerWords name.toList).map singular, isTierMarker w = true := by
    obtain ⟨w, hw, hmarker⟩ := h
    rw [normalizeString, normalize_eq] at hw
    intro hall
    rw [hall w ((trimmed_sublist _ _).subset hw)] at hmarker
    cases hmarker
  have hsame : normalizeString (attachAll as name) = normalizeString name := by
    rw [normalizeString, normalizeString, normalize_eq, normalize_eq, hwords, List.map_append,
      List.map_append, trimmed_append (hsingular hfront) (hsingular hback) hname]
  refine ⟨hsame, scoreWords_eq_one_iff.mpr hsame, fun w hw => ?_⟩
  rw [normalizeString, normalize_eq] at hw
  exact eq_false_of_atEnd_trimmed hname hw

/-- Three markers for a name, the first of them the outermost. -/
def sampleAffixes : List Affix :=
  [{ side := .back, marker := "tmp".toList, casing := .capitals, gap := "__", isMarker := rfl,
     gap_ne_empty := by decide, separates := by decide },
   { side := .front, marker := "bronze".toList, casing := .capitalized, gap := " ", isMarker := rfl,
     gap_ne_empty := by decide, separates := by decide },
   { side := .front, marker := "stg".toList, casing := .small, gap := "-.", isMarker := rfl,
     gap_ne_empty := by decide, separates := by decide }]

theorem normalize_attachAll_sample :
    attachAll sampleAffixes "ÄrzteB12" = "Bronze stg-.ÄrzteB12__TMP" ∧
    (∃ w ∈ normalizeString "ÄrzteB12", isTierMarker w = false) ∧
    normalizeString "Bronze stg-.ÄrzteB12__TMP" = normalizeString "ÄrzteB12" ∧
    scoreNames "Bronze stg-.ÄrzteB12__TMP" "ÄrzteB12" = Binary.ofNat 1 := by
  have hname : attachAll sampleAffixes "ÄrzteB12" = "Bronze stg-.ÄrzteB12__TMP" := by decide
  have hword : ∃ w ∈ normalizeString "ÄrzteB12", isTierMarker w = false := by decide +kernel
  obtain ⟨hwords, hscore, -⟩ := normalize_attachAll sampleAffixes hword
  rw [hname] at hwords hscore
  exact ⟨hname, hword, hwords, hscore⟩

end Attached

end Affix

end TierLineage.Matching
