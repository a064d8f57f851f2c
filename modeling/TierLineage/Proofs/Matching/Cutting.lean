import TierLineage.Proofs.Matching.Words
import TierLineage.Proofs.Text.Letters

/-!
# Where names are cut

Whether a character starts a word depends on its two neighbours only, and a separator has no case.  So a
name is cut on either side of a separator as if the other side were not there, and the words of texts that
are put together with separators are the words of those texts.
-/

namespace TierLineage.Matching

open TierLineage.Text

section Cutting

variable {sep before c : Char} {gap current cs rest : List Char}

/-! ### One character -/

theorem wordsFrom_separator (h : isAlphanumeric c = false) (current cs : List Char) :
    wordsFrom current (c :: cs) = finishedWord current ++ wordsFrom [] cs := by
  simp [wordsFrom, h]

/-- A letter that does not start a word belongs to the present one. -/
theorem wordsFrom_next (h : isAlphanumeric c = true)
    (hstays : ∀ before ∈ current.head?, startsWord before c cs.head? = false) :
    wordsFrom current (c :: cs) = wordsFrom (c :: current) cs := by
  cases current with
  | nil => simp [wordsFrom, h]
  | cons before current => simp [wordsFrom, h, hstays before rfl]

theorem wordsFrom_start (h : isAlphanumeric c = true) (hstarts : startsWord before c cs.head? = true)
    (current : List Char) :
    wordsFrom (before :: current) (c :: cs) = (before :: current).reverse :: wordsFrom [c] cs := by
  simp [wordsFrom, h, hstarts]

theorem startsWord_of_small (h : isUppercase c = false) (before : Char) (next : Option Char) :
    startsWord before c next = false := by
  rw [startsWord, h, Bool.false_and]

/-! ### Separators -/

/-- In front of a separator a word starts where it would start at the end of the name. -/
theorem startsWord_append (hsep : isAlphanumeric sep = false) (before c : Char) (cs rest : List Char) :
    startsWord before c (cs ++ sep :: rest).head? = startsWord before c cs.head? := by
  cases cs with
  | nil => simp [startsWord, isLowercase_of_separator hsep]
  | cons d cs => rfl

theorem wordsFrom_append (hsep : isAlphanumeric sep = false) (current cs rest : List Char) :
    wordsFrom current (cs ++ sep :: rest) = wordsFrom current cs ++ wordsFrom [] rest := by
  have hletter : ∀ {c : Char}, ¬(!isAlphanumeric c) = true → isAlphanumeric c = true := by simp
  fun_induction wordsFrom current cs with
  | case1 current => exact wordsFrom_separator hsep current rest
  | case2 current c cs hc ih =>
    rw [List.cons_append, wordsFrom_separator (by simpa using hc), ih, List.append_assoc]
  | case3 c cs hc ih =>
    have hstays : ∀ before ∈ [].head?, startsWord before c (cs ++ sep :: rest).head? = false := by simp
    rw [List.cons_append, wordsFrom_next (hletter hc) hstays, ih]
  | case4 c cs hc before current hstarts ih =>
    rw [← startsWord_append hsep before c cs rest] at hstarts
    rw [List.cons_append, wordsFrom_start (hletter hc) hstarts, ih, List.cons_append]
  | case5 c cs hc before current hstays ih =>
    rw [← startsWord_append hsep before c cs rest, Bool.not_eq_true] at hstays
    rw [List.cons_append, wordsFrom_next (hletter hc) (by simpa using hstays), ih]

/-- Separators in front of a name are not part of it. -/
theorem splitWords_gap (hgap : ∀ c ∈ gap, isAlphanumeric c = false) (name : List Char) :
    splitWords (gap ++ name) = splitWords name := by
  induction gap with
  | nil => rfl
  | cons sep gap ih =>
    obtain ⟨hsep, hgap⟩ := List.forall_mem_cons.mp hgap
    calc splitWords (sep :: gap ++ name)
        = splitWords [] ++ splitWords (gap ++ name) := wordsFrom_append hsep [] [] (gap ++ name)
      _ = splitWords name := ih hgap

/-- The names on either side of a gap are cut each for itself. -/
theorem splitWords_append (hne : gap ≠ []) (hgap : ∀ c ∈ gap, isAlphanumeric c = false)
    (front back : List Char) :
    splitWords (front ++ gap ++ back) = splitWords front ++ splitWords back := by
  obtain ⟨sep, gap, rfl⟩ := List.exists_cons_of_ne_nil hne
  obtain ⟨hsep, hgap⟩ := List.forall_mem_cons.mp hgap
  rw [List.append_assoc, List.cons_append, splitWords, wordsFrom_append hsep, ← splitWords,
    ← splitWords, splitWords_gap hgap]

theorem splitWords_joined (hsep : isAlphanumeric sep = false) (ws : List Word) :
    splitWords (joined [sep] ws) = ws.flatMap splitWords := by
  fun_induction joined [sep] ws with
  | case1 => rfl
  | case2 w => rw [List.flatMap_singleton]
  | case3 w v ws ih =>
    have hgap : ∀ c ∈ [sep], isAlphanumeric c = false := by simpa using hsep
    rw [splitWords_append (List.cons_ne_nil sep []) hgap, ih]
    rfl

/-! ### Stretches without a cut -/

theorem finishedWord_reverse {w : Word} (hne : w ≠ []) : finishedWord w.reverse = [w] := by
  simp [finishedWord, hne]

/-- Letters that are no capitals belong to the word in front of them. -/
theorem wordsFrom_small (hcs : ∀ c ∈ cs, isAlphanumeric c = true ∧ isUppercase c = false)
    (current rest : List Char) :
    wordsFrom current (cs ++ rest) = wordsFrom (cs.reverse ++ current) rest := by
  induction cs generalizing current with
  | nil => rfl
  | cons c cs ih =>
    obtain ⟨⟨hletter, hsmall⟩, hcs⟩ := List.forall_mem_cons.mp hcs
    rw [List.cons_append, wordsFrom_next hletter fun before _ => startsWord_of_small hsmall before _,
      ih hcs, List.reverse_cons, List.append_assoc, List.singleton_append]

/-- Capitals that follow one another are one word up to the end of the name. -/
theorem wordsFrom_capitals (hcurrent : ∀ c ∈ current, isLowercase c = false ∧ c.isDigit = false)
    (hcs : ∀ c ∈ cs, isAlphanumeric c = true ∧ isLowercase c = false ∧ c.isDigit = false) :
    wordsFrom current cs = finishedWord (cs.reverse ++ current) := by
  induction cs generalizing current with
  | nil => rfl
  | cons c cs ih =>
    obtain ⟨⟨hletter, hc⟩, hcs⟩ := List.forall_mem_cons.mp hcs
    have hnext : cs.head?.any isLowercase = false := by
      cases cs with
      | nil => rfl
      | cons d cs => exact (hcs d List.mem_cons_self).2.1
    have hstays : ∀ before ∈ current.head?, startsWord before c cs.head? = false := by
      intro before hbefore
      obtain ⟨hlower, hdigit⟩ := hcurrent before (List.mem_of_mem_head? hbefore)
      rw [startsWord, hlower, hdigit, hnext, Bool.and_false, Bool.or_self, Bool.or_self, Bool.and_false]
    rw [wordsFrom_next hletter hstays, ih (List.forall_mem_cons.mpr ⟨hc, hcurrent⟩) hcs,
      List.reverse_cons, List.append_assoc, List.singleton_append]

/-- Whether a word ends with a small letter. -/
def EndsSmall (w : Word) : Prop :=
  ∃ c, w.getLast? = some c ∧ isLowercase c = true

/-- Behind a word that ends with a small letter a capital starts the next one. -/
theorem wordsFrom_capital {w : Word} (hw : EndsSmall w) (hletter : isAlphanumeric c = true)
    (hcapital : isUppercase c = true) (cs : List Char) :
    wordsFrom w.reverse (c :: cs) = w :: wordsFrom [] (c :: cs) := by
  obtain ⟨before, hlast, hsmall⟩ := hw
  obtain ⟨front, rfl⟩ := List.getLast?_eq_some_iff.mp hlast
  have hstarts : startsWord before c cs.head? = true := by
    rw [startsWord, hcapital, hsmall, Bool.true_or, Bool.true_or, Bool.true_and]
  have hfirst : wordsFrom [] (c :: cs) = wordsFrom [c] cs := wordsFrom_next hletter (by simp)
  rw [hfirst, List.reverse_append, List.reverse_singleton, List.singleton_append,
    wordsFrom_start hletter hstarts, List.reverse_cons, List.reverse_reverse]

end Cutting

end TierLineage.Matching
