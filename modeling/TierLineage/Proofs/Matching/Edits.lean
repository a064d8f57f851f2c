import Mathlib.Order.Bounds.Basic
import Mathlib.Order.MinMax
import TierLineage.Proofs.Matching.Distance

/-!
# The shortest way from one text to another

An edit inserts a character anywhere in a text, deletes one, or puts one in place of another.  The edit
distance is the length of the shortest sequence of edits that leads from one text to another, and two bounds
meet there.  The recursion on the last characters spells out a sequence of just that length.  None is
shorter: two texts that are one edit apart have almost the same distance to any third text, as the recursion
never sees more than one edit of difference, and a text has the distance zero to itself.

What makes the distance a metric is then read off sequences of edits, which can be turned around and put one
after the other.
-/

namespace TierLineage.Matching

variable {s t u : List Char} {m n : Nat}

/-! ### Edits -/

/-- One text becomes another by one edit: a character is inserted, deleted, or put in place of another. -/
inductive Edit : List Char → List Char → Prop
  | insert (front : List Char) (c : Char) (rest : List Char) : Edit (front ++ rest) (front ++ c :: rest)
  | delete (front : List Char) (c : Char) (rest : List Char) : Edit (front ++ c :: rest) (front ++ rest)
  | substitute (front : List Char) (c d : Char) (rest : List Char) :
    Edit (front ++ c :: rest) (front ++ d :: rest)

/-- One text becomes another by a number of edits, one after the other. -/
inductive Edits : Nat → List Char → List Char → Prop
  | none (s : List Char) : Edits 0 s s
  | more {n : Nat} {s t u : List Char} (first : Edits n s t) (last : Edit t u) : Edits (n + 1) s u

theorem Edit.symm (h : Edit s t) : Edit t s := by
  rcases h with ⟨front, c, rest⟩ | ⟨front, c, rest⟩ | ⟨front, c, d, rest⟩
  · exact .delete front c rest
  · exact .insert front c rest
  · exact .substitute front d c rest

theorem Edit.cons (c : Char) (h : Edit s t) : Edit (c :: s) (c :: t) := by
  rcases h with ⟨front, x, rest⟩ | ⟨front, x, rest⟩ | ⟨front, x, y, rest⟩
  · exact .insert (c :: front) x rest
  · exact .delete (c :: front) x rest
  · exact .substitute (c :: front) x y rest

theorem Edit.reverse (h : Edit s t) : Edit s.reverse t.reverse := by
  rcases h with ⟨front, c, rest⟩ | ⟨front, c, rest⟩ | ⟨front, c, d, rest⟩
  · simpa using Edit.insert rest.reverse c front.reverse
  · simpa using Edit.delete rest.reverse c front.reverse
  · simpa using Edit.substitute rest.reverse c d front.reverse

theorem Edit.length_le (h : Edit s t) : t.length ≤ s.length + 1 := by
  rcases h with ⟨front, c, rest⟩ | ⟨front, c, rest⟩ | ⟨front, c, d, rest⟩ <;>
    simp only [List.length_append, List.length_cons] <;> omega

namespace Edits

theorem one (h : Edit s t) : Edits 1 s t :=
  .more (.none s) h

theorem trans (h : Edits m s t) (h' : Edits n t u) : Edits (m + n) s u := by
  induction h' with
  | none => exact h
  | more _ last ih => exact .more (ih h) last

theorem symm (h : Edits n s t) : Edits n t s := by
  induction h with
  | none s => exact .none s
  | @more n _ _ _ _ last ih =>
    rw [Nat.add_comm]
    exact (one last.symm).trans ih

theorem cons (c : Char) (h : Edits n s t) : Edits n (c :: s) (c :: t) := by
  induction h with
  | none s => exact .none (c :: s)
  | more _ last ih => exact .more ih (last.cons c)

theorem reverse (h : Edits n s t) : Edits n s.reverse t.reverse := by
  induction h with
  | none s => exact .none s.reverse
  | more _ last ih => exact .more ih last.reverse

theorem length_le (h : Edits n s t) : t.length ≤ s.length + n := by
  induction h with
  | none => exact Nat.le_refl _
  | more _ last ih =>
    have hlast := last.length_le
    omega

theorem eq_of_zero (h : Edits 0 s t) : s = t := by
  cases h
  rfl

/-- A text is written by inserting its characters. -/
theorem of_nil (t : List Char) : Edits t.length [] t := by
  induction t with
  | nil => exact .none []
  | cons d t ih => exact .more ih (.insert [] d t)

end Edits

/-! ### A sequence as long as the distance -/

/-- The recursion tells how to get from one text to the other. -/
theorem edits_leastEdits (s t : List Char) : Edits (leastEdits s t) s t := by
  fun_induction leastEdits s t with
  | case1 t => exact .of_nil t
  | case2 s => exact (Edits.of_nil s).symm
  | case3 c s d t ihs iht ih =>
    have hdelete : Edits (leastEdits s (d :: t) + 1) (c :: s) (d :: t) := by
      rw [Nat.add_comm]
      exact (Edits.one (.delete [] c s)).trans ihs
    have hinsert : Edits (leastEdits (c :: s) t + 1) (c :: s) (d :: t) :=
      .more iht (.insert [] d t)
    have hsubstitute : Edits (leastEdits s t + if c = d then 0 else 1) (c :: s) (d :: t) := by
      split
      · rename_i hcd
        subst hcd
        exact ih.cons c
      · exact .more (ih.cons c) (.substitute [] c d t)
    exact min_rec' (Edits · (c :: s) (d :: t)) (min_rec' (Edits · (c :: s) (d :: t)) hdelete hinsert) hsubstitute

/-! ### No shorter sequence -/

/-- A character more costs one edit at most. -/
theorem leastEdits_insert_le (c : Char) (s u : List Char) :
    leastEdits (c :: s) u ≤ leastEdits s u + 1 := by
  rcases u with _ | ⟨e, u⟩
  · simp
  · rw [leastEdits_cons_cons]
    omega

/-- A character less costs one edit at most. -/
theorem leastEdits_delete_le (c : Char) (s u : List Char) :
    leastEdits s u ≤ leastEdits (c :: s) u + 1 := by
  induction u with
  | nil =>
    simp only [leastEdits_nil_right, List.length_cons]
    omega
  | cons e u ih =>
    -- whatever the recursion does with `c`, inserting `e` is one more edit
    have hinsert : leastEdits s (e :: u) ≤ leastEdits s u + 1 := by
      rw [leastEdits_comm s, leastEdits_comm s]
      exact leastEdits_insert_le e u s
    rw [leastEdits_cons_cons]
    omega

/-- Another character costs one edit at most. -/
theorem leastEdits_substitute_le (c d : Char) (s u : List Char) :
    leastEdits (d :: s) u ≤ leastEdits (c :: s) u + 1 := by
  induction u with
  | nil => simp
  | cons e u ih =>
    have hcost : (if d = e then 0 else 1) ≤ 1 := by split <;> omega
    simp only [leastEdits_cons_cons]
    omega

/-- What costs one edit at most costs no more behind a character. -/
theorem leastEdits_cons_le (c : Char) (h : ∀ u, leastEdits t u ≤ leastEdits s u + 1) (u : List Char) :
    leastEdits (c :: t) u ≤ leastEdits (c :: s) u + 1 := by
  induction u with
  | nil =>
    have hnil := h []
    simp only [leastEdits_nil_right, List.length_cons] at hnil ⊢
    omega
  | cons e u ih =>
    have hdelete := h (e :: u)
    have hboth := h u
    simp only [leastEdits_cons_cons]
    omega

theorem leastEdits_append_le (front : List Char) (h : ∀ u, leastEdits t u ≤ leastEdits s u + 1) :
    ∀ u, leastEdits (front ++ t) u ≤ leastEdits (front ++ s) u + 1 := by
  induction front with
  | nil => exact h
  | cons c front ih => exact leastEdits_cons_le c ih

/-- An edit changes the distance to any text by one at most. -/
theorem leastEdits_le_of_edit (h : Edit s t) (u : List Char) : leastEdits t u ≤ leastEdits s u + 1 := by
  rcases h with ⟨front, c, rest⟩ | ⟨front, c, rest⟩ | ⟨front, c, d, rest⟩
  · exact leastEdits_append_le front (leastEdits_insert_le c rest) u
  · exact leastEdits_append_le front (leastEdits_delete_le c rest) u
  · exact leastEdits_append_le front (leastEdits_substitute_le c d rest) u

theorem leastEdits_self (s : List Char) : leastEdits s s = 0 := by
  induction s with
  | nil => exact leastEdits_nil_left []
  | cons c s ih =>
    rw [leastEdits_cons_cons, ih]
    simp

/-- No sequence of edits is shorter than the distance. -/
theorem leastEdits_le_of_edits (h : Edits n s t) : leastEdits s t ≤ n := by
  induction h with
  | none s => exact (leastEdits_self s).le
  | @more n s t u _ last ih =>
    have hlast := leastEdits_le_of_edit last s
    rw [leastEdits_comm u, leastEdits_comm t] at hlast
    omega

/-! ### The distance -/

theorem edits_editDistance (s t : List Char) : Edits (editDistance s t) s t := by
  have h := (edits_leastEdits s.reverse t.reverse).reverse
  rwa [← editDistance_eq, List.reverse_reverse, List.reverse_reverse] at h

theorem editDistance_le_of_edits (h : Edits n s t) : editDistance s t ≤ n := by
  rw [editDistance_eq]
  exact leastEdits_le_of_edits h.reverse

/-- **The rows compute the least number of edits** that lead from one text to another.  So the distance of two
texts is symmetric, zero for equal texts only, not longer than a detour, at least the difference of their
lengths and at most the greater length. -/
theorem editDistance_isLeast (s t u : List Char) :
    IsLeast {n | Edits n s t} (editDistance s t) ∧
      editDistance s t = editDistance t s ∧
      (editDistance s t = 0 ↔ s = t) ∧
      editDistance s u ≤ editDistance s t + editDistance t u ∧
      ((s.length : Int) - t.length).natAbs ≤ editDistance s t ∧
      editDistance s t ≤ max s.length t.length := by
  have hst := edits_editDistance s t
  refine ⟨⟨hst, fun n h => editDistance_le_of_edits h⟩, editDistance_comm s t, ⟨fun h => ?_, fun h => ?_⟩,
    editDistance_le_of_edits (hst.trans (edits_editDistance t u)), ?_, editDistance_le s t⟩
  · rw [h] at hst
    exact hst.eq_of_zero
  · subst h
    exact Nat.le_zero.mp (editDistance_le_of_edits (.none s))
  · have hlong := hst.length_le
    have hshort := hst.symm.length_le
    omega

example : editDistance "kitten".toList "sitting".toList = 3 := by decide

end TierLineage.Matching
