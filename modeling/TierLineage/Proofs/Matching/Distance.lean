import Mathlib.Data.Nat.Basic
import TierLineage.Matching.Distance

/-!
# Edit distance, from the last characters on

The last entries of the rows of an edit distance satisfy a recursion on the last characters of both texts:
either of them is dropped, or the one is put in place of the other.  A row holds what the recursion gives
for one start of the first text and all starts of the second, and the distance of the texts is the last
entry of the last row.  The recursion treats both texts alike, and never exceeds the longer one.
-/

namespace TierLineage.Matching

variable {c d : Char} {s t : List Char}

/-! ### The recursion -/

/-- The least number of edits between two texts that are given last character first. -/
def leastEdits : List Char → List Char → Nat
  | [], t => t.length
  | s, [] => s.length
  | c :: s, d :: t =>
    min (min (leastEdits s (d :: t) + 1) (leastEdits (c :: s) t + 1))
      (leastEdits s t + if c = d then 0 else 1)
termination_by s t => s.length + t.length

@[simp]
theorem leastEdits_nil_left (t : List Char) : leastEdits [] t = t.length := by
  rw [leastEdits]

@[simp]
theorem leastEdits_nil_right (s : List Char) : leastEdits s [] = s.length := by
  cases s <;> simp [leastEdits]

theorem leastEdits_cons_cons (c d : Char) (s t : List Char) : leastEdits (c :: s) (d :: t) =
    min (min (leastEdits s (d :: t) + 1) (leastEdits (c :: s) t + 1))
      (leastEdits s t + if c = d then 0 else 1) := by
  rw [leastEdits]

theorem leastEdits_comm (s t : List Char) : leastEdits s t = leastEdits t s := by
  fun_induction leastEdits s t with
  | case1 t => rw [leastEdits_nil_right]
  | case2 s => rw [leastEdits_nil_left]
  | case3 c s d t ihs iht ih =>
    rw [leastEdits_cons_cons, ihs, iht, ih, min_comm (leastEdits _ s + 1)]
    simp only [eq_comm]

theorem leastEdits_le (s t : List Char) : leastEdits s t ≤ max s.length t.length := by
  fun_induction leastEdits s t with
  | case1 t => exact Nat.le_max_right ..
  | case2 s => exact Nat.le_max_left ..
  | case3 c s d t _ _ ih =>
    -- at worst both last characters are replaced
    have hreplaced : leastEdits s t + (if c = d then 0 else 1) ≤ max s.length t.length + 1 :=
      Nat.add_le_add ih (by split <;> decide)
    calc _ ≤ leastEdits s t + (if c = d then 0 else 1) := Nat.min_le_right ..
      _ ≤ max s.length t.length + 1 := hreplaced
      _ = max (s.length + 1) (t.length + 1) := (Nat.add_max_add_right ..).symm

/-! ### Rows -/

/-- The entries of a row for a start of the first text, after those for a start of the second; both
starts are given last character first. -/
def entriesAfter (s : List Char) : List Char → List Char → List Nat
  | _, [] => []
  | r, d :: t => leastEdits s (d :: r) :: entriesAfter s (d :: r) t

/-- The row for a start of the first text. -/
def rowOf (s t : List Char) : List Nat :=
  leastEdits s [] :: entriesAfter s [] t

theorem rowFrom_eq (c : Char) (s r t : List Char) :
    rowFrom c t (leastEdits s r) (entriesAfter s r t) (leastEdits (c :: s) r) =
      entriesAfter (c :: s) r t := by
  induction t generalizing r with
  | nil => rfl
  | cons d t ih =>
    rw [entriesAfter, rowFrom, entriesAfter, leastEdits_cons_cons, ← ih, leastEdits_cons_cons]

theorem nextRow_rowOf (c : Char) (s t : List Char) : nextRow t (rowOf s t) c = rowOf (c :: s) t := by
  have hrow := rowFrom_eq c s [] t
  simp only [leastEdits_nil_right, List.length_cons] at hrow
  simp only [rowOf, nextRow, leastEdits_nil_right, List.length_cons, hrow]

theorem foldl_nextRow (s s' t : List Char) :
    s'.foldl (nextRow t) (rowOf s t) = rowOf (s'.reverse ++ s) t := by
  induction s' generalizing s with
  | nil => rfl
  | cons c s' ih =>
    rw [List.foldl_cons, nextRow_rowOf, ih, List.reverse_cons, List.append_assoc, List.singleton_append]

/-- The first row counts the characters of the second text. -/
theorem range_eq_rowOf (t : List Char) : List.range (t.length + 1) = rowOf [] t := by
  have hentries : ∀ r t : List Char,
      entriesAfter [] r t = List.range' (r.length + 1) t.length := by
    intro r t
    induction t generalizing r with
    | nil => rfl
    | cons d t ih =>
      rw [entriesAfter, ih, leastEdits_nil_left, List.length_cons, List.length_cons, List.range'_succ]
  rw [rowOf, hentries, leastEdits_nil_left, List.range_eq_range', List.range'_succ]
  rfl

theorem getLastD_rowOf (s t : List Char) : (rowOf s t).getLastD 0 = leastEdits s t.reverse := by
  have hlast : ∀ r, (leastEdits s r :: entriesAfter s r t).getLastD 0 =
      leastEdits s (t.reverse ++ r) := by
    induction t with
    | nil => exact fun r => rfl
    | cons d t ih =>
      intro r
      rw [List.reverse_cons, List.append_assoc, List.singleton_append, ← ih]
      rfl
  rw [rowOf, hlast, List.append_nil]

/-- The edit distance is what the recursion gives for the reversed texts. -/
theorem editDistance_eq (s t : List Char) : editDistance s t = leastEdits s.reverse t.reverse := by
  rw [editDistance, range_eq_rowOf, foldl_nextRow, getLastD_rowOf, List.append_nil]

/-- The edit distance is symmetric. -/
theorem editDistance_comm (s t : List Char) : editDistance s t = editDistance t s := by
  rw [editDistance_eq, editDistance_eq, leastEdits_comm]

/-- No more edits are needed than the longer text has characters. -/
theorem editDistance_le (s t : List Char) : editDistance s t ≤ max s.length t.length := by
  have h := leastEdits_le s.reverse t.reverse
  rwa [List.length_reverse, List.length_reverse, ← editDistance_eq] at h

end TierLineage.Matching
