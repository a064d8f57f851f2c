/-!
# Edit distance

The least number of insertions, deletions and substitutions of single characters that turn one text
into another, row by row: a row holds the distances of one start of the first text to all starts of
the second, and every next row follows from the one before it.
-/

namespace TierLineage.Matching

/-- The rest of a row: `corner` and `above` come from the row before, and `left` is the entry just
computed. -/
def rowFrom (c : Char) : List Char → Nat → List Nat → Nat → List Nat
  | d :: ds, corner, up :: above, left =>
    let here := min (min (up + 1) (left + 1)) (corner + if c = d then 0 else 1)
    here :: rowFrom c ds up above here
  | _, _, _, _ => []

/-- The row after one more character of the first text. -/
def nextRow (t : List Char) (row : List Nat) (c : Char) : List Nat :=
  match row with
  | [] => []
  | corner :: above => (corner + 1) :: rowFrom c t corner above (corner + 1)

/-- The edit distance of two texts. -/
def editDistance (s t : List Char) : Nat :=
  (s.foldl (nextRow t) (List.range (t.length + 1))).getLastD 0

end TierLineage.Matching
