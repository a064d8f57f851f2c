/-!
# Cutting a text at a separator

`pieces sep cs` are the stretches of `cs` between occurrences of `sep`; there is one piece more
than there are separators.  `joined` puts them together again.
-/

namespace TierLineage.Text

/-- The stretches of a text between occurrences of a separator. -/
def pieces (sep : Char) : List Char → List (List Char)
  | [] => [[]]
  | c :: cs =>
    if c = sep then [] :: pieces sep cs
    else match pieces sep cs with
      | [] => [[c]]
      | p :: ps => (c :: p) :: ps

/-- Pieces put together with a separator between neighbours. -/
def joined (sep : List Char) : List (List Char) → List Char
  | [] => []
  | [p] => p
  | p :: q :: ps => p ++ sep ++ joined sep (q :: ps)

/-- Strings put together with a separator between neighbours. -/
def joinedStrings (sep : String) (ss : List String) : String :=
  String.ofList (joined sep.toList (ss.map String.toList))

theorem pieces_ne_nil (sep : Char) (cs : List Char) : pieces sep cs ≠ [] := by
  cases cs with
  | nil => simp [pieces]
  | cons c cs =>
    simp only [pieces]
    split
    · simp
    · split <;> simp

end TierLineage.Text
