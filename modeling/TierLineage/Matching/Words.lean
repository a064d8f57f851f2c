import TierLineage.Text.Alphanumeric
import TierLineage.Text.LetterCase
import TierLineage.Text.Ascii

/-!
# Words of a name

A table or column name is compared by its words: it is cut at characters that are neither letters
nor digits and where a capital starts a new word, the words are put into lower case and singular,
and words at either end that only name a tier are dropped.
-/

namespace TierLineage.Matching

open TierLineage.Text

/-- A word of a name. -/
abbrev Word := List Char

/-! ### Cutting -/

/-- Whether a letter that follows another character of its word starts a new one: a capital after a
lower-case letter or an ASCII digit, or the last of several capitals before a lower-case letter. -/
def startsWord (before c : Char) (next : Option Char) : Bool :=
  isUppercase c &&
    (isLowercase before || before.isDigit || (isUppercase before && next.any isLowercase))

/-- A finished word, if it is not empty; `current` holds its characters last one first. -/
def finishedWord (current : List Char) : List Word :=
  if current.isEmpty then [] else [current.reverse]

/-- The words from the present place on, where `current` holds the characters of the present word
last one first. -/
def wordsFrom : List Char → List Char → List Word
  | current, [] => finishedWord current
  | current, c :: cs =>
    if !isAlphanumeric c then finishedWord current ++ wordsFrom [] cs
    else match current with
      | [] => wordsFrom [c] cs
      | before :: _ =>
        if startsWord before c cs.head? then current.reverse :: wordsFrom [c] cs
        else wordsFrom (c :: current) cs

/-- The words of a name as they are written. -/
def splitWords (name : List Char) : List Word :=
  wordsFrom [] name

/-! ### Singular -/

/-- The length of a text in bytes. -/
def byteLength (cs : List Char) : Nat :=
  cs.foldl (fun n c => n + c.utf8Size) 0

/-- The text in front of an ending, where it has that ending. -/
def before? (ending cs : List Char) : Option (List Char) :=
  (after? cs.reverse ending.reverse).map List.reverse

/-- The singular of a word: `-ies` becomes `-y` and `-ses` becomes `-s` in words of more than three
bytes, and a last `s` that does not belong to `-ss`, `-us` or `-is` is dropped in words of more than
two. -/
def singular (w : Word) : Word :=
  let ies := if 3 < byteLength w then before? ['i', 'e', 's'] w else none
  let ses := if 3 < byteLength w then before? ['s', 'e', 's'] w else none
  match ies, ses with
  | some stem, _ => stem ++ ['y']
  | none, some stem => stem ++ ['s']
  | none, none =>
    if 2 < byteLength w ∧ (before? ['s'] w).isSome ∧ (before? ['s', 's'] w).isNone ∧
        (before? ['u', 's'] w).isNone ∧ (before? ['i', 's'] w).isNone then w.dropLast
    else w

/-! ### Tier markers -/

/-- The words that only say to which tier a name belongs. -/
def tierMarkers : List Word :=
  ["stg", "stage", "staging", "src", "source", "brz", "bronze", "tmp"].map String.toList

/-- Whether a word only names a tier. -/
def isTierMarker (w : Word) : Bool :=
  tierMarkers.contains w

/-- Words without the tier markers at either end, unless there is nothing else. -/
def trimMarkers (ws : List Word) : List Word :=
  let inner := ((ws.dropWhile isTierMarker).reverse.dropWhile isTierMarker).reverse
  if inner.isEmpty then ws else inner

/-- The words by which a name is compared. -/
def normalize (name : List Char) : List Word :=
  trimMarkers (((splitWords name).map fun w => singular (lowercase w)).filter fun w => !w.isEmpty)

/-- The words by which a name is compared. -/
def normalizeString (name : String) : List Word :=
  normalize name.toList

end TierLineage.Matching
