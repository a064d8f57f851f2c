import TierLineage.Matching.Words
import TierLineage.Matching.Distance
import TierLineage.Config.Registry
import TierLineage.Text.Pieces

/-!
# Scores

How alike two names are, from zero to one.  Names with the same words score one; every other pair
scores a weighted mean of the share of words in common and of how few edits lead from one text to
the other, and never more than `0.99`.

A source connection may have a convention for its stage tables: a prefix, which does not count in
the comparison, and a schema, which is preferred.
-/

namespace TierLineage.Matching

open TierLineage.Number TierLineage.Text

/-! ### Names -/

/-- The weight of the words in common. -/
def wordWeight : Single := Binary.ofRatio 7 10

/-- The weight of the edit distance. -/
def editWeight : Single := Binary.ofRatio 3 10

/-- The greatest score of names with different words. -/
def greatestPartial : Single := Binary.ofRatio 99 100

/-- The share of words in common among all words. -/
def wordShare (a b : List Word) : Single :=
  let as := a.eraseDups
  let bs := b.eraseDups
  let common := (as.filter bs.contains).length
  (Binary.ofNat common).div (Binary.ofNat (as.length + bs.length - common))

/-- One less the edits for each character of the longer text. -/
def editShare (s t : List Char) : Single :=
  let longest := max s.length t.length
  if longest = 0 then Binary.ofNat 1
  else (Binary.ofNat 1).sub ((Binary.ofNat (editDistance s t)).div (Binary.ofNat longest))

/-- How alike two lists of words are. -/
def scoreWords (a b : List Word) : Single :=
  if a = b then Binary.ofNat 1
  else if a.isEmpty || b.isEmpty then Binary.ofNat 0
  else
    let share := wordWeight.mul (wordShare a b)
    let edits := editWeight.mul (editShare (joined [' '] a) (joined [' '] b))
    (share.add edits).clamp (Binary.ofNat 0) greatestPartial

/-- How alike two names are. -/
def scoreNames (a b : String) : Single :=
  scoreWords (normalizeString a) (normalizeString b)

/-- How alike the names of two tables are. -/
def scoreTables (t u : Table) : Single :=
  scoreNames t.name u.name

/-- How alike the names of two columns are. -/
def scoreColumns (c d : Column) : Single :=
  scoreNames c.name d.name

/-- The number of columns whose words are those of one of the other columns. -/
def columnOverlap (these those : List String) : Nat :=
  let known := those.map normalizeString
  these.countP fun c => known.contains (normalizeString c)

/-! ### Conventions -/

/-- How the stage tables of a source connection are named. -/
structure Convention where
  start : Option String
  schema : Option String
  deriving Repr, DecidableEq

namespace Convention

/-- No convention. -/
def none : Convention := ⟨.none, .none⟩

/-- A text without white space around it, if anything is left. -/
def filled (s : Option String) : Option String :=
  (s.map trimString).filter fun t => !t.isEmpty

/-- The convention of a connection. -/
def ofConnection (c : Connection) : Convention :=
  ⟨filled c.stagePrefix, filled c.stageSchema⟩

/-- A text cut after a number of bytes, where a character ends there. -/
def cut? : Nat → List Char → Option (List Char × List Char)
  | 0, cs => some ([], cs)
  | _ + 1, [] => .none
  | n + 1, c :: cs =>
    if c.utf8Size ≤ n + 1 then (cut? (n + 1 - c.utf8Size) cs).map fun (a, b) => (c :: a, b)
    else .none
termination_by n _ => n
decreasing_by have := Char.utf8Size_pos c; omega

/-- The name of a stage table without the prefix; a name that is nothing else is kept. -/
def withoutStart (v : Convention) (name : String) : String :=
  match v.start with
  | .none => name
  | some start =>
    match cut? (byteLength start.toList) name.toList with
    | some (head, rest) =>
      if sameIgnoringCase head start.toList && !rest.isEmpty then String.ofList rest else name
    | .none => name

/-- How alike a source table and a stage table are. -/
def score (v : Convention) (source stage : Table) : Single :=
  scoreNames source.name (v.withoutStart stage.name)

/-- Whether a table stands in the schema of the convention. -/
def prefers (v : Convention) (stage : Table) : Bool :=
  match v.schema with
  | some s => sameStringIgnoringCase s stage.schema
  | .none => false

end Convention

end TierLineage.Matching
