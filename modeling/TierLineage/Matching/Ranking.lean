import TierLineage.Table

/-!
# Rankings

Scored targets are put in order, best first.  Scores that are hardly below the best one count as
equal to it: those targets form a cluster, inside which the same object goes first, then the
preferred schema, then the number of columns in common, then the score, then the name.  The rest is
ordered in the same way.  Selecting the first few never cuts through a tie.
-/

namespace TierLineage

open TierLineage.Number

/-- A scored target. -/
structure Ranked where
  table : Table
  score : Single
  overlap : Nat
  sameObject : Bool
  preferred : Bool
  deriving Repr, DecidableEq

namespace Ranked

/-- The order inside a cluster, best first. -/
def order (a b : Ranked) : Ordering :=
  (compare b.sameObject a.sameObject).then <|
  (compare b.preferred a.preferred).then <|
  (compare b.overlap a.overlap).then <|
  ((b.score.compare? a.score).getD .eq).then <|
  compare a.table b.table

/-- Whether a score is not far below the best one of its cluster. -/
def near (epsilon : Single) (best c : Ranked) : Bool :=
  !epsilon.less (best.score.sub c.score)

/-- Targets by falling score, cut into clusters. -/
def clusters (epsilon : Single) : List Ranked → List (List Ranked)
  | [] => []
  | best :: rest =>
    (best :: rest.takeWhile (near epsilon best)) ::
      clusters epsilon (rest.dropWhile (near epsilon best))
termination_by cs => cs.length
decreasing_by
  exact Nat.lt_succ_of_le (List.dropWhile_suffix _).length_le

/-- Targets by falling score. -/
def byScore (cs : List Ranked) : List Ranked :=
  cs.mergeSort fun a b => !a.score.less b.score

/-- Put targets in order, best first. -/
def rank (cs : List Ranked) (epsilon : Single) : List Ranked :=
  (clusters epsilon (byScore cs)).flatMap (·.mergeSort fun a b => (order a b).isLE)

/-- Whether nothing but score and name tells two targets apart. -/
def alike (a b : Ranked) : Bool :=
  a.sameObject == b.sameObject && a.preferred == b.preferred && a.overlap == b.overlap

/-- Whether a target is tied with the last one selected. -/
def tied (epsilon : Single) (last c : Ranked) : Bool :=
  (last.score.sub c.score).abs.atMost epsilon && c.alike last

/-- The first targets of a ranking, and those that follow and are tied with the last of them. -/
def selectTop (ranked : List Ranked) (count : Nat) (epsilon : Single) : List Ranked :=
  let first := ranked.take count
  match first.getLast? with
  | none => []
  | some last => first ++ (ranked.drop count).takeWhile (tied epsilon last)

/-! ### Data -/

/-- Read a scored target from data. -/
def read : Json.Reader Ranked := fun v => do
  let found ← Json.fields false
    [Json.needs "table" Table.read, Json.needs "score" Json.readSingle,
     Json.needs "column_overlap" Json.readWord, Json.needs "exact_object" Json.readBool,
     Json.may "preferred_schema" Json.readBool] v
  return {
    table := ← found.need "table" Table.read
    score := ← found.need "score" Json.readSingle
    overlap := ← found.need "column_overlap" Json.readWord
    sameObject := ← found.need "exact_object" Json.readBool
    preferred := ← found.orDefault "preferred_schema" Json.readBool false }

/-- The data of a scored target. -/
def toJson (r : Ranked) : Json :=
  Json.obj [("table", r.table.toJson), ("score", Json.single r.score),
    ("column_overlap", Json.nat r.overlap), ("exact_object", .bool r.sameObject),
    ("preferred_schema", .bool r.preferred)]

end Ranked

end TierLineage
