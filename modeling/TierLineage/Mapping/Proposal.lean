import TierLineage.Matching.Score
import TierLineage.Matching.Ranking
import TierLineage.Mapping.Slot
import TierLineage.Config.Engine

/-!
# Proposals

Which targets a source table could be mapped to.  Every target of a hop is scored against the
source; those that score at all and not below the least score are ranked, and the first few become
candidates.  A single best candidate that scores high enough is confirmed automatically.
-/

namespace TierLineage

open TierLineage.Number TierLineage.Matching

/-- A table with its columns. -/
structure Listed where
  table : Table
  columns : List Column
  deriving Repr, DecidableEq

/-- The tables on both sides of a hop. -/
structure Sides where
  sources : List Listed
  targets : List Listed
  deriving Repr, DecidableEq

namespace Proposal

/-- How the targets of a source table are named; only source connections have a convention. -/
def convention (r : Registry) (hop : Hop) (source : Table) : Convention :=
  match hop with
  | .sourceToStage =>
    match r.resolve source.connection.name with
    | .ok c => Convention.ofConnection c
    | .error _ => Convention.none
  | .stageToBronze => Convention.none

/-- A target with its score, if it is worth showing. -/
def scored? (e : Engine) (v : Convention) (source target : Listed) : Option Ranked :=
  let score := v.score source.table target.table
  if (Binary.ofNat 0 : Single).less score && e.minCandidateScore.atMost score then
    some {
      table := target.table
      score := score
      overlap := columnOverlap (source.columns.map (·.name)) (target.columns.map (·.name))
      sameObject := source.table.sameObject target.table
      preferred := v.prefers target.table }
  else none

/-- The targets of a source table, best first. -/
def ranking (e : Engine) (r : Registry) (hop : Hop) (targets : List Listed) (source : Listed) :
    List Ranked :=
  let v := convention r hop source.table
  Ranked.rank (targets.filterMap (scored? e v source)) e.tieEpsilon

/-- Candidates for a source table from a ranking of its targets. -/
def candidates (e : Engine) (hop : Hop) (source : Table) (ranking : List Ranked)
    (supply : Supply) : List Mapping :=
  (Ranked.selectTop ranking e.topK e.tieEpsilon).mapIdx fun i c =>
    Mapping.candidate (supply.advance i).stamp hop source c.table c.score

/-- Candidates for all source tables, in their order. -/
def propose (e : Engine) (r : Registry) (hop : Hop) (s : Sides) (supply : Supply) :
    List Mapping × Supply :=
  s.sources.foldl
    (fun (ms, supply) source =>
      let new := candidates e hop source.table (ranking e r hop s.targets source) supply
      (ms ++ new, supply.advance new.length))
    ([], supply)

/-- What automatic mapping does with a source table. -/
inductive Decision where
  /-- Confirm the only best target. -/
  | confirm (target : Table) (score : Single)
  /-- Record candidates; `tie` tells that the best one scored high enough but was not alone. -/
  | record (ranking : List Ranked) (tie : Bool)
  deriving Repr, DecidableEq

/-- The decision on a source table from a ranking of its targets. -/
def decide (e : Engine) (ranking : List Ranked) : Decision :=
  match Ranked.selectTop ranking 1 e.tieEpsilon with
  | [] => .record ranking false
  | best :: others =>
    let accepted := e.acceptanceThreshold.atMost best.score
    if accepted && others.isEmpty then .confirm best.table best.score
    else .record ranking accepted

end Proposal

end TierLineage
