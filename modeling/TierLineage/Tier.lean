import TierLineage.Named

/-!
# Tiers

Data flows through three tiers, from the source systems over a staging area to the bronze layer.  A
`Hop` leads from one tier to the next one; table mappings belong to a hop.
-/

namespace TierLineage

/-- Where in the flow of data a connection stands. -/
inductive Tier where
  | source
  | stage
  | bronze
  deriving Repr, DecidableEq, Inhabited

namespace Tier

/-- The place of a tier in the flow. -/
def rank : Tier → Nat
  | source => 0
  | stage => 1
  | bronze => 2

instance : Ord Tier := ⟨compareOn rank⟩

instance : Named Tier where
  title := "tier"
  all := [source, stage, bronze]
  name
    | source => "source"
    | stage => "stage"
    | bronze => "bronze"

/-- The written name. -/
def name : Tier → String := Named.name

end Tier

/-- A step between neighbouring tiers. -/
inductive Hop where
  | sourceToStage
  | stageToBronze
  deriving Repr, DecidableEq, Inhabited

namespace Hop

/-- The place of a hop in the flow. -/
def rank : Hop → Nat
  | sourceToStage => 0
  | stageToBronze => 1

instance : Ord Hop := ⟨compareOn rank⟩

instance : Named Hop where
  title := "mapping tier"
  all := [sourceToStage, stageToBronze]
  name
    | sourceToStage => "source_to_stage"
    | stageToBronze => "stage_to_bronze"
  hyphens := true

/-- The written name. -/
def name : Hop → String := Named.name

/-- The tier a hop starts from. -/
def start : Hop → Tier
  | sourceToStage => .source
  | stageToBronze => .stage

/-- The tier a hop leads to. -/
def target : Hop → Tier
  | sourceToStage => .stage
  | stageToBronze => .bronze

/-- The hop between two tiers, if they are neighbours in the flow. -/
def between? : Tier → Tier → Option Hop
  | .source, .stage => some sourceToStage
  | .stage, .bronze => some stageToBronze
  | _, _ => none

end Hop

end TierLineage
