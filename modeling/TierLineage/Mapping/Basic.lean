import TierLineage.Table
import TierLineage.Identifier

/-!
# Mappings

A mapping ties a table of one tier to its counterpart of the next tier.  It is a candidate until it
is confirmed, and it carries a confidence and the provenance of the decision.  Two mappings have
the same content when they agree in everything but identity, age and state, where confidences agree
when they are closer than the precision of numbers around one.
-/

namespace TierLineage

open TierLineage.Number

/-! ### Vocabulary -/

/-- Who decided on a mapping. -/
inductive Provenance where
  | manual
  | auto
  | promoted
  deriving Repr, DecidableEq, Inhabited

namespace Provenance

instance : Named Provenance where
  title := "provenance"
  all := [manual, auto, promoted]
  name
    | manual => "manual"
    | auto => "auto"
    | promoted => "promoted"

/-- Whether a person made the decision. -/
def userOwned (p : Provenance) : Bool :=
  p != auto

end Provenance

/-- Whether a mapping is a proposal or a decision. -/
inductive MappingState where
  | candidate
  | confirmed
  deriving Repr, DecidableEq, Inhabited

instance : Named MappingState where
  title := "mapping state"
  all := [.candidate, .confirmed]
  name
    | .candidate => "candidate"
    | .confirmed => "confirmed"

/-- A link from a table to its counterpart one tier on. -/
structure Mapping where
  identifier : Identifier
  hop : Hop
  source : Table
  target : Table
  confidence : Single
  provenance : Provenance
  state : MappingState
  createdAt : Instant
  notes : Option String
  deriving Repr, DecidableEq

/-- The precision of single-precision numbers around one. -/
def contentTolerance : Single :=
  Binary.ofRatio 1 0x800000

namespace Mapping

/-- A scored proposal. -/
def candidate (stamp : Stamp) (hop : Hop) (source target : Table) (confidence : Single) :
    Mapping where
  identifier := stamp.identifier
  hop := hop
  source := source
  target := target
  confidence := confidence.clamp (Binary.ofNat 0) (Binary.ofNat 1)
  provenance := .auto
  state := .candidate
  createdAt := stamp.now
  notes := none

/-- A decided mapping. -/
def decided (stamp : Stamp) (hop : Hop) (source target : Table) (confidence : Single)
    (provenance : Provenance) (notes : Option String) : Mapping :=
  { candidate stamp hop source target confidence with
    provenance := provenance, state := .confirmed, notes := notes }

/-- Whether a mapping is a decision. -/
def isConfirmed (m : Mapping) : Bool :=
  m.state == .confirmed

/-- Whether two mappings agree in everything but identity, age and state. -/
def sameContent (m n : Mapping) : Bool :=
  m.hop == n.hop && m.source == n.source && m.target == n.target &&
    m.provenance == n.provenance &&
    (m.confidence.sub n.confidence).abs.less contentTolerance &&
    m.notes == n.notes

/-! ### Data -/

/-- Read an identifier from data. -/
def readIdentifier : Json.Reader Identifier := fun v => do
  match Identifier.parse? (← Json.readText v) with
  | some i => return i
  | none => throw .mismatch

/-- Read a moment from data. -/
def readInstant : Json.Reader Instant := fun v => do
  match Instant.parse? (← Json.readText v) with
  | some t => return t
  | none => throw .mismatch

/-- Read a mapping from data. -/
def read : Json.Reader Mapping := fun v => do
  let found ← Json.fields false
    [Json.needs "mapping_id" readIdentifier, Json.needs "tier" (Named.read (α := Hop)),
     Json.needs "from" Table.read, Json.needs "to" Table.read,
     Json.needs "confidence" Json.readSingle,
     Json.needs "provenance" (Named.read (α := Provenance)),
     Json.needs "state" (Named.read (α := MappingState)), Json.needs "created_at" readInstant,
     Json.may "notes" (Json.readOption Json.readText)] v
  return {
    identifier := ← found.need "mapping_id" readIdentifier
    hop := ← found.need "tier" Named.read
    source := ← found.need "from" Table.read
    target := ← found.need "to" Table.read
    confidence := ← found.need "confidence" Json.readSingle
    provenance := ← found.need "provenance" Named.read
    state := ← found.need "state" Named.read
    createdAt := ← found.need "created_at" readInstant
    notes := ← found.option "notes" Json.readText }

/-- The data of a mapping; notes are written only where there are some. -/
def toJson (m : Mapping) : Json :=
  Json.obj ([("mapping_id", Json.str m.identifier.text), ("tier", Named.toJson m.hop),
    ("from", m.source.toJson), ("to", m.target.toJson), ("confidence", Json.single m.confidence),
    ("provenance", Named.toJson m.provenance), ("state", Named.toJson m.state),
    ("created_at", Json.str m.createdAt.text)] ++
    match m.notes with
    | some n => [("notes", Json.str n)]
    | none => [])

end Mapping

/-! ### Rows -/

/-- A mapping as a caller hands it in with others. -/
structure MappingRow where
  hop : Hop
  source : Table
  target : Table
  confidence : Option Single
  provenance : Option Provenance
  notes : Option String
  deriving Repr, DecidableEq

namespace MappingRow

/-- The decided mapping of a row: fully confident and manual unless it says otherwise. -/
def decided (stamp : Stamp) (r : MappingRow) : Mapping :=
  Mapping.decided stamp r.hop r.source r.target (r.confidence.getD (Binary.ofNat 1))
    (r.provenance.getD .manual) r.notes

/-- Read a row from data. -/
def read : Json.Reader MappingRow := fun v => do
  let found ← Json.fields false
    [Json.needs "tier" (Named.read (α := Hop)), Json.needs "from" Table.read,
     Json.needs "to" Table.read, Json.may "confidence" (Json.readOption Json.readSingle),
     Json.may "provenance" (Json.readOption (Named.read (α := Provenance))),
     Json.may "notes" (Json.readOption Json.readText)] v
  return {
    hop := ← found.need "tier" Named.read
    source := ← found.need "from" Table.read
    target := ← found.need "to" Table.read
    confidence := ← found.option "confidence" Json.readSingle
    provenance := ← found.option "provenance" Named.read
    notes := ← found.option "notes" Json.readText }

end MappingRow

end TierLineage
