import Std.Data.TreeMap
import TierLineage.Mapping.Slot
import TierLineage.Lineage.Record

/-!
# The store in memory

A `Shelf` keeps slots by hop and source table, and lineage records by procedure.  A slot comes onto
the shelf with the first change under its key, even if nothing is known after it, and goes away when
a deletion leaves nothing in it.
-/

namespace TierLineage

/-- What a slot is kept under. -/
structure SlotKey where
  hop : Hop
  source : Table
  deriving Repr, DecidableEq

/-- Slots are ordered by hop and source table. -/
instance : Ord SlotKey where
  compare := compareLex (compareOn SlotKey.hop) (compareOn SlotKey.source)

/-- The key of a mapping. -/
def Mapping.key (m : Mapping) : SlotKey := ⟨m.hop, m.source⟩

/-- Slots and records, kept in memory. -/
structure Shelf where
  slots : Std.TreeMap SlotKey Slot
  records : Std.TreeMap ProcedureId Record

namespace Shelf

/-- A shelf that holds nothing. -/
def empty : Shelf := ⟨∅, ∅⟩

instance : Inhabited Shelf := ⟨empty⟩

/-! ### Slots -/

/-- The slot under a key. -/
def slot (s : Shelf) (k : SlotKey) : Slot :=
  (s.slots[k]?).getD Slot.empty

/-- Keep a slot under a key. -/
def putSlot (s : Shelf) (k : SlotKey) (v : Slot) : Shelf :=
  { s with slots := s.slots.insert k v }

/-- The slots of a hop, in the order of their source tables. -/
def slotsOf (s : Shelf) (hop : Hop) : List Slot :=
  (s.slots.toList.filter fun e => e.1.hop == hop).map Prod.snd

/-- Confirm a mapping. -/
def confirm (s : Shelf) (m : Mapping) (mode : ConfirmMode) : Outcome Confirmation × Shelf :=
  match (s.slot m.key).confirm m mode with
  | .ok (c, v) => (.ok c, s.putSlot m.key v)
  | .error e => (.error e, s)

/-- Confirm one mapping of a batch, whatever is confirmed already. -/
def upsert (s : Shelf) (m : Mapping) : Confirmation × Shelf :=
  let (c, v) := (s.slot m.key).overwrite m
  (c, s.putSlot m.key v)

/-- Confirm a batch. -/
def upsertAll (s : Shelf) (ms : List Mapping) : BatchCount × Shelf :=
  ms.foldl (fun (count, s) m => let (c, s) := s.upsert m; (count.add c, s)) (.zero, s)

/-- The confirmed mapping under a key. -/
def confirmed? (s : Shelf) (k : SlotKey) : Option Mapping :=
  (s.slot k).confirmed

/-- The confirmed mappings of a hop, in the order of their source tables. -/
def confirmed (s : Shelf) (hop : Hop) : List Mapping :=
  (s.slotsOf hop).filterMap (·.confirmed)

/-- The recorded candidates of a hop, in the order of their source tables. -/
def candidates (s : Shelf) (hop : Hop) : List Mapping :=
  (s.slotsOf hop).flatMap (·.candidates)

/-- Record candidates; tells whether they were taken. -/
def record (s : Shelf) (k : SlotKey) (ms : List Mapping) : Bool × Shelf :=
  let (taken, v) := (s.slot k).record ms
  (taken, s.putSlot k v)

/-- Delete a confirmed mapping; tells whether there was one. -/
def delete (s : Shelf) (k : SlotKey) : Bool × Shelf :=
  match s.slots[k]? with
  | some v =>
    let (found, v) := v.delete
    (found, if v.isEmpty then { s with slots := s.slots.erase k } else s.putSlot k v)
  | none => (false, s)

/-! ### Records -/

/-- The record of a procedure. -/
def record? (s : Shelf) (p : ProcedureId) : Option Record :=
  s.records[p]?

/-- Keep a record, in place of any other for its procedure. -/
def putRecord (s : Shelf) (r : Record) : Shelf :=
  { s with records := s.records.insert r.identity r }

/-- The records of a connection, in the order of their procedures. -/
def recordsOf (s : Shelf) (connection : String) : List Record :=
  (s.records.toList.filter fun e => e.1.connection.name == connection).map Prod.snd

/-- The stored digests of a connection by procedure name. -/
def hashesOf (s : Shelf) (connection : String) : List (String × String) :=
  (s.records.toList.filter fun e => e.1.connection.name == connection).map
    fun e => (e.1.name, e.2.definitionHash)

/-- Delete a record; tells whether there was one. -/
def deleteRecord (s : Shelf) (p : ProcedureId) : Bool × Shelf :=
  ((s.record? p).isSome, { s with records := s.records.erase p })

end Shelf

end TierLineage
