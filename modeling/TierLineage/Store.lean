import TierLineage.Store.Ledger

/-!
# Stores

Mappings and lineage records are kept in one of two ways: on a shelf in memory, which is lost when
the program ends, or in a ledger, which lasts.  Both answer the same operations.
-/

namespace TierLineage

/-- The two ways of keeping mappings and records. -/
inductive Backend where
  | memory
  | ledger
  deriving Repr, DecidableEq, Inhabited

/-- Mappings and lineage records. -/
inductive Store where
  | memory (shelf : Shelf)
  | ledger (ledger : Ledger)

namespace Store

/-- A store that holds nothing. -/
def empty : Backend → Store
  | .memory => memory Shelf.empty
  | .ledger => ledger Ledger.empty

instance : Inhabited Store := ⟨empty .memory⟩

/-- The store after the program was started again. -/
def reopen : Store → Store
  | memory _ => memory Shelf.empty
  | ledger l => ledger l

/-! ### Mappings -/

/-- Confirm a mapping. -/
def confirm (s : Store) (m : Mapping) (mode : ConfirmMode) : Outcome Confirmation × Store :=
  match s with
  | memory h => (h.confirm m mode).map id memory
  | ledger l => (l.confirm m mode).map id ledger

/-- Confirm a batch. -/
def upsertAll (s : Store) (ms : List Mapping) : Outcome BatchCount × Store :=
  match s with
  | memory h => (h.upsertAll ms).map .ok memory
  | ledger l => (l.upsertAll ms).map id ledger

/-- The confirmed mapping under a key. -/
def confirmed? (s : Store) (k : SlotKey) : Outcome (Option Mapping) :=
  match s with
  | memory h => .ok (h.confirmed? k)
  | ledger l => l.confirmed? k

/-- The confirmed mappings of a hop, in the order of their source tables. -/
def confirmed (s : Store) (hop : Hop) : Outcome (List Mapping) :=
  match s with
  | memory h => .ok (h.confirmed hop)
  | ledger l => l.confirmed hop

/-- The recorded candidates of a hop, in the order of their source tables. -/
def candidates (s : Store) (hop : Hop) : Outcome (List Mapping) :=
  match s with
  | memory h => .ok (h.candidates hop)
  | ledger l => l.candidates hop

/-- Record candidates; tells whether they were taken. -/
def record (s : Store) (k : SlotKey) (ms : List Mapping) : Outcome Bool × Store :=
  match s with
  | memory h => (h.record k ms).map .ok memory
  | ledger l => (l.record k ms).map id ledger

/-- Delete a confirmed mapping; tells whether there was one. -/
def delete (s : Store) (k : SlotKey) : Outcome Bool × Store :=
  match s with
  | memory h => (h.delete k).map .ok memory
  | ledger l => (l.delete k).map id ledger

/-! ### Records -/

/-- The record of a procedure. -/
def record? (s : Store) (p : ProcedureId) : Outcome (Option Record) :=
  match s with
  | memory h => .ok (h.record? p)
  | ledger l => l.record? p

/-- Keep a record, in place of any other for its procedure. -/
def putRecord (s : Store) (r : Record) : Outcome Unit × Store :=
  match s with
  | memory h => (.ok (), memory (h.putRecord r))
  | ledger l => (l.putRecord r).map id ledger

/-- The records of a connection, in the order of their procedures. -/
def recordsOf (s : Store) (connection : String) : Outcome (List Record) :=
  match s with
  | memory h => .ok (h.recordsOf connection)
  | ledger l => l.recordsOf connection

/-- The stored digests of a connection by procedure name. -/
def hashesOf (s : Store) (connection : String) : Outcome (List (String × String)) :=
  match s with
  | memory h => .ok (h.hashesOf connection)
  | ledger l => l.hashesOf connection

/-- Delete a record; tells whether there was one. -/
def deleteRecord (s : Store) (p : ProcedureId) : Outcome Bool × Store :=
  match s with
  | memory h => (h.deleteRecord p).map .ok memory
  | ledger l => (l.deleteRecord p).map .ok ledger

end Store

end TierLineage
