import TierLineage.Store.Shelf
import TierLineage.Json.Printer

/-!
# The store in an ordered key space

A `Ledger` keeps slots and lineage records as data text in one key space of byte strings in
lexicographic order.  A key is joined from its parts by null characters; what belongs together has
a common start.  Every operation is one transaction: it reads, decides and writes, and if any of
its steps fails nothing is written.  Keys have a limited length, which only writing meets.
-/

namespace TierLineage

/-- Data texts by key. -/
structure Ledger where
  entries : Std.TreeMap String String

namespace Ledger

/-- A ledger that holds nothing. -/
def empty : Ledger := ⟨∅⟩

instance : Inhabited Ledger := ⟨empty⟩

/-! ### Keys -/

/-- Parts joined by null characters. -/
def joinKey : List String → String
  | [] => ""
  | [p] => p
  | p :: q :: ps => p ++ "\x00" ++ joinKey (q :: ps)

/-- How the keys of the slots of a hop start. -/
def hopStart (hop : Hop) : String :=
  joinKey ["map", hop.name] ++ "\x00"

/-- The key of a slot. -/
def slotKey (k : SlotKey) : String :=
  joinKey ["map", k.hop.name, k.source.connection.name, k.source.database, k.source.schema,
    k.source.name]

/-- How the keys of the records of a connection start. -/
def connectionStart (connection : String) : String :=
  joinKey ["lin", connection] ++ "\x00"

/-- The key of a record. -/
def recordKey (p : ProcedureId) : String :=
  joinKey ["lin", p.connection.name, p.name]

/-- The greatest length of a key in bytes. -/
def keyLimit : Nat := 511

/-- The failure of writing under a key that is too long. -/
def keyTooLong : Failure :=
  .storage (.transaction ("Transaction error: MDB_BAD_VALSIZE: " ++
    "Unsupported size of key/DB name/data, or wrong DUPFIXED size"))

/-- The failure of reading a text that does not hold what it should. -/
def unreadable : Failure :=
  .storage (.serialization "unreadable value")

/-! ### Texts -/

/-- Read a value from the text of an entry. -/
def decode {α : Type} (read : Json.Reader α) (text : String) : Outcome α :=
  match Json.decode read text with
  | .ok a => .ok a
  | .error _ => .error unreadable

/-- The value under a key. -/
def get? {α : Type} (l : Ledger) (read : Json.Reader α) (key : String) : Outcome (Option α) :=
  match l.entries[key]? with
  | some text => (decode read text).map some
  | none => .ok none

/-- Write a text under a key. -/
def put (l : Ledger) (key text : String) : Outcome Ledger :=
  if keyLimit < key.utf8ByteSize then .error keyTooLong
  else .ok ⟨l.entries.insert key text⟩

/-- The values whose keys have a common start, in the order of the keys. -/
def scan {α : Type} (l : Ledger) (read : Json.Reader α) (start : String) : Outcome (List α) :=
  (l.entries.toList.filter fun e => Text.startsWith e.1.toList start.toList).mapM
    fun e => decode read e.2

/-! ### Slots -/

/-- Read the slot under a key. -/
def slot (l : Ledger) (k : SlotKey) : Outcome Slot :=
  (l.get? Slot.read (slotKey k)).map (·.getD Slot.empty)

/-- Write a slot under a key; a slot in which nothing is known is removed. -/
def putSlot (l : Ledger) (k : SlotKey) (v : Slot) : Outcome Ledger :=
  if v.isEmpty then .ok ⟨l.entries.erase (slotKey k)⟩
  else l.put (slotKey k) (Json.compact v.toJson)

/-- Read, change and write a slot in one transaction. -/
def update {α : Type} (l : Ledger) (k : SlotKey) (change : Slot → Outcome (α × Slot)) :
    Outcome α × Ledger :=
  let result : Outcome (α × Ledger) := do
    let (a, v) ← change (← l.slot k)
    return (a, ← l.putSlot k v)
  match result with
  | .ok (a, l') => (.ok a, l')
  | .error e => (.error e, l)

/-- How slots are ordered in listings: by source table, without one first. -/
def slotLE (s t : Slot) : Bool :=
  match s.source?, t.source? with
  | none, _ => true
  | some _, none => false
  | some a, some b => (compare a b).isLE

/-- The slots of a hop, in the order of their source tables. -/
def slotsOf (l : Ledger) (hop : Hop) : Outcome (List Slot) :=
  (l.scan Slot.read (hopStart hop)).map (·.mergeSort slotLE)

/-- Confirm a mapping. -/
def confirm (l : Ledger) (m : Mapping) (mode : ConfirmMode) : Outcome Confirmation × Ledger :=
  l.update m.key (·.confirm m mode)

/-- Confirm one mapping of a batch inside its transaction. -/
def upsert (l : Ledger) (m : Mapping) : Outcome (Confirmation × Ledger) := do
  let (c, v) := (← l.slot m.key).overwrite m
  return (c, ← l.putSlot m.key v)

/-- Confirm a batch in one transaction. -/
def upsertAll (l : Ledger) (ms : List Mapping) : Outcome BatchCount × Ledger :=
  let step := fun (p : BatchCount × Ledger) (m : Mapping) => do
    let (c, l) ← p.2.upsert m
    return (p.1.add c, l)
  match ms.foldlM step (.zero, l) with
  | .ok (count, l') => (.ok count, l')
  | .error e => (.error e, l)

/-- The confirmed mapping under a key. -/
def confirmed? (l : Ledger) (k : SlotKey) : Outcome (Option Mapping) :=
  (l.slot k).map (·.confirmed)

/-- The confirmed mappings of a hop, in the order of their source tables. -/
def confirmed (l : Ledger) (hop : Hop) : Outcome (List Mapping) :=
  (l.slotsOf hop).map (·.filterMap (·.confirmed))

/-- The recorded candidates of a hop, in the order of their source tables. -/
def candidates (l : Ledger) (hop : Hop) : Outcome (List Mapping) :=
  (l.slotsOf hop).map (·.flatMap (·.candidates))

/-- Record candidates; tells whether they were taken. -/
def record (l : Ledger) (k : SlotKey) (ms : List Mapping) : Outcome Bool × Ledger :=
  l.update k fun s => .ok (s.record ms)

/-- Delete a confirmed mapping; tells whether there was one. -/
def delete (l : Ledger) (k : SlotKey) : Outcome Bool × Ledger :=
  l.update k fun s => .ok s.delete

/-! ### Records -/

/-- The record of a procedure. -/
def record? (l : Ledger) (p : ProcedureId) : Outcome (Option Record) :=
  l.get? Record.read (recordKey p)

/-- Keep a record, in place of any other for its procedure. -/
def putRecord (l : Ledger) (r : Record) : Outcome Unit × Ledger :=
  match l.put (recordKey r.identity) (Json.compact r.toJson) with
  | .ok l' => (.ok (), l')
  | .error e => (.error e, l)

/-- The records of a connection, in the order of their procedures. -/
def recordsOf (l : Ledger) (connection : String) : Outcome (List Record) :=
  l.scan Record.read (connectionStart connection)

/-- The stored digests of a connection by procedure name. -/
def hashesOf (l : Ledger) (connection : String) : Outcome (List (String × String)) :=
  (l.recordsOf connection).map (·.map fun r => (r.identity.name, r.definitionHash))

/-- Delete a record; tells whether there was one. -/
def deleteRecord (l : Ledger) (p : ProcedureId) : Bool × Ledger :=
  (l.entries.contains (recordKey p), ⟨l.entries.erase (recordKey p)⟩)

end Ledger

end TierLineage
