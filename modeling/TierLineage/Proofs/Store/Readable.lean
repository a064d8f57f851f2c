import TierLineage.Proofs.Outcome
import TierLineage.Proofs.Store.Accounting

/-!
# Ledgers that can be read

A ledger can be read if all its slots are, and if each of them is read back once it is written
again.  It stays so whatever tables are called, also those that share a key, and wherever a write
fails, if the mappings that are written are legible.  So a batch fails in it only if a key is too
long.
-/

namespace TierLineage

/-! ### Slots -/

namespace Slot

variable {v w : Slot} {m : Mapping} {mode : ConfirmMode} {c : Confirmation}

theorem legible_empty : empty.Legible where
  confirmed m hm := by cases hm
  candidates m hm := by cases hm

theorem legible_holding (hm : m.Legible) : (holding m).Legible :=
  (of_holding (k := m.key) ⟨hm, rfl⟩).legible

/-- Confirming a legible mapping leaves a legible slot. -/
theorem Legible.confirms (hv : v.Legible) (hm : m.Legible) (h : v.Confirms m mode c w) :
    w.Legible := by
  cases h with
  | created _ => exact legible_holding hm.asConfirmed
  | @replaced p hp _ =>
    refine legible_holding ?_
    rw [successor]
    split
    · exact ⟨(hv.confirmed p hp).identifier_lt, hm.confidence_eq, hm.createdAt_valid⟩
    · exact hm.asConfirmed
  | unchanged _ _ _ => exact hv

theorem Legible.record (hv : v.Legible) {ms : List Mapping} (hms : ∀ m ∈ ms, m.Legible) :
    (v.record ms).2.Legible := by
  rw [Slot.record]
  split
  · exact hv
  · refine ⟨hv.confirmed, fun n hn => ?_⟩
    obtain ⟨m, hm, rfl⟩ := List.mem_map.mp hn
    exact (hms m hm).asCandidate

theorem Legible.delete (hv : v.Legible) : v.delete.2.Legible where
  confirmed m hm := by cases hm
  candidates := hv.candidates

end Slot

/-! ### Ledgers -/

namespace Ledger

variable {l l' : Ledger} {k : SlotKey} {v : Slot} {m : Mapping} {ms : List Mapping}

/-- Whether all slots of a ledger can be read, and are read back once they are written again. -/
def Readable (l : Ledger) : Prop :=
  ∀ k, ∃ v, l.slot k = .ok v ∧ v.Legible

theorem readable_empty : empty.Readable := fun _ => ⟨Slot.empty, rfl, Slot.legible_empty⟩

/-- What is kept under the keys of slots decides whether a ledger can be read. -/
theorem Readable.congr (hl : l.Readable)
    (h : ∀ k, l'.entries[slotKey k]? = l.entries[slotKey k]?) : l'.Readable := by
  intro k
  obtain ⟨v, hv, hlegible⟩ := hl k
  refine ⟨v, ?_, hlegible⟩
  rw [slot, get?, h]
  exact hv

/-- Writing a legible slot changes it for all tables that share its key. -/
theorem Readable.putSlot (hl : l.Readable) (hv : v.Legible) (hput : l.putSlot k v = .ok l') :
    l'.Readable := by
  intro j
  by_cases hj : slotKey j = slotKey k
  · refine ⟨v, slot_of_text? ?_ hv, hv⟩
    rw [entries_putSlot hput, if_pos hj]
  · obtain ⟨w, hw, hlegible⟩ := hl j
    refine ⟨w, ?_, hlegible⟩
    rw [slot, get?, entries_putSlot hput, if_neg hj]
    exact hw

theorem Readable.update {α : Type} (hl : l.Readable) {change : Slot → Outcome (α × Slot)}
    (hchange : ∀ {v aw}, v.Legible → change v = .ok aw → aw.2.Legible) :
    (l.update k change).2.Readable := by
  rcases l.update_cases k change with ⟨e, heq⟩ | ⟨v, a, w, l', hv, hc, hput, heq⟩
  · rwa [heq]
  · obtain ⟨v', hv', hlegible⟩ := hl k
    obtain rfl := Except.ok.inj (hv.symm.trans hv')
    rw [heq]
    exact hl.putSlot (hchange hlegible hc) hput

/-! ### Batches -/

/-- One mapping of a batch, with the count so far. -/
def batchStep (p : BatchCount × Ledger) (m : Mapping) : Outcome (BatchCount × Ledger) := do
  let (c, l) ← p.2.upsert m
  return (p.1.add c, l)

theorem upsertAll_eq (l : Ledger) (ms : List Mapping) : l.upsertAll ms =
    match ms.foldlM batchStep (.zero, l) with
    | .ok (count, l') => (.ok count, l')
    | .error e => (.error e, l) := rfl

theorem batchStep_eq_ok {p p' : BatchCount × Ledger} : batchStep p m = .ok p' ↔
    ∃ c l', p.2.upsert m = .ok (c, l') ∧ p' = (p.1.add c, l') := by
  rw [batchStep, bind_eq_ok]
  constructor
  · rintro ⟨⟨c, l'⟩, hupsert, heq⟩
    exact ⟨c, l', hupsert, (Except.ok.inj heq).symm⟩
  · rintro ⟨c, l', hupsert, rfl⟩
    exact ⟨(c, l'), hupsert, rfl⟩

theorem Readable.upsert (hl : l.Readable) (hm : m.Legible) {c : Confirmation}
    (h : l.upsert m = .ok (c, l')) : l'.Readable := by
  obtain ⟨v, hv, hput, -⟩ := upsert_eq_ok.mp h
  obtain ⟨v', hv', hlegible⟩ := hl m.key
  obtain rfl := Except.ok.inj (hv.symm.trans hv')
  exact hl.putSlot (hlegible.confirms hm (v.confirms_overwrite m)) hput

theorem Readable.upsertAll (hl : l.Readable) (hms : ∀ m ∈ ms, m.Legible) :
    (l.upsertAll ms).2.Readable := by
  rw [upsertAll_eq]
  split
  · next hfold =>
    refine foldlM_invariant (I := fun p => p.2.Readable) (fun m hm p p' hp hstep => ?_) hl hfold
    obtain ⟨c, l₁, hupsert, rfl⟩ := batchStep_eq_ok.mp hstep
    exact hp.upsert (hms m hm) hupsert
  · exact hl

/-- A mapping is confirmed in a ledger that can be read, if its key is not too long. -/
theorem Readable.exists_upsert (hl : l.Readable)
    (hfits : (slotKey m.key).utf8ByteSize ≤ keyLimit) : ∃ c l', l.upsert m = .ok (c, l') := by
  obtain ⟨v, hv, -⟩ := hl m.key
  obtain ⟨l', hput⟩ := l.putSlot_of_fits hfits (v.overwrite m).2
  exact ⟨(v.overwrite m).1, l', upsert_eq_ok.mpr ⟨v, hv, hput, rfl⟩⟩

/-- A batch is confirmed in a ledger that can be read, if no key is too long. -/
theorem Readable.exists_upsertAll (hl : l.Readable)
    (hms : ∀ m ∈ ms, (slotKey m.key).utf8ByteSize ≤ keyLimit ∧ m.Legible) :
    ∃ n l', l.upsertAll ms = (.ok n, l') := by
  -- whatever was counted before, a mapping leaves a ledger that can be read to the next one
  have hfold : ∀ n, ∃ n' l', ms.foldlM batchStep (n, l) = .ok (n', l') := by
    induction ms generalizing l with
    | nil => exact fun n => ⟨n, l, rfl⟩
    | cons m ms ih =>
      intro n
      obtain ⟨⟨hfits, hm⟩, hms⟩ := List.forall_mem_cons.mp hms
      obtain ⟨c, l₁, hupsert⟩ := hl.exists_upsert hfits
      obtain ⟨n', l', hrest⟩ := ih (hl.upsert hm hupsert) hms (n.add c)
      rw [List.foldlM_cons]
      exact ⟨n', l', bind_eq_ok.mpr ⟨_, batchStep_eq_ok.mpr ⟨c, l₁, hupsert, rfl⟩, hrest⟩⟩
  obtain ⟨n', l', h⟩ := hfold .zero
  rw [upsertAll_eq, h]
  exact ⟨n', l', rfl⟩

end Ledger

/-! ### Stores -/

/-- Whether what is written by an operation is legible. -/
def Operation.Legible : Operation → Prop
  | confirm m _ => m.Legible
  | upsertAll ms => ∀ m ∈ ms, m.Legible
  | record _ ms => ∀ m ∈ ms, m.Legible
  | _ => True

namespace Store

/-- Whether the slots of a store can be read; those on a shelf always can. -/
def Readable : Store → Prop
  | memory _ => True
  | ledger l => l.Readable

variable {s : Store}

theorem readable_empty (b : Backend) : (empty b).Readable := by
  cases b with
  | memory => trivial
  | ledger => exact Ledger.readable_empty

theorem readable_of_memory (h : s.backend = .memory) : s.Readable := by
  cases s with
  | memory _ => trivial
  | ledger _ => cases h

/-- An operation leaves a store that can be read, also if it fails. -/
theorem Readable.perform (hs : s.Readable) {op : Operation} (hop : op.Legible) :
    (s.perform op).2.Readable := by
  cases s with
  | memory h =>
    obtain ⟨h', hh'⟩ := perform_memory h op
    rw [hh']
    trivial
  | ledger l =>
    have hl : l.Readable := hs
    cases op with
    | confirm m mode =>
      exact hl.update fun hv hc => hv.confirms hop (Slot.confirm_eq_ok_iff.mp hc)
    | upsertAll ms => exact hl.upsertAll hop
    | record k ms => exact hl.update fun hv hc => Except.ok.inj hc ▸ hv.record hop
    | delete k => exact hl.update fun hv hc => Except.ok.inj hc ▸ hv.delete
    -- records have keys of their own
    | putRecord r =>
      change (ledger (l.putRecord r).2).Readable
      rw [Ledger.putRecord, Ledger.put]
      split
      · next hput =>
        split at hput
        · cases hput
        · cases hput
          refine hl.congr fun k => ?_
          exact (getElem?_insert_eq _ _ _ _).trans (if_neg (Ledger.slotKey_ne_recordKey k _))
      · exact hl
    | deleteRecord p =>
      refine hl.congr fun k => ?_
      exact (getElem?_erase_eq _ _ _).trans (if_neg (Ledger.slotKey_ne_recordKey k p))
    | confirmed? k => exact hl
    | confirmed hop => exact hl
    | candidates hop => exact hl
    | record? p => exact hl
    | recordsOf a => exact hl
    | hashesOf a => exact hl

/-- Whatever was asked of a store that started empty, it can be read. -/
theorem readable_after (b : Backend) {ops : List Operation} (hops : ∀ op ∈ ops, op.Legible) :
    ((empty b).after ops).Readable := by
  have hafter : ∀ {s : Store}, s.Readable → (s.after ops).Readable := by
    induction ops with
    | nil => exact fun hs => hs
    | cons op ops ih =>
      intro s hs
      obtain ⟨hop, hops⟩ := List.forall_mem_cons.mp hops
      exact ih hops (hs.perform hop)
  exact hafter (readable_empty b)

/-- Whatever was asked of a store that started empty, it can be read, in memory without any condition. -/
theorem readable_of_after (b : Backend) {ops : List Operation}
    (hops : b = .ledger → ∀ op ∈ ops, op.Legible) : ((empty b).after ops).Readable := by
  cases b with
  | memory =>
    obtain ⟨shelf, hshelf⟩ := after_memory .empty ops
    rw [empty, hshelf]
    trivial
  | ledger => exact readable_after .ledger (hops rfl)

/-- A store that can be read confirms a batch of mappings that it keeps. -/
theorem Readable.exists_upsertAll (hs : s.Readable) {ms : List Mapping}
    (hms : ∀ m ∈ ms, s.Keeps m.key (Slot.holding m)) : ∃ n s', s.upsertAll ms = (.ok n, s') := by
  cases s with
  | memory h => exact ⟨_, _, rfl⟩
  | ledger l =>
    have hl : l.Readable := hs
    obtain ⟨n, l', h⟩ := hl.exists_upsertAll fun m hm =>
      ⟨(hms m hm rfl).1, (hms m hm rfl).2.confirmed m rfl⟩
    refine ⟨n, ledger l', ?_⟩
    rw [upsertAll, h]
    rfl

end Store

end TierLineage
