import TierLineage.Proofs.Store.Readable

/-!
# Ledgers without other keys

A ledger lists the slots of a hop and the records of a connection by the texts under all keys that
start like them, so it matters that no other keys than those of slots and records are ever in it.
Every operation keeps it so, whatever tables are called and wherever a write fails.
-/

namespace TierLineage

open TierLineage.Text

/-! ### What operations keep -/

namespace Ledger

variable {I : Ledger → Prop} {l l' : Ledger} {k : SlotKey} {v : Slot}

section Keep

variable (hslot : ∀ {l l' : Ledger} {k : SlotKey} {v : Slot}, I l → l.putSlot k v = .ok l' → I l')

include hslot

/-- What writing a slot keeps, every change of a slot keeps. -/
theorem keep_update {α : Type} (hl : I l) (change : Slot → Outcome (α × Slot)) :
    I (l.update k change).2 := by
  rcases l.update_cases k change with ⟨e, heq⟩ | ⟨v, a, w, l', -, -, hput, heq⟩
  · rwa [heq]
  · rw [heq]
    exact hslot hl hput

theorem keep_upsertAll (hl : I l) (ms : List Mapping) : I (l.upsertAll ms).2 := by
  rw [upsertAll_eq]
  split
  · next hfold =>
    refine foldlM_invariant (I := fun p => I p.2) (fun m _ p p' hp hstep => ?_) hl hfold
    obtain ⟨c, l₁, hupsert, rfl⟩ := batchStep_eq_ok.mp hstep
    obtain ⟨v, -, hput, -⟩ := upsert_eq_ok.mp hupsert
    exact hslot hp hput
  · exact hl

/-- What writing a slot, putting a record and deleting one keep, an operation keeps, also if it
fails. -/
theorem keep_perform {op : Operation} (hput : ∀ r, op = .putRecord r → I l → I (l.putRecord r).2)
    (hdelete : ∀ p, I l → I (l.deleteRecord p).2) (hl : I l) :
    ∃ l', ((Store.ledger l).perform op).2 = .ledger l' ∧ I l' := by
  cases op with
  | confirm m mode => exact ⟨_, rfl, keep_update hslot hl _⟩
  | upsertAll ms => exact ⟨_, rfl, keep_upsertAll hslot hl ms⟩
  | record k ms => exact ⟨_, rfl, keep_update hslot hl _⟩
  | delete k => exact ⟨_, rfl, keep_update hslot hl _⟩
  | putRecord r => exact ⟨_, rfl, hput r rfl hl⟩
  | deleteRecord p => exact ⟨_, rfl, hdelete p hl⟩
  | confirmed? k => exact ⟨l, rfl, hl⟩
  | confirmed hop => exact ⟨l, rfl, hl⟩
  | candidates hop => exact ⟨l, rfl, hl⟩
  | record? p => exact ⟨l, rfl, hl⟩
  | recordsOf a => exact ⟨l, rfl, hl⟩
  | hashesOf a => exact ⟨l, rfl, hl⟩

end Keep

/-! ### Ledgers -/

/-- Whether a ledger has no other keys than those of slots and records. -/
def Keyed (l : Ledger) : Prop :=
  ∀ key text : String, l.entries[key]? = some text →
    (∃ k, key = slotKey k) ∨ ∃ p, key = recordKey p

theorem keyed_empty : empty.Keyed := fun _ _ h => by cases h

theorem Keyed.putSlot (hl : l.Keyed) (hput : l.putSlot k v = .ok l') : l'.Keyed := by
  intro key text hkey
  rw [entries_putSlot hput] at hkey
  split at hkey
  · next heq => exact .inl ⟨k, heq⟩
  · exact hl key text hkey

theorem Keyed.putRecord (hl : l.Keyed) (r : Record) : (l.putRecord r).2.Keyed := by
  rcases l.putRecord_cases r with hput | hput
  · rw [hput]
    intro key text hkey
    rw [getElem?_insert_eq] at hkey
    split at hkey
    · next heq => exact .inr ⟨_, heq⟩
    · exact hl key text hkey
  · rwa [hput]

theorem Keyed.deleteRecord (hl : l.Keyed) (p : ProcedureId) : (l.deleteRecord p).2.Keyed := by
  intro key text hkey
  have herase : (l.entries.erase (recordKey p))[key]? = some text := hkey
  rw [getElem?_erase_eq] at herase
  split at herase
  · cases herase
  · exact hl key text herase

/-- What starts like a hop is the text of one of its slots. -/
theorem Keyed.slot_of_starting (hl : l.Keyed) {hop : Hop} {key text : String}
    (h : (key, text) ∈ l.starting (hopStart hop)) :
    ∃ k, key = slotKey k ∧ l.slot k = decode Slot.read text := by
  obtain ⟨hkey, hstart⟩ := mem_starting.mp h
  rcases hl key text hkey with ⟨k, rfl⟩ | ⟨p, rfl⟩
  · refine ⟨k, rfl, ?_⟩
    rw [slot, get?, hkey]
    cases hdecode : decode Slot.read text <;> simp [hdecode, Except.map]
  · rw [not_startsWith_recordKey] at hstart
    cases hstart

/-- A slot of a hop is found under one of its keys. -/
theorem Keyed.slot_of_mem_slotsOf (hl : l.Keyed) {hop : Hop} {vs : List Slot}
    (h : l.slotsOf hop = .ok vs) (hv : v ∈ vs) : ∃ k, k.hop = hop ∧ l.slot k = .ok v := by
  obtain ⟨us, hscan, rfl⟩ := map_eq_ok.mp h
  obtain ⟨⟨key, text⟩, hstarting, hdecode⟩ := (mem_of_mapM hscan).mp (List.mem_mergeSort.mp hv)
  obtain ⟨k, rfl, hslot⟩ := hl.slot_of_starting hstarting
  exact ⟨k, (startsWith_slotKey k hop).mp (mem_starting.mp hstarting).2, hslot.trans hdecode⟩

end Ledger

/-! ### Stores -/

namespace Store

/-- Whether a store has no other keys than those of slots and records. -/
def Keyed : Store → Prop
  | memory _ => True
  | ledger l => l.Keyed

variable {s : Store}

/-- An operation brings no other keys, also if it fails. -/
theorem Keyed.perform (hs : s.Keyed) (op : Operation) : (s.perform op).2.Keyed := by
  cases s with
  | memory h =>
    obtain ⟨h', hh'⟩ := perform_memory h op
    rw [hh']
    trivial
  | ledger l =>
    obtain ⟨l', hl', hkeyed⟩ := Ledger.keep_perform Ledger.Keyed.putSlot
      (fun r _ hl => hl.putRecord r) (fun p hl => hl.deleteRecord p) hs
    rw [hl']
    exact hkeyed

theorem Keyed.after (hs : s.Keyed) (ops : List Operation) : (s.after ops).Keyed := by
  induction ops generalizing s with
  | nil => exact hs
  | cons op ops ih => exact ih (hs.perform op)

/-- Whatever was asked of a store that started empty, it has no other keys. -/
theorem keyed_after (b : Backend) (ops : List Operation) : ((empty b).after ops).Keyed := by
  have hempty : (empty b).Keyed := by
    cases b with
    | memory => trivial
    | ledger => exact Ledger.keyed_empty
  exact hempty.after ops

/-- The slots of a hop are found under its keys. -/
theorem Keyed.slot_of_mem_slotsOf (hs : s.Keyed) {hop : Hop} {vs : List Slot}
    (h : s.slotsOf hop = .ok vs) {v : Slot} (hv : v ∈ vs) : ∃ k, k.hop = hop ∧ s.slot k = .ok v := by
  cases s with
  | memory shelf =>
    obtain rfl := Except.ok.inj h
    obtain ⟨t, ht⟩ := Shelf.mem_slotsOf.mp hv
    exact ⟨⟨hop, t⟩, rfl, congrArg Except.ok (Shelf.slot_of_getElem? ht)⟩
  | ledger l => exact Ledger.Keyed.slot_of_mem_slotsOf hs h hv

/-- A confirmed mapping that is listed for a hop is in the slot of one of its keys. -/
theorem Keyed.slot_of_mem_confirmed (hs : s.Keyed) {hop : Hop} {ms : List Mapping}
    (h : s.confirmed hop = .ok ms) {m : Mapping} (hm : m ∈ ms) :
    ∃ k v, k.hop = hop ∧ s.slot k = .ok v ∧ v.confirmed = some m := by
  rw [Store.confirmed_eq] at h
  obtain ⟨vs, hvs, rfl⟩ := map_eq_ok.mp h
  obtain ⟨v, hv, hm⟩ := List.mem_filterMap.mp hm
  obtain ⟨k, hk, hslot⟩ := hs.slot_of_mem_slotsOf hvs hv
  exact ⟨k, v, hk, hslot, hm⟩

theorem Keyed.slot_of_mem_candidates (hs : s.Keyed) {hop : Hop} {ms : List Mapping}
    (h : s.candidates hop = .ok ms) {m : Mapping} (hm : m ∈ ms) :
    ∃ k v, k.hop = hop ∧ s.slot k = .ok v ∧ m ∈ v.candidates := by
  rw [Store.candidates_eq] at h
  obtain ⟨vs, hvs, rfl⟩ := map_eq_ok.mp h
  obtain ⟨v, hv, hm⟩ := List.mem_flatMap.mp hm
  obtain ⟨k, hk, hslot⟩ := hs.slot_of_mem_slotsOf hvs hv
  exact ⟨k, v, hk, hslot, hm⟩

end Store

end TierLineage
