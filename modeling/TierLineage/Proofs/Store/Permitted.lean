import TierLineage.Proofs.Store.Echo
import TierLineage.Proofs.Store.Keyed
import TierLineage.Proofs.Store.Lawful

/-!
# What stores keep is permitted

If only mappings with a confidence between zero and one are written, whose tables have what is asked
of them, then a store keeps no others, and it keeps each of them in the slot of its key.  That holds of
every ledger too: keys with one text share a slot, mappings come back from their texts as echoes, and
writes may fail; none of it lets anything else in.  As always a decision ends the proposals of its
slot.
-/

namespace TierLineage

/-- Whether a way of keeping has one slot for two keys: in a ledger these are keys with one text. -/
def Backend.Shares : Backend → SlotKey → SlotKey → Prop
  | memory, j, k => j = k
  | ledger, j, k => Ledger.slotKey j = Ledger.slotKey k

namespace Backend

variable {b : Backend} {i j k : SlotKey}

theorem shares_refl (b : Backend) (k : SlotKey) : b.Shares k k := by
  cases b <;> rfl

theorem Shares.trans (h : b.Shares i j) (h' : b.Shares j k) : b.Shares i k := by
  cases b <;> exact Eq.trans h h'

theorem Shares.symm (h : b.Shares j k) : b.Shares k j := by
  cases b <;> exact Eq.symm h

theorem Shares.hop_eq (h : b.Shares j k) : j.hop = k.hop := by
  cases b with
  | memory => exact congrArg SlotKey.hop h
  | ledger => exact (Ledger.slotKey_parts h).1

end Backend

/-! ### Slots -/

/-- Whether a mapping may be kept in the slot of a key. -/
structure Mapping.Permitted (m : Mapping) (b : Backend) (P : SlotKey → Table → Prop)
    (k : SlotKey) : Prop where
  shares : b.Shares m.key k
  permits : P m.key m.target
  inUnit : m.confidence.InUnit

/-- Whether a slot of a key has permitted mappings only, of which automatic ones are proposed until
one is decided on. -/
structure Slot.Permitted (v : Slot) (b : Backend) (P : SlotKey → Table → Prop) (k : SlotKey) :
    Prop where
  confirmed : ∀ m ∈ v.confirmed, m.Permitted b P k
  candidates : ∀ m ∈ v.candidates, m.Permitted b P k ∧ m.provenance = .auto
  exclusive : v.confirmed.isSome = true → v.candidates = []

variable {b : Backend} {P : SlotKey → Table → Prop} {k : SlotKey}

/-- What is read from the text of a permitted mapping is permitted. -/
theorem Mapping.Permitted.echo {m n : Mapping} (hm : m.Permitted b P k) (h : m.Echoes n) :
    n.Permitted b P k where
  shares := h.key_eq ▸ hm.shares
  permits := by
    rw [h.key_eq, h.target_eq]
    exact hm.permits
  inUnit := by
    obtain ⟨y, hy, hunit⟩ := (Json.single_inUnit hm.inUnit).2
    rw [h.confidence_eq] at hy
    exact Except.ok.inj hy ▸ hunit

namespace Slot

variable {v w : Slot} {m p : Mapping} {mode : ConfirmMode} {c : Confirmation}

theorem permitted_empty : empty.Permitted b P k where
  confirmed m hm := by cases hm
  candidates m hm := by cases hm
  exclusive _ := rfl

theorem permitted_holding (hm : m.Permitted b P k) : (holding m).Permitted b P k where
  confirmed n hn := by
    obtain rfl : m = n := Option.some.inj hn
    exact hm
  candidates n hn := by cases hn
  exclusive _ := rfl

theorem permitted_successor (hm : m.Permitted b P k) : (successor p m).Permitted b P k := by
  rw [successor]
  split
  · exact ⟨hm.shares, hm.permits, hm.inUnit⟩
  · exact hm

/-- Confirming a permitted mapping leaves a permitted slot. -/
theorem Permitted.confirms (hv : v.Permitted b P k) (hm : m.Permitted b P k)
    (h : v.Confirms m mode c w) : w.Permitted b P k := by
  have hm' : (asConfirmed m).Permitted b P k := ⟨hm.shares, hm.permits, hm.inUnit⟩
  cases h with
  | created _ => exact permitted_holding hm'
  | replaced _ _ => exact permitted_holding (permitted_successor hm')
  | unchanged _ _ _ => exact hv

theorem Permitted.record (hv : v.Permitted b P k) {ms : List Mapping}
    (hms : ∀ m ∈ ms, m.Permitted b P k ∧ m.provenance = .auto) : (v.record ms).2.Permitted b P k := by
  rw [Slot.record]
  split
  · exact hv
  · next hnone =>
    refine ⟨hv.confirmed, fun n hn => ?_, fun hsome => absurd hsome hnone⟩
    obtain ⟨m, hm, rfl⟩ := List.mem_map.mp hn
    obtain ⟨hpermitted, hauto⟩ := hms m hm
    exact ⟨⟨hpermitted.shares, hpermitted.permits, hpermitted.inUnit⟩, hauto⟩

theorem Permitted.delete (hv : v.Permitted b P k) : v.delete.2.Permitted b P k where
  confirmed m hm := by cases hm
  candidates := hv.candidates
  exclusive h := by cases h

/-- Keys that share a slot permit the same of it. -/
theorem Permitted.shares {j : SlotKey} (hv : v.Permitted b P k) (h : b.Shares k j) :
    v.Permitted b P j where
  confirmed m hm :=
    have hm := hv.confirmed m hm
    ⟨hm.shares.trans h, hm.permits, hm.inUnit⟩
  candidates m hm :=
    have ⟨hm, hauto⟩ := hv.candidates m hm
    ⟨⟨hm.shares.trans h, hm.permits, hm.inUnit⟩, hauto⟩
  exclusive := hv.exclusive

/-- What is read from the text of a permitted slot is permitted. -/
theorem Permitted.echo (hv : v.Permitted b P k) (h : v.Echoes w) : w.Permitted b P k := by
  refine ⟨fun n hn => ?_, fun n hn => ?_, fun hsome => ?_⟩
  · obtain ⟨m, hm, hmn⟩ := h.exists_confirmed hn
    exact (hv.confirmed m hm).echo hmn
  · obtain ⟨m, hm, hmn⟩ := h.exists_candidate hn
    obtain ⟨hpermitted, hauto⟩ := hv.candidates m hm
    exact ⟨hpermitted.echo hmn, hmn.provenance_eq.trans hauto⟩
  · obtain ⟨n, hn⟩ := Option.isSome_iff_exists.mp hsome
    obtain ⟨m, hm, -⟩ := h.exists_confirmed hn
    refine List.eq_nil_iff_forall_not_mem.mpr fun n' hn' => ?_
    obtain ⟨m', hm', -⟩ := h.exists_candidate hn'
    rw [hv.exclusive (by rw [hm]; rfl)] at hm'
    cases hm'

end Slot

/-! ### Shelves and ledgers -/

namespace Shelf

/-- Whether all slots of a shelf are permitted. -/
def Permitted (s : Shelf) (P : SlotKey → Table → Prop) : Prop :=
  ∀ k, (s.slot k).Permitted .memory P k

variable {s s' : Shelf} {v : Slot} {m : Mapping}

theorem Permitted.sets (h : s.Permitted P) (hv : v.Permitted .memory P k) (hs : s.Sets k v s') :
    s'.Permitted P := by
  intro j
  rw [hs.slot_eq]
  split
  · next hj => exact hj ▸ hv
  · exact h j

theorem Permitted.confirm (h : s.Permitted P) (hm : m.Permitted .memory P m.key)
    (mode : ConfirmMode) : (s.confirm m mode).2.Permitted P := by
  rcases s.confirm_cases m mode with ⟨e, heq⟩ | ⟨c, v, hc, heq⟩
  · rwa [heq]
  · rw [heq]
    exact h.sets ((h m.key).confirms hm hc) (s.sets_putSlot m.key v)

theorem Permitted.upsertAll (h : s.Permitted P) {ms : List Mapping}
    (hms : ∀ m ∈ ms, m.Permitted .memory P m.key) : (s.upsertAll ms).2.Permitted P := by
  rw [Shelf.upsertAll]
  generalize BatchCount.zero = n
  induction ms generalizing n s with
  | nil => exact h
  | cons m ms ih =>
    obtain ⟨hm, hms⟩ := List.forall_mem_cons.mp hms
    obtain ⟨c, v, hc, heq⟩ := s.upsert_cases m
    refine ih (s := (s.upsert m).2) ?_ hms (n.add (s.upsert m).1)
    rw [heq]
    exact h.sets ((h m.key).confirms hm hc) (s.sets_putSlot m.key v)

end Shelf

namespace Ledger

/-- Whether all slots of a ledger that can be read are permitted. -/
def Permitted (l : Ledger) (P : SlotKey → Table → Prop) : Prop :=
  ∀ k v, l.slot k = .ok v → v.Permitted .ledger P k

variable {l l' : Ledger} {v w : Slot} {m : Mapping}

/-- What is kept under the keys of slots decides what is permitted. -/
theorem Permitted.congr (hl : l.Permitted P)
    (h : ∀ k, l'.entries[slotKey k]? = l.entries[slotKey k]?) : l'.Permitted P := by
  intro k v hv
  refine hl k v ?_
  rw [slot, get?, ← h]
  exact hv

/-- What is found under the key of a slot that was written is an echo of it. -/
theorem Permitted.putSlot (hl : l.Permitted P) (hv : v.Permitted .ledger P k)
    (hput : l.putSlot k v = .ok l') : l'.Permitted P := by
  intro j w hw
  have hentry := entries_putSlot hput (slotKey j)
  by_cases hkey : slotKey j = slotKey k
  · have hshares : Backend.ledger.Shares k j := hkey.symm
    refine Slot.Permitted.shares ?_ hshares
    rw [slot, get?, hentry, if_pos hkey, Slot.text?] at hw
    cases hempty : v.isEmpty with
    | true =>
      rw [hempty] at hw
      cases hw
      exact Slot.permitted_empty
    | false =>
      cases hdecode : decode Slot.read (Json.compact v.toJson) with
      | error e => simp [hempty, hdecode, Except.map] at hw
      | ok u =>
        simp only [hempty, hdecode, Except.map, Bool.false_eq_true, if_false, Option.getD_some,
          Except.ok.injEq] at hw
        subst hw
        exact hv.echo (Slot.echoes_of_decode (fun m hm => (hv.confirmed m hm).inUnit)
          (fun m hm => (hv.candidates m hm).1.inUnit) hdecode)
  · refine hl j w ?_
    rw [slot, get?, hentry, if_neg hkey] at hw
    exact hw

theorem Permitted.update {α : Type} (hl : l.Permitted P) {change : Slot → Outcome (α × Slot)}
    (hchange : ∀ {v aw}, v.Permitted .ledger P k → change v = .ok aw → aw.2.Permitted .ledger P k) :
    (l.update k change).2.Permitted P := by
  rcases l.update_cases k change with ⟨e, heq⟩ | ⟨v, a, w, l', hv, hc, hput, heq⟩
  · rwa [heq]
  · rw [heq]
    exact hl.putSlot (hchange (hl k v hv) hc) hput

theorem Permitted.upsertAll (hl : l.Permitted P) {ms : List Mapping}
    (hms : ∀ m ∈ ms, m.Permitted .ledger P m.key) : (l.upsertAll ms).2.Permitted P := by
  rw [upsertAll_eq]
  split
  · next hfold =>
    refine foldlM_invariant (I := fun p => p.2.Permitted P) (fun m hm p p' hp hstep => ?_) hl hfold
    obtain ⟨c, l₁, hupsert, rfl⟩ := batchStep_eq_ok.mp hstep
    obtain ⟨v, hv, hput, -⟩ := upsert_eq_ok.mp hupsert
    exact hp.putSlot ((hp m.key v hv).confirms (hms m hm) (v.confirms_overwrite m)) hput
  · exact hl

end Ledger

/-! ### Stores -/

namespace Operation

/-- Whether an operation writes permitted mappings only, and records automatic ones under their key. -/
def Permitted (P : SlotKey → Table → Prop) : Operation → Prop
  | confirm m _ => P m.key m.target ∧ m.confidence.InUnit
  | upsertAll ms => ∀ m ∈ ms, P m.key m.target ∧ m.confidence.InUnit
  | record k ms => ∀ m ∈ ms, m.key = k ∧ P k m.target ∧ m.confidence.InUnit ∧ m.provenance = .auto
  | _ => True

theorem Permitted.imp {Q : SlotKey → Table → Prop} {op : Operation} (h : op.Permitted P)
    (hPQ : ∀ k t, P k t → Q k t) : op.Permitted Q := by
  cases op with
  | confirm m mode => exact ⟨hPQ _ _ h.1, h.2⟩
  | upsertAll ms => exact fun m hm => ⟨hPQ _ _ (h m hm).1, (h m hm).2⟩
  | record k ms => exact fun m hm => ⟨(h m hm).1, hPQ _ _ (h m hm).2.1, (h m hm).2.2⟩
  | _ => trivial

end Operation

namespace Store

/-- Whether all slots of a store are permitted. -/
def Permitted (s : Store) (P : SlotKey → Table → Prop) : Prop :=
  ∀ k v, s.slot k = .ok v → v.Permitted s.backend P k

variable {s : Store} {m : Mapping}

theorem permitted_memory {h : Shelf} : (memory h).Permitted P ↔ h.Permitted P :=
  ⟨fun hs k => hs k _ rfl, fun hh k _ hv => Except.ok.inj hv ▸ hh k⟩

theorem permitted_empty (b : Backend) : (empty b).Permitted P := by
  cases b with
  | memory => exact permitted_memory.mpr fun _ => Slot.permitted_empty
  | ledger => exact fun _ _ hv => Except.ok.inj hv ▸ Slot.permitted_empty

/-- An operation that writes permitted mappings leaves a permitted store, also if it fails. -/
theorem Permitted.perform (hs : s.Permitted P) {op : Operation} (hop : op.Permitted P) :
    (s.perform op).2.Permitted P := by
  have hown : ∀ {b : Backend} {m : Mapping}, P m.key m.target ∧ m.confidence.InUnit →
      m.Permitted b P m.key := fun {b m} hm => ⟨b.shares_refl _, hm.1, hm.2⟩
  have hunder : ∀ {b : Backend} {k : SlotKey} {m : Mapping},
      m.key = k ∧ P k m.target ∧ m.confidence.InUnit ∧ m.provenance = .auto →
      m.Permitted b P k ∧ m.provenance = .auto := by
    rintro b k m ⟨rfl, hpermits, hunit, hauto⟩
    exact ⟨⟨b.shares_refl _, hpermits, hunit⟩, hauto⟩
  cases s with
  | memory h =>
    have hh := permitted_memory.mp hs
    cases op with
    | confirm m mode => exact permitted_memory.mpr (hh.confirm (hown hop) mode)
    | upsertAll ms => exact permitted_memory.mpr (hh.upsertAll fun m hm => hown (hop m hm))
    | record k ms =>
      exact permitted_memory.mpr
        (hh.sets ((hh k).record fun m hm => hunder (hop m hm)) (h.sets_putSlot k _))
    | delete k => exact permitted_memory.mpr (hh.sets (hh k).delete (h.delete_spec k).2)
    | confirmed? k => exact hs
    | confirmed hop => exact hs
    | candidates hop => exact hs
    -- records are kept apart from slots
    | record? p => exact hs
    | putRecord r => exact permitted_memory.mpr hh
    | recordsOf a => exact hs
    | hashesOf a => exact hs
    | deleteRecord p => exact permitted_memory.mpr hh
  | ledger l =>
    have hl : l.Permitted P := hs
    cases op with
    | confirm m mode =>
      exact hl.update fun hv hc => hv.confirms (hown hop) (Slot.confirm_eq_ok_iff.mp hc)
    | upsertAll ms => exact hl.upsertAll fun m hm => hown (hop m hm)
    | record k ms =>
      exact hl.update fun hv hc => Except.ok.inj hc ▸ hv.record fun m hm => hunder (hop m hm)
    | delete k => exact hl.update fun hv hc => Except.ok.inj hc ▸ hv.delete
    | confirmed? k => exact hl
    | confirmed hop => exact hl
    | candidates hop => exact hl
    -- records have keys of their own
    | putRecord r =>
      rcases l.putRecord_cases r with hput | hput
      · refine Ledger.Permitted.congr hl fun k => ?_
        change (l.putRecord r).2.entries[Ledger.slotKey k]? = _
        rw [hput]
        exact (getElem?_insert_eq _ _ _ _).trans (if_neg (Ledger.slotKey_ne_recordKey k _))
      · refine Ledger.Permitted.congr hl fun k => ?_
        change (l.putRecord r).2.entries[Ledger.slotKey k]? = _
        rw [hput]
    | deleteRecord p =>
      refine Ledger.Permitted.congr hl fun k => ?_
      exact (getElem?_erase_eq _ _ _).trans (if_neg (Ledger.slotKey_ne_recordKey k p))
    | record? p => exact hl
    | recordsOf a => exact hl
    | hashesOf a => exact hl

theorem Permitted.after (hs : s.Permitted P) {ops : List Operation}
    (hops : ∀ op ∈ ops, op.Permitted P) : (s.after ops).Permitted P := by
  induction ops generalizing s with
  | nil => exact hs
  | cons op ops ih =>
    obtain ⟨hop, hops⟩ := List.forall_mem_cons.mp hops
    exact ih (hs.perform hop) hops

end Store

end TierLineage
