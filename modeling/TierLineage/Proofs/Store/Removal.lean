import TierLineage.Proofs.Store.Permitted
import TierLineage.Proofs.Store.Separation

/-!
# Taking a mapping out of a store

Where a decision is deleted nothing is left in its slot, as it had ended all proposals.  So the entry
of the slot is taken out and all others stay as they are: of what is listed only the one mapping is
missing, and another deletion under the same key finds nothing and leaves every entry where it is.
-/

namespace TierLineage

/-! ### Entries -/

section Entries

variable {α β : Type}

/-- Taking out an entry leaves the others in their order. -/
theorem toList_erase [Ord α] [Std.TransOrd α] [Std.LawfulEqOrd α] [DecidableEq α]
    (m : Std.TreeMap α β) (k : α) :
    (m.erase k).toList = m.toList.filter fun e => decide (e.1 ≠ k) := by
  refine eq_of_sorted (m.erase k).ordered_keys_toList (m.ordered_keys_toList.filter _) ?_
  rintro ⟨a, b⟩
  rw [List.mem_filter, Std.TreeMap.mem_toList_iff_getElem?_eq_some,
    Std.TreeMap.mem_toList_iff_getElem?_eq_some, getElem?_erase_eq]
  by_cases h : a = k <;> simp [h]

/-- An entry is the only one of its key. -/
theorem exists_append_of_keys [DecidableEq α] {es : List (α × β)}
    (hkeys : es.Pairwise fun d e => d.1 ≠ e.1) {k : α} {v : β} (h : (k, v) ∈ es) :
    ∃ before later, es = before ++ (k, v) :: later ∧
      es.filter (fun e => decide (e.1 ≠ k)) = before ++ later := by
  obtain ⟨before, later, rfl⟩ := List.append_of_mem h
  refine ⟨before, later, rfl, ?_⟩
  obtain ⟨-, hlater, hbefore⟩ := List.pairwise_append.mp hkeys
  have hlater' : later.filter (fun e => decide (e.1 ≠ k)) = later :=
    List.filter_eq_self.mpr fun e he =>
      decide_eq_true (List.rel_of_pairwise_cons hlater he).symm
  have hbefore' : before.filter (fun e => decide (e.1 ≠ k)) = before :=
    List.filter_eq_self.mpr fun e he => decide_eq_true (hbefore e he (k, v) (List.mem_cons_self ..))
  rw [List.filter_append, List.filter_cons_of_neg (by simp), hlater', hbefore']

theorem keys_ne_of_sorted [Ord α] [Std.TransOrd α] {es : List (α × β)}
    (h : es.Pairwise fun d e => compare d.1 e.1 = .lt) : es.Pairwise fun d e => d.1 ≠ e.1 := by
  refine h.imp fun {d e} hlt heq => ?_
  rw [heq] at hlt
  exact Std.OrientedCmp.not_lt_of_lt hlt hlt

end Entries

/-! ### Shelves -/

namespace Shelf

/-- A shelf without the slot of a key. -/
def erase (s : Shelf) (k : SlotKey) : Shelf :=
  { s with slots := s.slots.erase k }

variable {s : Shelf} {k : SlotKey} {v : Slot} {hop : Hop}

theorem slotsOf_erase_eq (s : Shelf) (k : SlotKey) (hop : Hop) : (s.erase k).slotsOf hop =
    ((s.slots.toList.filter fun e => e.1.hop == hop).filter fun e => decide (e.1 ≠ k)).map
      Prod.snd := by
  rw [slotsOf, erase, toList_erase, List.filter_filter, List.filter_filter]
  simp only [Bool.and_comm]

theorem slotsOf_erase_of_ne (h : hop ≠ k.hop) : (s.erase k).slotsOf hop = s.slotsOf hop := by
  rw [slotsOf_erase_eq, slotsOf]
  refine congrArg _ (List.filter_eq_self.mpr fun e he => decide_eq_true ?_)
  rintro rfl
  exact h (beq_iff_eq.mp (List.mem_filter.mp he).2).symm

/-- The slots of a hop without one of them. -/
theorem exists_slotsOf_erase (h : s.slots[k]? = some v) : ∃ before later,
    s.slotsOf k.hop = before ++ v :: later ∧ (s.erase k).slotsOf k.hop = before ++ later := by
  have hmem : (k, v) ∈ s.slots.toList.filter fun e => e.1.hop == k.hop :=
    List.mem_filter.mpr
      ⟨Std.TreeMap.mem_toList_iff_getElem?_eq_some.mpr h, beq_self_eq_true k.hop⟩
  obtain ⟨before, later, heq, herase⟩ := exists_append_of_keys
    (keys_ne_of_sorted (s.slots.ordered_keys_toList.filter _)) hmem
  refine ⟨before.map Prod.snd, later.map Prod.snd, ?_, ?_⟩
  · rw [slotsOf, heq, List.map_append, List.map_cons]
  · rw [slotsOf_erase_eq, herase, List.map_append]

theorem slot_erase (s : Shelf) (k j : SlotKey) :
    (s.erase k).slot j = if j = k then Slot.empty else s.slot j := by
  rw [slot, erase, getElem?_erase_eq]
  split <;> rfl

end Shelf

/-! ### Ledgers -/

namespace Ledger

/-- A ledger without the entry of a key. -/
def erase (l : Ledger) (key : String) : Ledger :=
  ⟨l.entries.erase key⟩

variable {l : Ledger} {k j : SlotKey} {v : Slot} {key start text : String}

theorem starting_erase (l : Ledger) (key start : String) :
    (l.erase key).starting start = (l.starting start).filter fun e => decide (e.1 ≠ key) := by
  rw [starting, erase, toList_erase, starting, List.filter_filter, List.filter_filter]
  simp only [Bool.and_comm]

theorem starting_erase_of_not (h : Text.startsWith key.toList start.toList = false) :
    (l.erase key).starting start = l.starting start := by
  rw [starting_erase]
  refine List.filter_eq_self.mpr fun e he => decide_eq_true ?_
  rintro rfl
  rw [(mem_starting.mp he).2] at h
  cases h

theorem scan_eq_mapM {α : Type} (l : Ledger) (read : Json.Reader α) (start : String) :
    l.scan read start = (l.starting start).mapM fun e => decode read e.2 := rfl

/-- The values that start alike without one of them. -/
theorem exists_scan_erase {α : Type} {read : Json.Reader α} {a : α} {as : List α}
    (hmem : (key, text) ∈ l.starting start) (hdecode : decode read text = .ok a)
    (h : l.scan read start = .ok as) :
    ∃ as', (l.erase key).scan read start = .ok as' ∧ as.Perm (a :: as') := by
  obtain ⟨before, later, heq, herase⟩ :=
    exists_append_of_keys (keys_ne_of_sorted (l.starting_sorted start)) hmem
  rw [scan_eq_mapM, heq, List.mapM_append] at h
  obtain ⟨bs, hbs, h⟩ := bind_eq_ok.mp h
  obtain ⟨cs, hcs, h⟩ := bind_eq_ok.mp h
  obtain rfl := Except.ok.inj h
  rw [List.mapM_cons] at hcs
  obtain ⟨a', ha, hcs⟩ := bind_eq_ok.mp hcs
  obtain ⟨ds, hds, hcs⟩ := bind_eq_ok.mp hcs
  obtain rfl := Except.ok.inj hcs
  obtain rfl := Except.ok.inj (hdecode.symm.trans ha)
  refine ⟨bs ++ ds, ?_, List.perm_middle⟩
  rw [scan_eq_mapM, starting_erase, herase, List.mapM_append, hbs, hds]
  rfl

theorem slot_erase_of_ne (h : slotKey j ≠ slotKey k) :
    (l.erase (slotKey k)).slot j = l.slot j := by
  rw [slot, slot, get?, get?, erase, getElem?_erase_eq, if_neg h]

theorem slot_erase_of_eq (h : slotKey j = slotKey k) :
    (l.erase (slotKey k)).slot j = .ok Slot.empty := by
  rw [slot, get?, erase, getElem?_erase_eq, if_pos h]
  rfl

/-- In a slot in which something is known a text was read. -/
theorem exists_text_of_slot (h : l.slot k = .ok v) (hv : v ≠ Slot.empty) :
    ∃ text, l.entries[slotKey k]? = some text ∧ decode Slot.read text = .ok v := by
  rw [slot, get?] at h
  cases htext : l.entries[slotKey k]? with
  | none =>
    rw [htext] at h
    exact absurd (Except.ok.inj h).symm hv
  | some text =>
    rw [htext] at h
    obtain ⟨o, ho, rfl⟩ := map_eq_ok.mp h
    obtain ⟨w, hw, rfl⟩ := map_eq_ok.mp ho
    exact ⟨text, rfl, hw⟩

end Ledger

/-! ### Stores -/

namespace Store

/-- A store without the slot of a key. -/
def erase : Store → SlotKey → Store
  | memory h, k => memory (h.erase k)
  | ledger l, k => ledger (l.erase (Ledger.slotKey k))

/-- Whether two stores of one kind have the same entries. -/
inductive SameEntries : Store → Store → Prop
  | memory (h : Shelf) : SameEntries (.memory h) (.memory h)
  | ledger {l l' : Ledger} (h : l.entries.toList = l'.entries.toList) :
    SameEntries (.ledger l) (.ledger l')

variable {s : Store} {j k : SlotKey} {v : Slot} {hop : Hop} {m : Mapping}

theorem slot_of_shares (h : s.backend.Shares j k) : s.slot j = s.slot k := by
  cases s with
  | memory shelf => exact congrArg (memory shelf).slot h
  | ledger l =>
    have hkey : Ledger.slotKey j = Ledger.slotKey k := h
    change l.slot j = l.slot k
    rw [Ledger.slot, Ledger.slot, hkey]

theorem slot_erase_of_shares (h : s.backend.Shares j k) : (s.erase k).slot j = .ok Slot.empty := by
  cases s with
  | memory shelf => exact congrArg Except.ok ((shelf.slot_erase k j).trans (if_pos h))
  | ledger l => exact Ledger.slot_erase_of_eq h

theorem slot_erase_of_not_shares (h : ¬ s.backend.Shares j k) : (s.erase k).slot j = s.slot j := by
  cases s with
  | memory shelf => exact congrArg Except.ok ((shelf.slot_erase k j).trans (if_neg h))
  | ledger l => exact Ledger.slot_erase_of_ne h

/-- The slots of a hop without one of them. -/
theorem exists_slotsOf_erase {vs : List Slot} (hslot : s.slot k = .ok v) (hv : v ≠ Slot.empty)
    (h : s.slotsOf k.hop = .ok vs) :
    ∃ vs', (s.erase k).slotsOf k.hop = .ok vs' ∧ vs.Perm (v :: vs') := by
  cases s with
  | memory shelf =>
    obtain rfl := Except.ok.inj h
    obtain rfl := Except.ok.inj hslot
    obtain ⟨before, later, heq, herase⟩ :=
      Shelf.exists_slotsOf_erase (Shelf.getElem?_of_slot_ne hv)
    exact ⟨before ++ later, congrArg Except.ok herase, heq ▸ List.perm_middle⟩
  | ledger l =>
    obtain ⟨us, hscan, rfl⟩ := map_eq_ok.mp h
    obtain ⟨text, htext, hdecode⟩ := Ledger.exists_text_of_slot hslot hv
    have hmem := Ledger.mem_starting.mpr ⟨htext, (Ledger.startsWith_slotKey k k.hop).mpr rfl⟩
    obtain ⟨us', hscan', hperm⟩ := Ledger.exists_scan_erase hmem hdecode hscan
    refine ⟨us'.mergeSort Ledger.slotLE, ?_, ?_⟩
    · exact map_eq_ok.mpr ⟨us', hscan', rfl⟩
    · exact ((List.mergeSort_perm us _).trans hperm).trans
        ((List.mergeSort_perm us' _).symm.cons v)

theorem slotsOf_erase_of_ne (h : hop ≠ k.hop) : (s.erase k).slotsOf hop = s.slotsOf hop := by
  cases s with
  | memory shelf => exact congrArg Except.ok (Shelf.slotsOf_erase_of_ne h)
  | ledger l =>
    have hstart : Text.startsWith (Ledger.slotKey k).toList (Ledger.hopStart hop).toList = false :=
      Bool.eq_false_iff.mpr fun hstart => h ((Ledger.startsWith_slotKey k hop).mp hstart).symm
    change (l.erase (Ledger.slotKey k)).slotsOf hop = l.slotsOf hop
    rw [Ledger.slotsOf, Ledger.slotsOf, Ledger.scan_eq_mapM, Ledger.scan_eq_mapM,
      Ledger.starting_erase_of_not hstart]

theorem record?_erase (s : Store) (k : SlotKey) (p : ProcedureId) :
    (s.erase k).record? p = s.record? p := by
  cases s with
  | memory shelf => rfl
  | ledger l =>
    change (l.erase (Ledger.slotKey k)).record? p = l.record? p
    rw [Ledger.record?, Ledger.record?, Ledger.get?, Ledger.get?, Ledger.erase, getElem?_erase_eq,
      if_neg (Ledger.slotKey_ne_recordKey k p).symm]

theorem recordsOf_erase (s : Store) (k : SlotKey) (connection : String) :
    (s.erase k).recordsOf connection = s.recordsOf connection := by
  cases s with
  | memory shelf => rfl
  | ledger l =>
    change (l.erase (Ledger.slotKey k)).recordsOf connection = l.recordsOf connection
    rw [Ledger.recordsOf, Ledger.recordsOf, Ledger.scan_eq_mapM, Ledger.scan_eq_mapM,
      Ledger.starting_erase_of_not (Ledger.not_startsWith_slotKey k connection)]

/-! ### Deletions -/

/-- Deleting a decision that has ended all proposals takes out its slot. -/
theorem delete_eq_erase (hslot : s.slot k = .ok v) (hm : v.confirmed = some m)
    (hnone : v.candidates = []) : s.delete k = (.ok true, s.erase k) := by
  have hne : v ≠ Slot.empty := fun h => by
    rw [h] at hm
    cases hm
  have hdelete : v.delete = (true, Slot.empty) := by
    rw [Slot.delete, hm, hnone]
    rfl
  cases s with
  | memory shelf =>
    obtain rfl := Except.ok.inj hslot
    change ((shelf.delete k).map .ok memory : Outcome Bool × Store) = _
    rw [Shelf.delete, Shelf.getElem?_of_slot_ne hne]
    simp only [hdelete]
    rfl
  | ledger l =>
    change ((l.delete k).map id ledger : Outcome Bool × Store) = _
    have herase : l.putSlot k Slot.empty = .ok (l.erase (Ledger.slotKey k)) := rfl
    rw [Ledger.delete, Ledger.update_of_ok hslot (congrArg Except.ok hdelete) herase]
    rfl

/-- Another deletion finds nothing and leaves every entry where it is. -/
theorem exists_delete_erase (s : Store) (k : SlotKey) :
    ∃ s', (s.erase k).delete k = (.ok false, s') ∧ SameEntries s' (s.erase k) := by
  cases s with
  | memory shelf =>
    refine ⟨memory (shelf.erase k), ?_, .memory _⟩
    change (((shelf.erase k).delete k).map .ok memory : Outcome Bool × Store) = _
    have hnone : (shelf.erase k).slots[k]? = none := by
      rw [Shelf.erase, getElem?_erase_eq, if_pos rfl]
    rw [Shelf.delete, hnone]
    rfl
  | ledger l =>
    refine ⟨ledger ((l.erase (Ledger.slotKey k)).erase (Ledger.slotKey k)), ?_, .ledger ?_⟩
    · change (((l.erase (Ledger.slotKey k)).delete k).map id ledger : Outcome Bool × Store) = _
      have herase : (l.erase (Ledger.slotKey k)).putSlot k Slot.empty =
          .ok ((l.erase (Ledger.slotKey k)).erase (Ledger.slotKey k)) := rfl
      rw [Ledger.delete, Ledger.update_of_ok (Ledger.slot_erase_of_eq rfl) rfl herase]
      rfl
    · simp only [Ledger.erase, toList_erase, List.filter_filter, Bool.and_self]

/-- A deletion leaves the slots of other keys. -/
theorem slot_delete_of_not_shares (h : ¬ s.backend.Shares j k) :
    (s.delete k).2.slot j = s.slot j := by
  cases s with
  | memory shelf =>
    exact congrArg Except.ok (((shelf.delete_spec k).2.slot_eq j).trans (if_neg h))
  | ledger l => exact Ledger.slot_congr (Ledger.entries_update_of_ne l _ h)

/-- Whether a store is another one without a confirmed mapping. -/
structure Loses (s : Store) (m : Mapping) (s' : Store) : Prop where
  /-- Of what is listed for its hop only the mapping is missing. -/
  confirmed : ∃ ms ms', s.confirmed m.hop = .ok ms ∧ s'.confirmed m.hop = .ok ms' ∧
    ms.Perm (m :: ms')
  candidates : ∃ cs cs', s.candidates m.hop = .ok cs ∧ s'.candidates m.hop = .ok cs' ∧ cs.Perm cs'
  /-- It is not found any more. -/
  gone : s'.confirmed? m.key = .ok none
  slot_eq : ∀ k, ¬ s.backend.Shares k m.key → s'.slot k = s.slot k
  other : ∀ hop, hop ≠ m.hop →
    s'.confirmed hop = s.confirmed hop ∧ s'.candidates hop = s.candidates hop
  record?_eq : ∀ p, s'.record? p = s.record? p
  recordsOf_eq : ∀ connection, s'.recordsOf connection = s.recordsOf connection

theorem confirmed_of_slotsOf {vs : List Slot} (h : s.slotsOf hop = .ok vs) :
    s.confirmed hop = .ok (vs.filterMap (·.confirmed)) := by
  rw [confirmed_eq, h]
  rfl

theorem candidates_of_slotsOf {vs : List Slot} (h : s.slotsOf hop = .ok vs) :
    s.candidates hop = .ok (vs.flatMap (·.candidates)) := by
  rw [candidates_eq, h]
  rfl

/-- A mapping that is listed is found in the slot of its own key, and alone there. -/
theorem Permitted.slot_of_listed {P : SlotKey → Table → Prop} (hs : s.Permitted P) (hkeyed : s.Keyed)
    {ms : List Mapping} (hms : s.confirmed hop = .ok ms) (hm : m ∈ ms) :
    m.hop = hop ∧ P m.key m.target ∧
      ∃ v, s.slot m.key = .ok v ∧ v.confirmed = some m ∧ v.candidates = [] := by
  obtain ⟨k, v, hk, hslot, hconfirmed⟩ := hkeyed.slot_of_mem_confirmed hms hm
  have hv := hs k v hslot
  have hpermitted := hv.confirmed m hconfirmed
  exact ⟨hpermitted.shares.hop_eq.trans hk, hpermitted.permits, v,
    (slot_of_shares hpermitted.shares).trans hslot, hconfirmed, hv.exclusive (hconfirmed ▸ rfl)⟩

/-- A store without the slot of a mapping that is listed has lost this mapping and nothing else. -/
theorem loses_erase {ms : List Mapping} (hslot : s.slot m.key = .ok v) (hm : v.confirmed = some m)
    (hnone : v.candidates = []) (hms : s.confirmed m.hop = .ok ms) : s.Loses m (s.erase m.key) := by
  have hne : v ≠ Slot.empty := fun h => by
    rw [h] at hm
    cases hm
  rw [confirmed_eq] at hms
  obtain ⟨vs, hvs, rfl⟩ := map_eq_ok.mp hms
  obtain ⟨vs', hvs', hperm⟩ := exists_slotsOf_erase hslot hne hvs
  have hhop : m.key.hop = m.hop := rfl
  rw [hhop] at hvs'
  have hconfirmed := hperm.filterMap (·.confirmed)
  rw [List.filterMap_cons_some hm] at hconfirmed
  have hcandidates := hperm.flatMap_right (·.candidates)
  rw [List.flatMap_cons, hnone, List.nil_append] at hcandidates
  refine
    { confirmed := ⟨_, _, confirmed_of_slotsOf hvs, confirmed_of_slotsOf hvs', hconfirmed⟩
      candidates := ⟨_, _, candidates_of_slotsOf hvs, candidates_of_slotsOf hvs', hcandidates⟩
      gone := ?_
      slot_eq := fun k hk => slot_erase_of_not_shares hk
      other := fun hop hne => ?_
      record?_eq := s.record?_erase m.key
      recordsOf_eq := s.recordsOf_erase m.key }
  · rw [confirmed?_eq, slot_erase_of_shares (s.backend.shares_refl m.key)]
    rfl
  · rw [confirmed_eq, confirmed_eq, candidates_eq, candidates_eq, slotsOf_erase_of_ne hne]
    exact ⟨rfl, rfl⟩

end Store

end TierLineage
