import TierLineage.Proofs.Mapping.Slot
import TierLineage.Proofs.Outcome
import TierLineage.Proofs.Store.Lineage

/-!
# Ledgers that mirror a shelf

A ledger *mirrors* a shelf if it holds the texts of the records on the shelf and of the slots in
which something is known, each under its key, and nothing else.  A shelf may hold slots in which
nothing is known and a ledger never does, so that the two are compared by what is found in a slot.
Every change of one slot or record keeps a mirror, if what is written can be read back and its key
is plain and not too long.
-/

namespace TierLineage

/-! ### What a slot holds -/

/-- Whether a mapping belongs to a slot and is read back from it. -/
structure Mapping.Of (m : Mapping) (k : SlotKey) : Prop where
  legible : m.Legible
  key_eq : m.key = k

/-- Whether all mappings of a slot belong to it and are read back from it. -/
structure Slot.Of (v : Slot) (k : SlotKey) : Prop where
  confirmed : ∀ m ∈ v.confirmed, m.Of k
  candidates : ∀ m ∈ v.candidates, m.Of k

theorem Mapping.Legible.asConfirmed {m : Mapping} (h : m.Legible) :
    (Slot.asConfirmed m).Legible :=
  ⟨h.identifier_lt, h.confidence_eq, h.createdAt_valid⟩

theorem Mapping.Legible.asCandidate {m : Mapping} (h : m.Legible) :
    (Slot.asCandidate m).Legible :=
  ⟨h.identifier_lt, h.confidence_eq, h.createdAt_valid⟩

namespace Slot

variable {v : Slot} {k : SlotKey} {m p : Mapping}

theorem isEmpty_iff : v.isEmpty = true ↔ v = empty := by
  obtain ⟨confirmed, candidates⟩ := v
  cases confirmed <;> cases candidates <;> simp [isEmpty, empty]

theorem Of.legible (h : v.Of k) : v.Legible where
  confirmed m hm := (h.confirmed m hm).legible
  candidates m hm := (h.candidates m hm).legible

theorem of_empty (k : SlotKey) : empty.Of k where
  confirmed m hm := by cases hm
  candidates m hm := by cases hm

theorem of_holding (h : m.Of k) : (holding m).Of k where
  confirmed n hn := by
    obtain rfl : m = n := Option.some.inj hn
    exact h
  candidates n hn := by cases hn

theorem of_successor (hp : p.Of k) (hm : m.Of k) : (successor p m).Of k := by
  rw [successor]
  split
  · exact ⟨⟨hp.legible.identifier_lt, hm.legible.confidence_eq, hm.legible.createdAt_valid⟩, hm.key_eq⟩
  · exact hm

/-- Confirming a mapping of a slot leaves the slot with mappings of its own. -/
theorem Of.confirms (h : v.Of k) (hm : m.Of k) {mode : ConfirmMode} {c : Confirmation} {w : Slot}
    (hc : v.Confirms m mode c w) : w.Of k := by
  have hm' : (asConfirmed m).Of k := ⟨hm.legible.asConfirmed, hm.key_eq⟩
  cases hc with
  | created _ => exact of_holding hm'
  | replaced hp _ => exact of_holding (of_successor (h.confirmed _ hp) hm')
  | unchanged _ _ _ => exact h

theorem Of.record (h : v.Of k) {ms : List Mapping} (hms : ∀ m ∈ ms, m.Of k) :
    (v.record ms).2.Of k := by
  rw [Slot.record]
  split
  · exact h
  · refine ⟨h.confirmed, fun n hn => ?_⟩
    obtain ⟨m, hm, rfl⟩ := List.mem_map.mp hn
    exact ⟨(hms m hm).legible.asCandidate, (hms m hm).key_eq⟩

theorem Of.delete (h : v.Of k) : v.delete.2.Of k where
  confirmed m hm := by cases hm
  candidates := h.candidates

end Slot

/-! ### What is found on a shelf -/

namespace Shelf

variable {s s' : Shelf} {k : SlotKey} {v : Slot}

theorem slot_putSlot (s : Shelf) (k j : SlotKey) (v : Slot) :
    (s.putSlot k v).slot j = if j = k then v else s.slot j := by
  rw [slot, putSlot, getElem?_insert_eq]
  split <;> rfl

/-- Whether a shelf differs from another one by what is found in one slot. -/
structure Sets (s : Shelf) (k : SlotKey) (v : Slot) (s' : Shelf) : Prop where
  slot_eq : ∀ j, s'.slot j = if j = k then v else s.slot j
  record?_eq : ∀ p, s'.record? p = s.record? p

theorem sets_putSlot (s : Shelf) (k : SlotKey) (v : Slot) : s.Sets k v (s.putSlot k v) where
  slot_eq j := s.slot_putSlot k j v
  record?_eq _ := rfl

/-- A deletion tells what was in the slot, and empties it of the confirmed mapping. -/
theorem delete_spec (s : Shelf) (k : SlotKey) : (s.delete k).1 = (s.slot k).delete.1 ∧
    s.Sets k (s.slot k).delete.2 (s.delete k).2 := by
  cases hk : s.slots[k]? with
  | none =>
    have hslot : s.slot k = Slot.empty := by rw [slot, hk]; rfl
    have hdelete : s.delete k = (false, s) := by simp only [delete, hk]
    rw [hdelete, hslot]
    refine ⟨rfl, fun j => ?_, fun _ => rfl⟩
    split
    · next hj => rw [hj, hslot]; rfl
    · rfl
  | some v =>
    have hslot : s.slot k = v := by rw [slot, hk]; rfl
    simp only [delete, hk, hslot]
    refine ⟨trivial, ?_⟩
    split
    · next hempty =>
      refine ⟨fun j => ?_, fun _ => rfl⟩
      rw [slot, getElem?_erase_eq]
      split
      · exact (Slot.isEmpty_iff.mp hempty).symm
      · rfl
    · exact s.sets_putSlot k _

end Shelf

/-! ### Mirrors -/

/-- The text of a slot, if anything is known in it. -/
def Slot.text? (v : Slot) : Option String :=
  if v.isEmpty then none else some (Json.compact v.toJson)

/-- Whether a slot can be kept in a ledger. -/
structure SlotKey.Proper (k : SlotKey) : Prop where
  plain : k.source.Plain
  fits : (Ledger.slotKey k).utf8ByteSize ≤ Ledger.keyLimit

namespace Ledger

/-- A slot with a key that is not too long can be written. -/
theorem putSlot_of_fits (l : Ledger) {k : SlotKey} (h : (slotKey k).utf8ByteSize ≤ keyLimit)
    (v : Slot) : ∃ l', l.putSlot k v = .ok l' := by
  rw [putSlot]
  split
  · exact ⟨_, rfl⟩
  · rw [put, if_neg (Nat.not_lt.mpr h)]
    exact ⟨_, rfl⟩

/-- Writing a slot changes what is found under its key, and nothing else. -/
theorem entries_putSlot {l l' : Ledger} {k : SlotKey} {v : Slot} (h : l.putSlot k v = .ok l')
    (key : String) :
    l'.entries[key]? = if key = slotKey k then v.text? else l.entries[key]? := by
  rw [putSlot] at h
  rw [Slot.text?]
  split at h
  · next hempty =>
    cases h
    rw [if_pos hempty]
    exact getElem?_erase_eq _ _ _
  · next hempty =>
    rw [put] at h
    split at h
    · cases h
    · cases h
      rw [if_neg hempty]
      exact getElem?_insert_eq _ _ _ _

/-- A slot is read back from its text. -/
theorem slot_of_text? {l : Ledger} {k : SlotKey} {v : Slot}
    (h : l.entries[slotKey k]? = v.text?) (hv : v.Legible) : l.slot k = .ok v := by
  rw [slot, get?, h, Slot.text?]
  cases hempty : v.isEmpty with
  | true =>
    rw [Slot.isEmpty_iff.mp hempty]
    rfl
  | false =>
    have hdecode := decode_compact (Slot.clean_toJson hv) (Slot.read_toJson hv)
    simp [hdecode, Except.map]

section Update

variable {α : Type} {l l' : Ledger} {k : SlotKey} {v w : Slot} {change : Slot → Outcome (α × Slot)}

theorem update_of_ok {a : α} (hv : l.slot k = .ok v) (hchange : change v = .ok (a, w))
    (hput : l.putSlot k w = .ok l') : l.update k change = (.ok a, l') := by
  simp only [update, hv, bind, Except.bind, hchange, hput, pure, Except.pure]

theorem update_of_error {e : Failure} (hv : l.slot k = .ok v) (hchange : change v = .error e) :
    l.update k change = (.error e, l) := by
  simp only [update, hv, bind, Except.bind, hchange]

/-- A change that succeeds has read, changed and written a slot; one that fails has done nothing. -/
theorem update_cases (l : Ledger) (k : SlotKey) (change : Slot → Outcome (α × Slot)) :
    (∃ e, l.update k change = (.error e, l)) ∨
      ∃ v a w l', l.slot k = .ok v ∧ change v = .ok (a, w) ∧ l.putSlot k w = .ok l' ∧
        l.update k change = (.ok a, l') := by
  cases hv : l.slot k with
  | error e => exact .inl ⟨e, by simp only [update, hv, bind, Except.bind]⟩
  | ok v =>
    cases hchange : change v with
    | error e => exact .inl ⟨e, update_of_error hv hchange⟩
    | ok aw =>
      obtain ⟨a, w⟩ := aw
      cases hput : l.putSlot k w with
      | error e => exact .inl ⟨e, by simp only [update, hv, hchange, hput, bind, Except.bind]⟩
      | ok l' => exact .inr ⟨v, a, w, l', rfl, hchange, hput, update_of_ok hv hchange hput⟩

/-- Confirming one mapping of a batch reads, overwrites and writes its slot. -/
theorem upsert_eq_ok {m : Mapping} {c : Confirmation} : l.upsert m = .ok (c, l') ↔
    ∃ v, l.slot m.key = .ok v ∧ l.putSlot m.key (v.overwrite m).2 = .ok l' ∧
      (v.overwrite m).1 = c := by
  rw [upsert, bind_eq_ok]
  refine exists_congr fun v => and_congr_right fun _ => ?_
  rw [bind_eq_ok]
  constructor
  · rintro ⟨l₁, hput, h⟩
    cases h
    exact ⟨hput, rfl⟩
  · rintro ⟨hput, rfl⟩
    exact ⟨l', hput, rfl⟩

end Update

/-- Whether a ledger holds the texts of what is known on a shelf, and nothing else. -/
structure Mirrors (l : Ledger) (s : Shelf) : Prop where
  /-- Slots hold mappings of their own. -/
  slot_of : ∀ k, (s.slot k).Of k
  /-- Where something is known of a table, its names are plain. -/
  plain : ∀ {k : SlotKey}, (s.slot k).isEmpty = false → k.source.Plain
  slotText : ∀ {k : SlotKey}, k.source.Plain → l.entries[slotKey k]? = (s.slot k).text?
  /-- Procedures have records of their own. -/
  record_of : ∀ {p : ProcedureId} {r : Record}, s.record? p = some r → r.identity = p ∧ r.computedAt.Valid
  recordText : ∀ p, l.entries[recordKey p]? = (s.record? p).map fun r => Json.compact r.toJson
  /-- There are no other keys than those of slots and records. -/
  key_cases : ∀ {key text : String}, l.entries[key]? = some text →
    (∃ k : SlotKey, k.source.Plain ∧ key = slotKey k) ∨ ∃ p, key = recordKey p

/-- An empty ledger mirrors an empty shelf. -/
theorem mirrors_empty : empty.Mirrors .empty where
  slot_of k := Slot.of_empty k
  plain h := by cases h
  slotText _ := rfl
  record_of h := by cases h
  recordText _ := rfl
  key_cases h := by cases h

namespace Mirrors

variable {l : Ledger} {s s' : Shelf} {k : SlotKey} {v : Slot}

/-- A slot is found in a mirror as it is on the shelf. -/
theorem slot_eq (h : l.Mirrors s) (hk : k.source.Plain) : l.slot k = .ok (s.slot k) :=
  slot_of_text? (h.slotText hk) (h.slot_of k).legible

/-- Writing a slot keeps a mirror. -/
theorem putSlot (h : l.Mirrors s) (hk : k.Proper) (hv : v.Of k) (hs : s.Sets k v s') :
    ∃ l', l.putSlot k v = .ok l' ∧ l'.Mirrors s' := by
  obtain ⟨l', hl'⟩ := l.putSlot_of_fits hk.fits v
  have hentries := entries_putSlot hl'
  refine ⟨l', hl', ?_⟩
  constructor
  · intro j
    rw [hs.slot_eq]
    split
    · next hj => exact hj ▸ hv
    · exact h.slot_of j
  · intro j hj
    rw [hs.slot_eq] at hj
    split at hj
    · next heq => exact heq ▸ hk.plain
    · exact h.plain hj
  · intro j hj
    rw [hs.slot_eq, hentries]
    by_cases heq : j = k
    · rw [if_pos heq, if_pos (congrArg slotKey heq)]
    · rw [if_neg heq, if_neg fun hkey => heq (slotKey_inj hj hk.plain hkey), h.slotText hj]
  · intro p r hr
    rw [hs.record?_eq] at hr
    exact h.record_of hr
  · intro p
    rw [hs.record?_eq, hentries, if_neg (slotKey_ne_recordKey k p).symm, h.recordText]
  · intro key text hkey
    rw [hentries] at hkey
    split at hkey
    · next heq => exact .inl ⟨k, hk.plain, heq⟩
    · exact h.key_cases hkey

/-- Reading, changing and writing a slot keeps a mirror. -/
theorem update {α : Type} (h : l.Mirrors s) (hk : k.Proper) {change : Slot → Outcome (α × Slot)}
    {a : α} (hchange : change (s.slot k) = .ok (a, v)) (hv : v.Of k) (hs : s.Sets k v s') :
    ∃ l', l.update k change = (.ok a, l') ∧ l'.Mirrors s' := by
  obtain ⟨l', hl', hmirrors⟩ := h.putSlot hk hv hs
  exact ⟨l', update_of_ok (h.slot_eq hk.plain) hchange hl', hmirrors⟩

theorem update_error {α : Type} (h : l.Mirrors s) (hk : k.source.Plain)
    {change : Slot → Outcome (α × Slot)} {e : Failure} (hchange : change (s.slot k) = .error e) :
    l.update k change = (.error e, l) :=
  update_of_error (h.slot_eq hk) hchange

/-! ### Records -/

theorem record?_eq (h : l.Mirrors s) (p : ProcedureId) : l.record? p = .ok (s.record? p) := by
  rw [Ledger.record?, get?, h.recordText]
  cases hr : s.record? p with
  | none => rfl
  | some r =>
    have hdecode := decode_compact r.clean_toJson (Record.read_toJson (h.record_of hr).2)
    simp [hdecode, Except.map]

/-- Writing or deleting a record keeps a mirror. -/
theorem setRecord {l' : Ledger} (h : l.Mirrors s) {p : ProcedureId} {o : Option Record}
    (ho : ∀ r ∈ o, r.identity = p ∧ r.computedAt.Valid)
    (hl : ∀ key, l'.entries[key]? = if key = recordKey p then
      o.map fun r => Json.compact r.toJson else l.entries[key]?)
    (hslot : ∀ k, s'.slot k = s.slot k)
    (hrecord : ∀ q, s'.record? q = if q = p then o else s.record? q) : l'.Mirrors s' := by
  constructor
  · intro k
    rw [hslot]
    exact h.slot_of k
  · intro k hk
    rw [hslot] at hk
    exact h.plain hk
  · intro k hk
    rw [hslot, hl, if_neg (slotKey_ne_recordKey k p), h.slotText hk]
  · intro q r hr
    rw [hrecord] at hr
    split at hr
    · next hq => exact hq ▸ ho r hr
    · exact h.record_of hr
  · intro q
    rw [hrecord, hl]
    by_cases hq : q = p
    · rw [if_pos hq, if_pos (congrArg recordKey hq)]
    · rw [if_neg hq, if_neg fun hkey => hq (recordKey_inj hkey), h.recordText]
  · intro key text hkey
    rw [hl] at hkey
    split at hkey
    · next heq => exact .inr ⟨p, heq⟩
    · exact h.key_cases hkey

theorem putRecord (h : l.Mirrors s) {r : Record}
    (hfits : (recordKey r.identity).utf8ByteSize ≤ keyLimit) (hr : r.computedAt.Valid) :
    ∃ l', l.putRecord r = (.ok (), l') ∧ l'.Mirrors (s.putRecord r) := by
  refine ⟨_, l.putRecord_of_fits hfits, h.setRecord (p := r.identity) (o := some r) ?_ ?_
    (fun _ => rfl) ?_⟩
  · rintro r' ⟨⟩
    exact ⟨rfl, hr⟩
  · exact fun key => getElem?_insert_eq _ _ _ _
  · exact fun q => getElem?_insert_eq _ _ _ _

theorem deleteRecord (h : l.Mirrors s) (p : ProcedureId) :
    (l.deleteRecord p).1 = (s.deleteRecord p).1 ∧
      (l.deleteRecord p).2.Mirrors (s.deleteRecord p).2 := by
  constructor
  · rw [Ledger.deleteRecord, Shelf.deleteRecord, Std.TreeMap.contains_eq_isSome_getElem?,
      h.recordText, Option.isSome_map]
  · refine h.setRecord (o := none) (p := p) (fun r hr => by cases hr) ?_ (fun _ => rfl) ?_
    · exact fun key => getElem?_erase_eq _ _ _
    · exact fun q => getElem?_erase_eq _ _ _

end Mirrors

end Ledger

end TierLineage
