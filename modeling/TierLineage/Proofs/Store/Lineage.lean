import TierLineage.Store
import TierLineage.Proofs.Order
import TierLineage.Proofs.Store.Data
import TierLineage.Proofs.Store.Key

/-!
# Stored records are found

A record that was put into a store is found under its procedure, and nothing else has changed.  In
memory this holds of every record; a ledger asks for a key that is not too long and for a moment
that dates can have.
-/

namespace TierLineage

/-- How a store keeps what is put into it. -/
def Store.backend : Store → Backend
  | memory _ => .memory
  | ledger _ => .ledger

/-- Whether a record can be written to a store of a kind and be read back. -/
def Backend.Holds : Backend → Record → Prop
  | memory, _ => True
  | ledger, r => (Ledger.recordKey r.identity).utf8ByteSize ≤ Ledger.keyLimit ∧ r.computedAt.Valid

/-- Whether every procedure can be looked up, and has only records of its own. -/
structure Store.Sound (s : Store) : Prop where
  record?_eq : ∀ p : ProcedureId, ∃ o, s.record? p = .ok o
  identity_eq : ∀ {p : ProcedureId} {r : Record}, s.record? p = .ok (some r) → r.identity = p

namespace Ledger

/-- What is found after a text was put under a key. -/
theorem get?_insert {α : Type} (l : Ledger) (read : Json.Reader α) (key k text : String) :
    get? ⟨l.entries.insert key text⟩ read k =
      if k = key then (decode read text).map some else l.get? read k := by
  rw [get?, getElem?_insert_eq, get?]
  by_cases h : k = key
  · simp only [if_pos h]
  · simp only [if_neg h]

/-- A clean tree is read back from an entry. -/
theorem decode_compact {α : Type} {read : Json.Reader α} {v : Json} {a : α} (hv : v.Clean)
    (h : read v = .ok a) : decode read (Json.compact v) = .ok a := by
  rw [decode, Json.decode_compact read hv, h]

theorem putRecord_of_fits (l : Ledger) {r : Record}
    (h : (recordKey r.identity).utf8ByteSize ≤ keyLimit) :
    l.putRecord r = (.ok (), ⟨l.entries.insert (recordKey r.identity) (Json.compact r.toJson)⟩) := by
  rw [putRecord, put, if_neg (Nat.not_lt.mpr h)]

/-- A record is written under the key of its procedure, or the key is too long and nothing is. -/
theorem putRecord_cases (l : Ledger) (r : Record) :
    l.putRecord r = (.ok (), ⟨l.entries.insert (recordKey r.identity) (Json.compact r.toJson)⟩) ∨
      l.putRecord r = (.error keyTooLong, l) := by
  by_cases h : (recordKey r.identity).utf8ByteSize ≤ keyLimit
  · exact .inl (l.putRecord_of_fits h)
  · rw [putRecord, put, if_pos (Nat.lt_of_not_le h)]
    exact .inr rfl

end Ledger

namespace Store

variable {s : Store} {r : Record}

/-- A store without records is sound. -/
theorem sound_empty (b : Backend) : (empty b).Sound := by
  cases b <;>
    exact ⟨fun p => ⟨none, by simp [empty, record?, Shelf.record?, Shelf.empty, Ledger.record?,
      Ledger.get?, Ledger.empty]⟩, fun {p r} h => by
        simp [empty, record?, Shelf.record?, Shelf.empty, Ledger.record?, Ledger.get?,
          Ledger.empty] at h⟩

/-- A record that was put into a store is found under its procedure, and nothing else has
changed. -/
theorem putRecord_spec (h : s.backend.Holds r) :
    ∃ s', s.putRecord r = (.ok (), s') ∧ s'.backend = s.backend ∧
      s'.record? r.identity = .ok (some r) ∧ ∀ p ≠ r.identity, s'.record? p = s.record? p := by
  cases s with
  | memory shelf =>
    refine ⟨memory (shelf.putRecord r), rfl, rfl, ?_, fun p hp => ?_⟩
    · simp [record?, Shelf.record?, Shelf.putRecord]
    · simp [record?, Shelf.record?, Shelf.putRecord, getElem?_insert_eq, hp]
  | ledger l =>
    obtain ⟨hfits, hvalid⟩ := h
    have hdecode := Ledger.decode_compact r.clean_toJson (Record.read_toJson hvalid)
    refine ⟨ledger ⟨l.entries.insert (Ledger.recordKey r.identity) (Json.compact r.toJson)⟩,
      by rw [putRecord, l.putRecord_of_fits hfits]; rfl, rfl, ?_, fun p hp => ?_⟩
    · simp [record?, Ledger.record?, Ledger.get?_insert, hdecode]
    · have hkey : Ledger.recordKey p ≠ Ledger.recordKey r.identity := fun he =>
        hp (Ledger.recordKey_inj he)
      simp [record?, Ledger.record?, Ledger.get?_insert, hkey]

theorem record?_of_putRecord (h : s.backend.Holds r) {s' : Store}
    (hput : s.putRecord r = (.ok (), s')) : s'.backend = s.backend ∧
      s'.record? r.identity = .ok (some r) ∧ ∀ p ≠ r.identity, s'.record? p = s.record? p := by
  obtain ⟨s'', hput', hrest⟩ := putRecord_spec h
  obtain rfl : s' = s'' := (Prod.mk.inj (hput.symm.trans hput')).2
  exact hrest

theorem putRecord_ne_error (h : s.backend.Holds r) {s' : Store} {e : Failure} :
    s.putRecord r ≠ (.error e, s') := by
  obtain ⟨s'', hput, -⟩ := putRecord_spec h
  rw [hput]
  exact fun he => by cases he

/-- A sound store stays sound. -/
theorem Sound.putRecord (hs : s.Sound) (h : s.backend.Holds r) {s' : Store}
    (hput : s.putRecord r = (.ok (), s')) : s'.Sound := by
  obtain ⟨-, hself, hother⟩ := record?_of_putRecord h hput
  constructor
  · intro p
    by_cases hp : p = r.identity
    · exact ⟨some r, hp ▸ hself⟩
    · rw [hother p hp]
      exact hs.record?_eq p
  · intro p r' hr'
    by_cases hp : p = r.identity
    · subst hp
      cases hself.symm.trans hr'
      rfl
    · rw [hother p hp] at hr'
      exact hs.identity_eq hr'

end Store

/-- The connection of the samples. -/
def sampleAlias : Alias :=
  ⟨"x", rfl⟩

end TierLineage
