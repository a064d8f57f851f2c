import TierLineage.Proofs.Store.Keyed
import TierLineage.Proofs.Store.Records

/-!
# Digests of a connection

A store tells the digests of the texts that the records of a connection are about in one answer, by
the names of the procedures, and tells each record by itself.  Both are read from the same entries,
though under different keys: a listing goes by the start of the keys, which other connections do not
have, even if their names begin alike.  So a digest is in the answer if and only if the record of the
procedure has it.
-/

namespace TierLineage

/-- Whether a record that an operation puts into a store is of a moment that dates can have. -/
def Operation.Dated : Operation → Prop
  | putRecord r => r.computedAt.Valid
  | _ => True

/-! ### Ledgers -/

namespace Ledger

variable {l l' : Ledger} {k : SlotKey} {v : Slot} {p : ProcedureId}

/-- Whether every record of a ledger can be read, and is one of its own procedure. -/
def Recorded (l : Ledger) : Prop :=
  ∀ (p : ProcedureId) (text : String), l.entries[recordKey p]? = some text →
    ∃ r, decode Record.read text = .ok r ∧ r.identity = p

theorem recorded_empty : empty.Recorded := fun _ _ h => by cases h

theorem Recorded.putSlot (hl : l.Recorded) (hput : l.putSlot k v = .ok l') : l'.Recorded := by
  intro p text hp
  rw [entries_putSlot hput, if_neg fun heq => slotKey_ne_recordKey k p heq.symm] at hp
  exact hl p text hp

theorem Recorded.putRecord (hl : l.Recorded) {r : Record} (hr : r.computedAt.Valid) :
    (l.putRecord r).2.Recorded := by
  rcases l.putRecord_cases r with hput | hput
  · rw [hput]
    intro p text hp
    rw [getElem?_insert_eq] at hp
    split at hp
    · next heq =>
      rw [← Option.some.inj hp]
      exact ⟨r, decode_compact r.clean_toJson (Record.read_toJson hr), (recordKey_inj heq).symm⟩
    · exact hl p text hp
  · rwa [hput]

theorem Recorded.deleteRecord (hl : l.Recorded) (p : ProcedureId) :
    (l.deleteRecord p).2.Recorded := by
  intro q text hq
  have herase : (l.entries.erase (recordKey p))[recordKey q]? = some text := hq
  rw [getElem?_erase_eq] at herase
  split at herase
  · cases herase
  · exact hl q text herase

/-- What is found of a procedure is read from its text. -/
theorem record?_eq_some {r : Record} : l.record? p = .ok (some r) ↔
    ∃ text, l.entries[recordKey p]? = some text ∧ decode Record.read text = .ok r := by
  rw [record?, get?]
  cases l.entries[recordKey p]? with
  | none => simp
  | some text => cases hdecode : decode Record.read text <;> simp [hdecode, Except.map]

theorem Recorded.exists_record? (hl : l.Recorded) (p : ProcedureId) : ∃ o, l.record? p = .ok o := by
  rw [record?, get?]
  cases htext : l.entries[recordKey p]? with
  | none => exact ⟨none, rfl⟩
  | some text =>
    obtain ⟨r, hr, -⟩ := hl p text htext
    exact ⟨some r, by simp only [hr]; rfl⟩

/-- What starts like a connection is the text of a record of one of its procedures. -/
theorem Keyed.record_of_starting (hl : l.Keyed) (hr : l.Recorded) {a : Alias} {key text : String}
    (h : (key, text) ∈ l.starting (connectionStart a.name)) :
    ∃ r, decode Record.read text = .ok r ∧ key = recordKey r.identity ∧
      r.identity.connection = a := by
  obtain ⟨hkey, hstart⟩ := mem_starting.mp h
  rcases hl key text hkey with ⟨k, rfl⟩ | ⟨p, rfl⟩
  · rw [not_startsWith_slotKey] at hstart
    cases hstart
  · obtain ⟨r, hdecode, rfl⟩ := hr p text hkey
    exact ⟨r, hdecode, rfl, Alias.name_inj.mp ((startsWith_recordKey _ a.plain_name).mp hstart)⟩

/-- The digests of a connection are those of the records of its procedures. -/
theorem Keyed.exists_hashesOf (hl : l.Keyed) (hr : l.Recorded) (a : Alias) :
    ∃ hashes, l.hashesOf a.name = .ok hashes ∧ ∀ name digest, (name, digest) ∈ hashes ↔
      ∃ r, l.record? ⟨a, name⟩ = .ok (some r) ∧ r.definitionHash = digest := by
  obtain ⟨rs, hrs⟩ : ∃ rs, l.recordsOf a.name = .ok rs := by
    refine exists_mapM_eq_ok fun e he => ?_
    obtain ⟨r, hdecode, -⟩ := hl.record_of_starting hr he
    exact ⟨r, hdecode⟩
  have hmem : ∀ r, r ∈ rs ↔
      ∃ e ∈ l.starting (connectionStart a.name), decode Record.read e.2 = .ok r :=
    fun r => mem_of_mapM hrs
  refine ⟨_, by rw [hashesOf, hrs]; rfl, fun name digest => ?_⟩
  rw [List.mem_map]
  constructor
  · rintro ⟨r, hmemr, heq⟩
    cases heq
    obtain ⟨⟨key, text⟩, he, hdecode⟩ := (hmem r).mp hmemr
    obtain ⟨r', hdecode', rfl, hconnection⟩ := hl.record_of_starting hr he
    cases hdecode.symm.trans hdecode'
    refine ⟨r, record?_eq_some.mpr ⟨text, ?_, hdecode⟩, rfl⟩
    rw [← hconnection]
    exact (mem_starting.mp he).1
  · rintro ⟨r, hrecord, rfl⟩
    obtain ⟨text, htext, hdecode⟩ := record?_eq_some.mp hrecord
    obtain ⟨r', hdecode', hidentity⟩ := hr _ text htext
    cases hdecode.symm.trans hdecode'
    refine ⟨r, (hmem r).mpr ⟨(_, text), mem_starting.mpr ⟨htext, ?_⟩, hdecode⟩, ?_⟩
    · exact (startsWith_recordKey ⟨a, name⟩ a.plain_name).mpr rfl
    · rw [hidentity]

end Ledger

/-! ### Stores -/

namespace Store

variable {s : Store}

/-- Whether every record of a store can be read. -/
def Recorded : Store → Prop
  | memory _ => True
  | ledger l => l.Recorded

/-- An operation leaves records that can be read, also if it fails. -/
theorem Recorded.perform (hs : s.Recorded) {op : Operation} (hop : s.backend = .ledger → op.Dated) :
    (s.perform op).2.Recorded := by
  cases s with
  | memory h =>
    obtain ⟨h', hh'⟩ := perform_memory h op
    rw [hh']
    trivial
  | ledger l =>
    have hdated := hop rfl
    obtain ⟨l', hl', hrecorded⟩ := Ledger.keep_perform Ledger.Recorded.putSlot
      (fun r (heq : op = .putRecord r) hl => hl.putRecord (by rw [heq] at hdated; exact hdated))
      (fun p hl => hl.deleteRecord p) hs
    rw [hl']
    exact hrecorded

theorem Recorded.after (hs : s.Recorded) {ops : List Operation}
    (hops : s.backend = .ledger → ∀ op ∈ ops, op.Dated) : (s.after ops).Recorded := by
  induction ops generalizing s with
  | nil => exact hs
  | cons op ops ih =>
    refine ih (hs.perform fun hb => (List.forall_mem_cons.mp (hops hb)).1) fun hb => ?_
    rw [backend_perform] at hb
    exact (List.forall_mem_cons.mp (hops hb)).2

/-- Whatever was asked of a store that started empty, its records can be read. -/
theorem recorded_after (b : Backend) {ops : List Operation}
    (hops : b = .ledger → ∀ op ∈ ops, op.Dated) : ((empty b).after ops).Recorded := by
  have hempty : (empty b).Recorded ∧ (empty b).backend = b := by
    cases b with
    | memory => exact ⟨trivial, rfl⟩
    | ledger => exact ⟨Ledger.recorded_empty, rfl⟩
  exact hempty.1.after fun hb => hops (hempty.2.symm.trans hb)

theorem Recorded.exists_record? (hs : s.Recorded) (p : ProcedureId) : ∃ o, s.record? p = .ok o := by
  cases s with
  | memory h => exact ⟨_, rfl⟩
  | ledger l => exact Ledger.Recorded.exists_record? hs p

/-- A store has a digest under the name of a procedure of a connection if and only if the record of
the procedure has it. -/
theorem exists_hashesOf (hk : s.Keyed) (hs : s.Recorded) (a : Alias) :
    ∃ hashes, s.hashesOf a.name = .ok hashes ∧ ∀ name digest, (name, digest) ∈ hashes ↔
      ∃ r, s.record? ⟨a, name⟩ = .ok (some r) ∧ r.definitionHash = digest := by
  cases s with
  | memory h =>
    refine ⟨_, rfl, fun name digest => ?_⟩
    simp only [Shelf.hashesOf, List.mem_map, record?, Shelf.record?, Except.ok.injEq]
    constructor
    · rintro ⟨⟨p, r⟩, he, heq⟩
      cases heq
      obtain ⟨hrecord, hname⟩ := Shelf.mem_written.mp he
      obtain rfl := Alias.name_inj.mp hname
      exact ⟨r, hrecord, rfl⟩
    · rintro ⟨r, hrecord, rfl⟩
      exact ⟨(⟨a, name⟩, r), Shelf.mem_written.mpr ⟨hrecord, rfl⟩, rfl⟩
  | ledger l => exact Ledger.Keyed.exists_hashesOf hk hs a

/-- Under a key with one value only, this value is looked up. -/
theorem lookup_eq {α : Type} {es : List (String × α)} {key : String} {o : Option α}
    (h : ∀ v, (key, v) ∈ es ↔ o = some v) : es.lookup key = o := by
  cases hlookup : es.lookup key with
  | none =>
    refine (Option.eq_none_iff_forall_ne_some.mpr fun v hv => ?_).symm
    have hne := List.lookup_eq_none_iff.mp hlookup (key, v) ((h v).mpr hv)
    simp at hne
  | some v =>
    obtain ⟨before, after, rfl, -⟩ := List.lookup_eq_some_iff.mp hlookup
    exact ((h v).mp (by simp)).symm

/-- The digest that is looked up for a procedure in the answer for its connection is that of its
record. -/
theorem exists_lookup_hashesOf (hk : s.Keyed) (hs : s.Recorded) (a : Alias) :
    ∃ hashes, s.hashesOf a.name = .ok hashes ∧ ∀ name, ∃ o, s.record? ⟨a, name⟩ = .ok o ∧
      hashes.reverse.lookup name = o.map (·.definitionHash) := by
  obtain ⟨hashes, hhashes, hmem⟩ := exists_hashesOf hk hs a
  refine ⟨hashes, hhashes, fun name => ?_⟩
  obtain ⟨o, ho⟩ := hs.exists_record? ⟨a, name⟩
  refine ⟨o, ho, lookup_eq fun digest => ?_⟩
  rw [List.mem_reverse, hmem, ho]
  cases o <;> simp

end Store

end TierLineage
