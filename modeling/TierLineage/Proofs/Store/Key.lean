import Mathlib.Tactic.Common
import TierLineage.Proofs.Text.Parts
import TierLineage.Store.Ledger

/-!
# Keys say what they stand for

The parts of a key that hold no null character can be told from the key, and so can what it starts
with.  Names of hops and connections hold none; a table is `Plain` if its other names hold none
either.
-/

namespace TierLineage

open TierLineage.Text

/-- Whether a text holds no null character. -/
def Plain (s : String) : Prop :=
  '\x00' ∉ s.toList

theorem Alias.plain_name (a : Alias) : Plain a.name := by
  intro hmem
  have hvalid := a.valid
  simp only [isAliasName, Bool.and_eq_true, List.all_eq_true] at hvalid
  exact absurd (hvalid.2 _ hmem).2 (by decide)

theorem Alias.name_inj {a b : Alias} : a.name = b.name ↔ a = b := by
  refine ⟨fun h => ?_, fun h => h ▸ rfl⟩
  obtain ⟨name, _⟩ := a
  obtain ⟨name', _⟩ := b
  cases h
  rfl

theorem Hop.plain_name (h : Hop) : Plain h.name := by
  cases h <;> unfold Plain <;> decide

theorem Hop.name_inj {h h' : Hop} : h.name = h'.name ↔ h = h' := by
  cases h <;> cases h' <;> decide

/-- Whether the names of a table inside its connection hold no null character. -/
structure Table.Plain (t : Table) : Prop where
  database : TierLineage.Plain t.database
  schema : TierLineage.Plain t.schema
  name : TierLineage.Plain t.name

/-- Whether the database and the schema of a table hold no null character; its name, which comes
last in a key, may hold some. -/
structure Table.Separable (t : Table) : Prop where
  database : TierLineage.Plain t.database
  schema : TierLineage.Plain t.schema

theorem Table.Plain.separable {t : Table} (h : t.Plain) : t.Separable :=
  ⟨h.database, h.schema⟩

namespace Ledger

/-! ### Parts -/

theorem joinKey_cons (p q : String) (ps : List String) :
    (joinKey (p :: q :: ps)).toList = p.toList ++ '\x00' :: (joinKey (q :: ps)).toList := by
  simp [joinKey]

/-- Texts without null character can be told from what they are part of. -/
theorem append_null_inj {p p' : String} {cs cs' : List Char} (hp : Plain p) (hp' : Plain p') :
    p.toList ++ '\x00' :: cs = p'.toList ++ '\x00' :: cs' ↔ p = p' ∧ cs = cs' := by
  rw [← String.toList_inj]
  unfold Plain at hp hp'
  generalize p.toList = as at hp ⊢
  generalize p'.toList = bs at hp' ⊢
  induction as generalizing bs with
  | nil =>
    cases bs with
    | nil => simp
    | cons b bs => simp [List.ne_of_not_mem_cons hp']
  | cons a as ih =>
    cases bs with
    | nil => simp [(List.ne_of_not_mem_cons hp).symm]
    | cons b bs =>
      have htail := ih (List.not_mem_of_not_mem_cons hp) bs (List.not_mem_of_not_mem_cons hp')
      simp [htail, and_assoc]

/-- A part without null character can be told from a key. -/
theorem joinKey_inj {p p' q q' : String} {ps ps' : List String} (hp : Plain p) (hp' : Plain p')
    (h : joinKey (p :: q :: ps) = joinKey (p' :: q' :: ps')) :
    p = p' ∧ joinKey (q :: ps) = joinKey (q' :: ps') := by
  have hlist := congrArg String.toList h
  rw [joinKey_cons, joinKey_cons, append_null_inj hp hp'] at hlist
  exact ⟨hlist.1, String.toList_inj.mp hlist.2⟩

/-- What a key starts with tells its first part. -/
theorem prefix_joinKey {p p' q : String} {ps : List String} {rest : List Char} (hp : Plain p)
    (hp' : Plain p') : p'.toList ++ '\x00' :: rest <+: (joinKey (p :: q :: ps)).toList ↔
      p' = p ∧ rest <+: (joinKey (q :: ps)).toList := by
  rw [joinKey_cons]
  constructor
  · rintro ⟨more, hmore⟩
    rw [List.append_assoc, List.cons_append, append_null_inj hp' hp] at hmore
    exact ⟨hmore.1, ⟨more, hmore.2⟩⟩
  · rintro ⟨rfl, h⟩
    exact (List.prefix_append_right_inj _).mpr (List.cons_prefix_cons.mpr ⟨rfl, h⟩)

theorem plain_map : Plain "map" := by unfold Plain; decide

theorem plain_lin : Plain "lin" := by unfold Plain; decide

/-! ### Keys of slots and records -/

/-- The key of a slot tells its hop, its connection, and what its other names are joined to. -/
theorem slotKey_parts {k l : SlotKey} (h : slotKey k = slotKey l) :
    k.hop = l.hop ∧ k.source.connection = l.source.connection ∧
      joinKey [k.source.database, k.source.schema, k.source.name] =
        joinKey [l.source.database, l.source.schema, l.source.name] := by
  obtain ⟨-, h⟩ := joinKey_inj plain_map plain_map h
  obtain ⟨hhop, h⟩ := joinKey_inj k.hop.plain_name l.hop.plain_name h
  obtain ⟨halias, h⟩ := joinKey_inj k.source.connection.plain_name l.source.connection.plain_name h
  exact ⟨Hop.name_inj.mp hhop, Alias.name_inj.mp halias, h⟩

/-- Slots of separable tables are kept under different keys. -/
theorem slotKey_inj_of_separable {k l : SlotKey} (hk : k.source.Separable) (hl : l.source.Separable)
    (h : slotKey k = slotKey l) : k = l := by
  obtain ⟨hhop, hconnection, h⟩ := slotKey_parts h
  obtain ⟨hdatabase, h⟩ := joinKey_inj hk.database hl.database h
  obtain ⟨hschema, hname⟩ := joinKey_inj hk.schema hl.schema h
  have hname : k.source.name = l.source.name := hname
  obtain ⟨hop, ⟨connection, database, schema, name⟩⟩ := k
  obtain ⟨hop', ⟨connection', database', schema', name'⟩⟩ := l
  simp only at hhop hconnection hdatabase hschema hname
  subst hhop hconnection hdatabase hschema hname
  rfl

/-- Slots of plain tables are kept under different keys. -/
theorem slotKey_inj {k l : SlotKey} (hk : k.source.Plain) (hl : l.source.Plain)
    (h : slotKey k = slotKey l) : k = l :=
  slotKey_inj_of_separable hk.separable hl.separable h

/-- Records of different procedures are kept under different keys. -/
theorem recordKey_inj {p q : ProcedureId} (h : recordKey p = recordKey q) : p = q := by
  obtain ⟨-, h⟩ := joinKey_inj plain_lin plain_lin h
  obtain ⟨halias, hname⟩ := joinKey_inj p.connection.plain_name q.connection.plain_name h
  have hname : p.name = q.name := hname
  have hconnection := Alias.name_inj.mp halias
  obtain ⟨connection, name⟩ := p
  obtain ⟨connection', name'⟩ := q
  simp only at hconnection hname
  subst hconnection hname
  rfl

/-- No slot is kept under the key of a record. -/
theorem slotKey_ne_recordKey (k : SlotKey) (p : ProcedureId) : slotKey k ≠ recordKey p := fun h =>
  absurd (joinKey_inj plain_map plain_lin h).1 (by decide)

/-! ### Common starts -/

theorem hopStart_toList (h : Hop) :
    (hopStart h).toList = "map".toList ++ '\x00' :: (h.name.toList ++ '\x00' :: []) := by
  simp [hopStart, joinKey]

theorem connectionStart_toList (connection : String) :
    (connectionStart connection).toList =
      "lin".toList ++ '\x00' :: (connection.toList ++ '\x00' :: []) := by
  simp [connectionStart, joinKey]

/-- The keys of the slots of a hop are those with its start. -/
theorem startsWith_slotKey (k : SlotKey) (h : Hop) :
    startsWith (slotKey k).toList (hopStart h).toList = true ↔ k.hop = h := by
  rw [startsWith_iff, hopStart_toList, slotKey, prefix_joinKey plain_map plain_map,
    prefix_joinKey k.hop.plain_name h.plain_name, Hop.name_inj]
  simp [eq_comm]

/-- The keys of the records of a connection are those with its start. -/
theorem startsWith_recordKey (p : ProcedureId) {a : String} (ha : Plain a) :
    startsWith (recordKey p).toList (connectionStart a).toList = true ↔ p.connection.name = a := by
  rw [startsWith_iff, connectionStart_toList, recordKey, prefix_joinKey plain_lin plain_lin,
    prefix_joinKey p.connection.plain_name ha]
  simp [eq_comm]

theorem not_startsWith_recordKey (p : ProcedureId) (h : Hop) :
    startsWith (recordKey p).toList (hopStart h).toList = false := by
  rw [Bool.eq_false_iff, ne_eq, startsWith_iff, hopStart_toList, recordKey,
    prefix_joinKey plain_lin plain_map]
  exact fun hp => absurd hp.1 (by decide)

theorem not_startsWith_slotKey (k : SlotKey) (connection : String) :
    startsWith (slotKey k).toList (connectionStart connection).toList = false := by
  rw [Bool.eq_false_iff, ne_eq, startsWith_iff, connectionStart_toList, slotKey,
    prefix_joinKey plain_map plain_lin]
  exact fun hp => absurd hp.1 (by decide)

end Ledger

end TierLineage
