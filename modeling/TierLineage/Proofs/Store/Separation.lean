import TierLineage.Proofs.Store.Agreement

/-!
# What keys tell apart

A ledger tells apart what it stores if different slots and records have different keys, the start of
a hop or of a connection is the start of its own keys only, and writing to one slot changes no
other.  It does so for all tables whose database and schema hold no null character.  That a table is
valid is not enough: its schema may hold the character that separates the parts of a key, and then
two tables have one slot.
-/

namespace TierLineage.Ledger

open TierLineage.Text

variable {l l' : Ledger} {k : SlotKey} {key : String}

/-! ### Other entries -/

/-- A slot is what its entry says. -/
theorem slot_congr (h : l'.entries[slotKey k]? = l.entries[slotKey k]?) : l'.slot k = l.slot k := by
  rw [slot, slot, get?, get?, h]

/-- Changing a slot leaves the entries under other keys. -/
theorem entries_update_of_ne {α : Type} (l : Ledger) (change : Slot → Outcome (α × Slot))
    (h : key ≠ slotKey k) : (l.update k change).2.entries[key]? = l.entries[key]? := by
  rcases l.update_cases k change with ⟨e, heq⟩ | ⟨v, a, w, l', -, -, hput, heq⟩
  · rw [heq]
  · rw [heq, entries_putSlot hput, if_neg h]

/-- Confirming one mapping of a batch leaves the entries under other keys. -/
theorem entries_upsert_of_ne {m : Mapping} {c : Confirmation} (hm : l.upsert m = .ok (c, l'))
    (h : key ≠ slotKey m.key) : l'.entries[key]? = l.entries[key]? := by
  obtain ⟨v, -, hput, -⟩ := upsert_eq_ok.mp hm
  rw [entries_putSlot hput, if_neg h]

/-- What a batch has done so far leaves the entries under keys that none of its mappings has. -/
theorem entries_foldlM_of_ne {ms : List Mapping} {n n' : BatchCount}
    (h : ∀ m ∈ ms, key ≠ slotKey m.key)
    (hfold : ms.foldlM (fun (p : BatchCount × Ledger) m => do
      let (c, l) ← p.2.upsert m
      return (p.1.add c, l)) (n, l) = Except.ok (n', l')) : l'.entries[key]? = l.entries[key]? := by
  -- every mapping starts from the count and the ledger that the ones before it have left
  induction ms generalizing n l with
  | nil =>
    cases hfold
    rfl
  | cons m ms ih =>
    rw [List.foldlM_cons] at hfold
    cases hm : l.upsert m with
    | error e => simp only [hm, bind, Except.bind] at hfold; cases hfold
    | ok cl =>
      simp only [hm, bind, Except.bind, pure, Except.pure] at hfold
      rw [ih (fun n hn => h n (List.mem_cons_of_mem m hn)) hfold,
        entries_upsert_of_ne hm (h m (List.mem_cons_self ..))]

/-- Confirming a batch leaves the entries under keys that none of its mappings has. -/
theorem entries_upsertAll_of_ne (l : Ledger) {ms : List Mapping}
    (h : ∀ m ∈ ms, key ≠ slotKey m.key) : (l.upsertAll ms).2.entries[key]? = l.entries[key]? := by
  rw [upsertAll]
  dsimp only
  split
  · next hfold => exact entries_foldlM_of_ne h hfold
  · rfl

/-! ### Telling apart -/

/-- Two slots have one key exactly if they differ in nothing but where the names inside the
connection are cut. -/
theorem slotKey_eq_iff {k j : SlotKey} : slotKey k = slotKey j ↔
    k.hop = j.hop ∧ k.source.connection = j.source.connection ∧
      joinKey [k.source.database, k.source.schema, k.source.name] =
        joinKey [j.source.database, j.source.schema, j.source.name] := by
  refine ⟨Ledger.slotKey_parts, fun ⟨hhop, hconnection, hnames⟩ => ?_⟩
  have hkey (i : SlotKey) : slotKey i = "map" ++ "\x00" ++ (i.hop.name ++ "\x00" ++
      (i.source.connection.name ++ "\x00" ++
        joinKey [i.source.database, i.source.schema, i.source.name])) := rfl
  rw [hkey, hkey, hhop, hconnection, hnames]

/-- Whether a ledger tells apart what it stores of the tables of a class, and of procedures. -/
structure Separates (D : Table → Prop) : Prop where
  slotKey_inj : ∀ {k j : SlotKey}, D k.source → D j.source → slotKey k = slotKey j → k = j
  /-- Whatever tables are called, their keys tell hops and connections apart, and the names inside
  the connection up to where they are cut. -/
  slotKey_eq : ∀ {k j : SlotKey}, slotKey k = slotKey j ↔
    k.hop = j.hop ∧ k.source.connection = j.source.connection ∧
      joinKey [k.source.database, k.source.schema, k.source.name] =
        joinKey [j.source.database, j.source.schema, j.source.name]
  recordKey_inj : ∀ {p q : ProcedureId}, recordKey p = recordKey q → p = q
  slotKey_ne_recordKey : ∀ (k : SlotKey) (p : ProcedureId), slotKey k ≠ recordKey p
  /-- The start of a hop is a start of the keys of its own slots only. -/
  hop_eq : ∀ {hop : Hop} {k : SlotKey}, (hopStart hop).toList <+: (slotKey k).toList → k.hop = hop
  /-- The start of a connection is a start of the keys of its own records only. -/
  connection_eq : ∀ {a : Alias} {p : ProcedureId},
    (connectionStart a.name).toList <+: (recordKey p).toList → p.connection = a
  /-- Confirming, in whatever mode, leaves the slots of other keys. -/
  confirm_other : ∀ (l : Ledger) (m : Mapping) (mode : ConfirmMode) {k : SlotKey}, D m.source →
    D k.source → k ≠ m.key → (l.confirm m mode).2.slot k = l.slot k
  upsertAll_other : ∀ (l : Ledger) (ms : List Mapping) {k : SlotKey}, D k.source →
    (∀ m ∈ ms, D m.source ∧ k ≠ m.key) → (l.upsertAll ms).2.slot k = l.slot k
  record_other : ∀ (l : Ledger) (ms : List Mapping) {j k : SlotKey}, D j.source → D k.source →
    k ≠ j → (l.record j ms).2.slot k = l.slot k
  delete_other : ∀ (l : Ledger) {j k : SlotKey}, D j.source → D k.source → k ≠ j →
    (l.delete j).2.slot k = l.slot k

/-- **Keys tell apart** the slots of the tables of a class if their databases and schemas hold no null
character, and all records. -/
theorem separates_of_separable (D : Table → Prop) (hD : ∀ t, D t → t.Separable) : Separates D := by
  have hne {k j : SlotKey} (hk : D k.source) (hj : D j.source) (hkj : k ≠ j) :
      slotKey k ≠ slotKey j :=
    fun heq => hkj (slotKey_inj_of_separable (hD _ hk) (hD _ hj) heq)
  constructor
  · exact fun hk hj => slotKey_inj_of_separable (hD _ hk) (hD _ hj)
  · exact slotKey_eq_iff
  · exact Ledger.recordKey_inj
  · exact Ledger.slotKey_ne_recordKey
  · exact fun hstart => (startsWith_slotKey _ _).mp (startsWith_iff.mpr hstart)
  · intro a p hstart
    -- an alias never holds a null character, so its start ends where its name ends
    exact Alias.name_inj.mp ((startsWith_recordKey p a.plain_name).mp (startsWith_iff.mpr hstart))
  · intro l m mode k hm hk hkm
    exact slot_congr (l.entries_update_of_ne _ (hne hk hm hkm))
  · intro l ms k hk hms
    exact slot_congr (l.entries_upsertAll_of_ne fun m hm => hne hk (hms m hm).1 (hms m hm).2)
  · intro l ms j k hj hk hkj
    exact slot_congr (l.entries_update_of_ne _ (hne hk hj hkj))
  · intro l j k hj hk hkj
    exact slot_congr (l.entries_update_of_ne _ (hne hk hj hkj))

/-- The name of a valid table may hold the character that separates the parts of a key. -/
theorem separates_of_separable_sample :
    slotKey ⟨.sourceToStage, sampleTable "a\x00b"⟩ ≠ slotKey ⟨.sourceToStage, sampleTable "a"⟩ := by
  have hseparable : ∀ name, (sampleTable name).Separable := fun name =>
    ⟨(by unfold Plain; decide : Plain ""), (by unfold Plain; decide : Plain "s")⟩
  have hseparates := separates_of_separable (fun t => t.validate = .ok () ∧ t.Separable)
    fun _ h => h.2
  intro hkey
  have heq := hseparates.slotKey_inj ⟨by decide, hseparable "a\x00b"⟩ ⟨by decide, hseparable "a"⟩
    hkey
  exact absurd heq (by decide)

/-- Valid tables may share a slot: a null character moves the bound between schema and name. -/
theorem not_separates_valid : ¬ Separates fun t => t.validate = .ok () := by
  intro h
  let k : SlotKey := ⟨.sourceToStage, ⟨sampleAlias, "", "dbo\x00a", "b"⟩⟩
  let j : SlotKey := ⟨.sourceToStage, ⟨sampleAlias, "", "dbo", "a\x00b"⟩⟩
  -- both keys end in the database, "dbo", "a" and "b", whichever two of them are one name
  have hkey : slotKey k = slotKey j := by decide
  have heq : k = j := h.slotKey_inj (by decide) (by decide) hkey
  exact absurd heq (by decide)

end TierLineage.Ledger
