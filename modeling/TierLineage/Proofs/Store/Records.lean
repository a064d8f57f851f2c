import TierLineage.Proofs.Store.Following

/-!
# Records one after the other

A record that is put into a store changes what is found of its own procedure and nothing else, and
whether it is taken depends on the kind of the store only.  So a store into which records of
different procedures were put one after the other has each of them, and is otherwise as it was.
-/

namespace TierLineage.Store

variable {s s' t : Store} {f : Record} {fs : List Record} {p : ProcedureId}

/-! ### One record -/

/-- A ledger takes the records of procedures whose keys are not too long. -/
theorem putRecord_ledger_fst (l : Ledger) (f : Record) : ((ledger l).putRecord f).1 =
    if Ledger.keyLimit < (Ledger.recordKey f.identity).utf8ByteSize then .error Ledger.keyTooLong
    else .ok () := by
  rw [putRecord, Ledger.putRecord, Ledger.put]
  by_cases h : Ledger.keyLimit < (Ledger.recordKey f.identity).utf8ByteSize
  · rw [if_pos h, if_pos h]
    rfl
  · rw [if_neg h, if_neg h]
    rfl

/-- Whether a record is taken depends on the kind of the store and on the procedure only. -/
theorem putRecord_fst_congr {g : Record} (hs : s.backend = t.backend)
    (hf : f.identity = g.identity) : (s.putRecord f).1 = (t.putRecord g).1 := by
  cases s with
  | memory shelf =>
    cases t with
    | memory shelf' => rfl
    | ledger l => cases hs
  | ledger l =>
    cases t with
    | memory shelf => cases hs
    | ledger l' => rw [putRecord_ledger_fst, putRecord_ledger_fst, hf]

/-- A record that is taken can be read back, if it is of a moment that dates can have. -/
theorem holds_of_putRecord (h : s.putRecord f = (.ok (), s'))
    (hvalid : s.backend = .ledger → f.computedAt.Valid) : s.backend.Holds f := by
  cases s with
  | memory shelf => trivial
  | ledger l =>
    refine ⟨?_, hvalid rfl⟩
    by_contra hfits
    rw [putRecord, Ledger.putRecord, Ledger.put, if_pos (Nat.lt_of_not_le hfits)] at h
    cases h

/-- A ledger into which a record was put has its text, or is as it was. -/
theorem putRecord_ledger_cases (l : Ledger) (f : Record) :
    (ledger l).putRecord f = (.ok (), .ledger ⟨l.entries.insert (Ledger.recordKey f.identity)
      (Json.compact f.toJson)⟩) ∨ ∃ e, (ledger l).putRecord f = (.error e, .ledger l) := by
  rcases l.putRecord_cases f with h | h
  · exact .inl (by rw [putRecord, h]; rfl)
  · exact .inr ⟨_, by rw [putRecord, h]; rfl⟩

/-- A record that is not taken leaves the store. -/
theorem eq_of_putRecord_error {e : Failure} (h : s.putRecord f = (.error e, s')) : s' = s := by
  cases s with
  | memory shelf => cases h
  | ledger l =>
    rcases putRecord_ledger_cases l f with hok | ⟨e', herror⟩
    · cases hok.symm.trans h
    · cases herror.symm.trans h
      rfl

theorem backend_putRecord (s : Store) (f : Record) : (s.putRecord f).2.backend = s.backend := by
  cases s <;> rfl

/-- A record touches no slot. -/
theorem slot_putRecord (s : Store) (f : Record) (k : SlotKey) :
    (s.putRecord f).2.slot k = s.slot k := by
  cases s with
  | memory shelf => rfl
  | ledger l =>
    rcases putRecord_ledger_cases l f with hok | ⟨e, herror⟩
    · rw [hok]
      simp only [slot, Ledger.slot, Ledger.get?_insert, if_neg (Ledger.slotKey_ne_recordKey k _)]
    · rw [herror]

/-- A record touches no other procedure, whether it is taken or not. -/
theorem record?_putRecord_of_ne (h : p ≠ f.identity) : (s.putRecord f).2.record? p = s.record? p := by
  cases s with
  | memory shelf =>
    simp only [putRecord, record?, Shelf.record?, Shelf.putRecord, getElem?_insert_eq, if_neg h]
  | ledger l =>
    rcases putRecord_ledger_cases l f with hok | ⟨e, herror⟩
    · have hkey : Ledger.recordKey p ≠ Ledger.recordKey f.identity := fun heq =>
        h (Ledger.recordKey_inj heq)
      rw [hok]
      simp only [record?, Ledger.record?, Ledger.get?_insert, if_neg hkey]
    · rw [herror]

/-! ### Several records -/

/-- The store after records were put into it one after the other. -/
def afterRecords (s : Store) (fs : List Record) : Store :=
  s.after (fs.map .putRecord)

theorem afterRecords_append (s : Store) (fs : List Record) (f : Record) :
    s.afterRecords (fs ++ [f]) = ((s.afterRecords fs).putRecord f).2 := by
  rw [afterRecords, List.map_append, after_append]
  rfl

theorem backend_afterRecords (s : Store) (fs : List Record) :
    (s.afterRecords fs).backend = s.backend := by
  induction fs generalizing s with
  | nil => rfl
  | cons f fs ih => exact (ih _).trans (s.backend_putRecord f)

/-- Records leave what is found of other procedures. -/
theorem record?_afterRecords_of_ne (h : ∀ f ∈ fs, p ≠ f.identity) :
    (s.afterRecords fs).record? p = s.record? p := by
  induction fs generalizing s with
  | nil => rfl
  | cons f fs ih =>
    obtain ⟨hf, hfs⟩ := List.forall_mem_cons.mp h
    exact (ih hfs).trans (record?_putRecord_of_ne hf)

/-- Each of the records of different procedures is found. -/
theorem record?_afterRecords_of_mem (hdistinct : (fs.map (·.identity)).Nodup)
    (hholds : ∀ f ∈ fs, s.backend.Holds f) (hf : f ∈ fs) :
    (s.afterRecords fs).record? f.identity = .ok (some f) := by
  induction fs generalizing s with
  | nil => cases hf
  | cons g fs ih =>
    obtain ⟨hnew, hdistinct⟩ := List.nodup_cons.mp hdistinct
    obtain ⟨hg, hfs⟩ := List.forall_mem_cons.mp hholds
    rcases List.mem_cons.mp hf with rfl | hf
    · obtain ⟨s', hput, -, hself, -⟩ := putRecord_spec hg
      refine (record?_afterRecords_of_ne (s := (s.putRecord f).2) fun g hg heq => ?_).trans ?_
      · exact hnew (List.mem_map.mpr ⟨g, hg, heq.symm⟩)
      · rw [hput]
        exact hself
    · exact ih (s := (s.putRecord g).2) hdistinct (by rwa [backend_putRecord]) hf

end TierLineage.Store
