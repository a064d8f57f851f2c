import TierLineage.Proofs.Store.Readable

/-!
# A batch is its mappings one after the other

A store that confirms a batch does in one transaction what it does when it confirms the mappings of
the batch one after the other, each in place of whatever is confirmed: it ends in the same state, and
it counts the answers that it would have given.
-/

namespace TierLineage

/-! ### Counts -/

namespace Confirmation

/-- Whether a mapping was created. -/
def isCreated : Confirmation → Bool
  | created _ => true
  | _ => false

/-- Whether a mapping was replaced. -/
def isReplaced : Confirmation → Bool
  | replaced _ _ => true
  | _ => false

/-- Whether a mapping was left alone. -/
def isUnchanged : Confirmation → Bool
  | unchanged _ => true
  | _ => false

end Confirmation

/-- Whether a count has the numbers of answers of each kind. -/
structure BatchCount.Counts (n : BatchCount) (cs : List Confirmation) : Prop where
  inserted_eq : n.inserted = cs.countP Confirmation.isCreated
  updated_eq : n.updated = cs.countP Confirmation.isReplaced
  unchanged_eq : n.unchanged = cs.countP Confirmation.isUnchanged

namespace BatchCount

/-- Counting one answer after the other counts those of each kind. -/
theorem foldl_add_eq (n : BatchCount) (cs : List Confirmation) : cs.foldl add n =
    ⟨n.inserted + cs.countP Confirmation.isCreated, n.updated + cs.countP Confirmation.isReplaced,
      n.unchanged + cs.countP Confirmation.isUnchanged⟩ := by
  induction cs generalizing n with
  | nil => rfl
  | cons c cs ih =>
    rw [List.foldl_cons, ih]
    simp only [List.countP_cons]
    cases c <;> simp [add, Confirmation.isCreated, Confirmation.isReplaced,
      Confirmation.isUnchanged] <;> omega

/-- Answers that leave everything alone are counted as such. -/
theorem foldl_add_of_unchanged {cs : List Confirmation} (h : ∀ c ∈ cs, c.isUnchanged = true) :
    cs.foldl add zero = ⟨0, 0, cs.length⟩ := by
  have hnone : ∀ p : Confirmation → Bool, (∀ c, c.isUnchanged = true → p c = false) →
      cs.countP p = 0 := fun p hp => List.countP_eq_zero.mpr fun c hc => by simp [hp c (h c hc)]
  rw [foldl_add_eq, hnone _ fun c hc => (by cases c <;> first | rfl | cases hc),
    hnone _ fun c hc => (by cases c <;> first | rfl | cases hc), List.countP_eq_length.mpr h]
  simp only [zero, Nat.zero_add]

theorem counts_foldl (cs : List Confirmation) : (cs.foldl add zero).Counts cs := by
  rw [foldl_add_eq]
  exact ⟨Nat.zero_add _, Nat.zero_add _, Nat.zero_add _⟩

end BatchCount

/-! ### One mapping -/

/-- A shelf confirms a mapping of a batch as it confirms it alone. -/
theorem Shelf.confirm_overwrite (h : Shelf) (m : Mapping) :
    h.confirm m .overwrite = (.ok (h.upsert m).1, (h.upsert m).2) := by
  rw [confirm, Slot.confirm_overwrite]
  rfl

namespace Ledger

variable {l l' : Ledger} {m : Mapping} {c : Confirmation}

/-- A ledger confirms a mapping of a batch as it confirms it alone. -/
theorem confirm_overwrite (h : l.upsert m = .ok (c, l')) : l.confirm m .overwrite = (.ok c, l') := by
  obtain ⟨v, hv, hput, rfl⟩ := upsert_eq_ok.mp h
  exact update_of_ok hv (v.confirm_overwrite m) hput

theorem upsert_of_confirm (h : l.confirm m .overwrite = (.ok c, l')) : l.upsert m = .ok (c, l') := by
  rw [confirm] at h
  rcases l.update_cases m.key (·.confirm m .overwrite) with
    ⟨e, heq⟩ | ⟨v, a, w, l₁, hv, hconfirm, hput, heq⟩
  · rw [heq] at h
    cases h
  · rw [heq] at h
    cases h
    rw [Slot.confirm_overwrite] at hconfirm
    obtain ⟨rfl, rfl⟩ := Prod.mk.inj (Except.ok.inj hconfirm)
    exact upsert_eq_ok.mpr ⟨v, hv, hput, rfl⟩

end Ledger

/-! ### Sequences -/

namespace Store

/-- Confirming mappings one after the other, each in place of whatever is confirmed, where all of
them succeed. -/
inductive Overwrites : Store → List Mapping → List Confirmation → Store → Prop
  | nil (s : Store) : Overwrites s [] [] s
  | cons {s s₁ s' : Store} {m : Mapping} {ms : List Mapping} {c : Confirmation}
    {cs : List Confirmation} (h : s.confirm m .overwrite = (.ok c, s₁))
    (hrest : Overwrites s₁ ms cs s') : Overwrites s (m :: ms) (c :: cs) s'

/-- A batch on a shelf is its mappings one after the other. -/
theorem overwrites_memory (h : Shelf) (ms : List Mapping) (n : BatchCount) : ∃ cs h',
    (memory h).Overwrites ms cs (memory h') ∧
      ms.foldl (fun (p : BatchCount × Shelf) m => (p.1.add (p.2.upsert m).1, (p.2.upsert m).2))
        (n, h) = (cs.foldl BatchCount.add n, h') := by
  induction ms generalizing h n with
  | nil => exact ⟨[], h, .nil _, rfl⟩
  | cons m ms ih =>
    obtain ⟨cs, h', hrest, hfold⟩ := ih (h.upsert m).2 (n.add (h.upsert m).1)
    refine ⟨(h.upsert m).1 :: cs, h', .cons ?_ hrest, hfold⟩
    rw [confirm, h.confirm_overwrite]
    rfl

/-- A batch in a ledger that does not fail is its mappings one after the other. -/
theorem overwrites_ledger {l : Ledger} {ms : List Mapping} {n : BatchCount}
    {p : BatchCount × Ledger} (h : ms.foldlM Ledger.batchStep (n, l) = .ok p) :
    ∃ cs, (ledger l).Overwrites ms cs (ledger p.2) ∧ p.1 = cs.foldl BatchCount.add n := by
  induction ms generalizing l n with
  | nil =>
    cases h
    exact ⟨[], .nil _, rfl⟩
  | cons m ms ih =>
    rw [List.foldlM_cons, bind_eq_ok] at h
    obtain ⟨_, hstep, h⟩ := h
    obtain ⟨c, l₁, hupsert, rfl⟩ := Ledger.batchStep_eq_ok.mp hstep
    obtain ⟨cs, hrest, hcount⟩ := ih h
    refine ⟨c :: cs, .cons ?_ hrest, hcount⟩
    rw [confirm, Ledger.confirm_overwrite hupsert]
    rfl

/-- **A batch is its mappings one after the other**, and its count is that of their answers. -/
theorem overwrites_of_upsertAll {s s' : Store} {ms : List Mapping} {n : BatchCount}
    (h : s.upsertAll ms = (.ok n, s')) : ∃ cs, s.Overwrites ms cs s' ∧ n.Counts cs := by
  cases s with
  | memory shelf =>
    obtain ⟨cs, h', hoverwrites, hfold⟩ := overwrites_memory shelf ms .zero
    have hupsert : shelf.upsertAll ms = (cs.foldl BatchCount.add .zero, h') := hfold
    rw [upsertAll, hupsert] at h
    cases h
    exact ⟨cs, hoverwrites, BatchCount.counts_foldl cs⟩
  | ledger l =>
    rw [upsertAll, Ledger.upsertAll_eq] at h
    split at h
    · next hfold =>
      obtain ⟨cs, hoverwrites, hcount⟩ := overwrites_ledger hfold
      cases h
      have hn : n = cs.foldl BatchCount.add .zero := hcount
      exact ⟨cs, hoverwrites, hn ▸ BatchCount.counts_foldl cs⟩
    · cases h

/-- Mappings that a ledger confirms one after the other are a batch in it. -/
theorem foldlM_of_overwrites {l : Ledger} {ms : List Mapping} {cs : List Confirmation} {s' : Store}
    (h : (ledger l).Overwrites ms cs s') (n : BatchCount) : ∃ l', s' = ledger l' ∧
      ms.foldlM Ledger.batchStep (n, l) = .ok (cs.foldl BatchCount.add n, l') := by
  induction ms generalizing l cs n with
  | nil =>
    cases h
    exact ⟨l, rfl, rfl⟩
  | cons m ms ih =>
    cases h with
    | @cons _ s₁ _ _ _ c cs hconfirm hrest =>
      obtain ⟨hok, rfl⟩ := Prod.mk.inj hconfirm
      obtain ⟨l', rfl, hfold⟩ := ih hrest (n.add c)
      have hupsert := Ledger.upsert_of_confirm (Prod.ext hok rfl)
      refine ⟨l', rfl, ?_⟩
      rw [List.foldlM_cons]
      exact bind_eq_ok.mpr ⟨_, Ledger.batchStep_eq_ok.mpr ⟨c, _, hupsert, rfl⟩, hfold⟩

/-- One after the other mappings lead to one end. -/
theorem Overwrites.unique {s s' t : Store} {ms : List Mapping} {cs ds : List Confirmation}
    (h : s.Overwrites ms cs s') (h' : s.Overwrites ms ds t) : cs = ds ∧ s' = t := by
  induction h generalizing ds with
  | nil =>
    cases h'
    exact ⟨rfl, rfl⟩
  | cons hconfirm _ ih =>
    cases h' with
    | cons hconfirm' hrest' =>
      obtain ⟨hc, rfl⟩ := Prod.mk.inj (hconfirm.symm.trans hconfirm')
      obtain ⟨rfl, hs⟩ := ih hrest'
      exact ⟨congrArg (· :: _) (Except.ok.inj hc), hs⟩

/-- What succeeds one after the other succeeds as a batch, and leads to the same store. -/
theorem upsertAll_of_overwrites {s s' : Store} {ms : List Mapping} {cs : List Confirmation}
    (h : s.Overwrites ms cs s') : s.upsertAll ms = (.ok (cs.foldl BatchCount.add .zero), s') := by
  cases s with
  | memory shelf =>
    obtain ⟨ds, shelf', hoverwrites, hfold⟩ := overwrites_memory shelf ms .zero
    obtain ⟨rfl, rfl⟩ := h.unique hoverwrites
    have hupsert : shelf.upsertAll ms = (cs.foldl BatchCount.add .zero, shelf') := hfold
    rw [upsertAll, hupsert]
    rfl
  | ledger l =>
    obtain ⟨l', rfl, hfold⟩ := foldlM_of_overwrites h .zero
    rw [upsertAll, Ledger.upsertAll_eq, hfold]
    rfl

end Store

end TierLineage
