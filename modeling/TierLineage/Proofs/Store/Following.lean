import TierLineage.Proofs.Store.Contents

/-!
# Stores that follow a shelf

A store follows a shelf if it is that shelf, or a ledger that mirrors it.  It answers what is asked
of it as the shelf does and follows it to where the operation leads, as long as a ledger is asked
what it can keep.  So what is shown of shelves holds of both ways of keeping.
-/

namespace TierLineage.Store

/-- Whether a store is a shelf, or a ledger that mirrors it. -/
inductive Follows : Store → Shelf → Prop
  | shelf (h : Shelf) : Follows (memory h) h
  | mirror {l : Ledger} {h : Shelf} (hl : l.Mirrors h) : Follows (ledger l) h

/-- Whether a store can do what is asked: a ledger has to be asked what it can keep. -/
def Takes (s : Store) (op : Operation) : Prop :=
  s.backend = .ledger → op.Proper

variable {s : Store} {h : Shelf} {m : Mapping} {k : SlotKey} {ms : List Mapping}

theorem follows_empty (b : Backend) : (empty b).Follows .empty := by
  cases b with
  | memory => exact .shelf _
  | ledger => exact .mirror Ledger.mirrors_empty

/-- A store shows the shelf that it follows. -/
theorem Follows.shows (hs : s.Follows h) : s.Shows h := by
  cases hs with
  | shelf => exact shows_memory h
  | mirror hl => exact shows_ledger hl

/-! ### One operation -/

theorem Follows.perform (hs : s.Follows h) {op : Operation} (hop : s.Takes op) :
    ∃ a h' s', (memory h).perform op = (a, memory h') ∧ s.perform op = (a, s') ∧
      s'.Follows h' ∧ s'.backend = s.backend := by
  cases hs with
  | shelf =>
    obtain ⟨h', hh'⟩ := perform_memory h op
    exact ⟨((memory h).perform op).1, h', _, Prod.ext rfl hh', rfl, hh' ▸ .shelf h', hh' ▸ rfl⟩
  | mirror hl =>
    obtain ⟨a, h', l', hh', hl', hmirrors⟩ := hl.perform (hop rfl)
    exact ⟨a, h', _, hh', hl', .mirror hmirrors, rfl⟩

theorem Follows.confirm (hs : s.Follows h) {mode : ConfirmMode} (hop : s.Takes (.confirm m mode)) :
    ∃ s', s.confirm m mode = ((h.confirm m mode).1, s') ∧ s'.Follows (h.confirm m mode).2 ∧
      s'.backend = s.backend := by
  obtain ⟨a, h', s', hh', hs', hfollows, hbackend⟩ := hs.perform hop
  obtain ⟨rfl, hshelf⟩ := Prod.mk.inj hh'
  obtain ⟨hanswer, rfl⟩ := Prod.mk.inj hs'
  cases hshelf
  exact ⟨_, Prod.ext (Answer.confirmation.inj hanswer) rfl, hfollows, hbackend⟩

theorem Follows.record (hs : s.Follows h) (hop : s.Takes (.record k ms)) :
    ∃ s', s.record k ms = (.ok (h.record k ms).1, s') ∧ s'.Follows (h.record k ms).2 ∧
      s'.backend = s.backend := by
  obtain ⟨a, h', s', hh', hs', hfollows, hbackend⟩ := hs.perform hop
  obtain ⟨rfl, hshelf⟩ := Prod.mk.inj hh'
  obtain ⟨hanswer, rfl⟩ := Prod.mk.inj hs'
  cases hshelf
  exact ⟨_, Prod.ext (Answer.told.inj hanswer) rfl, hfollows, hbackend⟩

/-! ### Runs -/

theorem Follows.after (hs : s.Follows h) {ops : List Operation} (hops : ∀ op ∈ ops, s.Takes op) :
    ∃ h', (memory h).after ops = memory h' ∧ (s.after ops).Follows h' ∧
      (s.after ops).backend = s.backend := by
  induction ops generalizing s h with
  | nil => exact ⟨h, rfl, hs, rfl⟩
  | cons op ops ih =>
    obtain ⟨a, h₁, s₁, hh₁, hs₁, hfollows, hbackend⟩ := hs.perform (hops op (List.mem_cons_self ..))
    obtain ⟨h', hh', hfollows', hbackend'⟩ := ih hfollows fun op' hop' hb =>
      hops op' (List.mem_cons_of_mem op hop') (hbackend ▸ hb)
    rw [Store.after, hh₁, Store.after, hs₁]
    exact ⟨h', hh', hfollows', hbackend'.trans hbackend⟩

theorem after_append (s : Store) (ops ops' : List Operation) :
    s.after (ops ++ ops') = (s.after ops).after ops' := by
  induction ops generalizing s with
  | nil => rfl
  | cons op ops ih => exact ih _

theorem backend_empty (b : Backend) : (empty b).backend = b := by
  cases b <;> rfl

theorem backend_perform (s : Store) (op : Operation) : (s.perform op).2.backend = s.backend := by
  cases s <;> cases op <;> rfl

/-- Whatever was asked of a store, it is of the kind that it was. -/
theorem backend_after (s : Store) (ops : List Operation) : (s.after ops).backend = s.backend := by
  induction ops generalizing s with
  | nil => rfl
  | cons op ops ih => exact (ih _).trans (s.backend_perform op)

/-- Whatever was asked of a store that started empty, it follows a shelf. -/
theorem follows_after (b : Backend) {ops : List Operation}
    (hledger : b = .ledger → ∀ op ∈ ops, op.Proper) :
    ∃ h, ((empty b).after ops).Follows h ∧ ((empty b).after ops).backend = b := by
  obtain ⟨h, -, hfollows, hbackend⟩ := (follows_empty b).after fun op hop hb =>
    hledger (backend_empty b ▸ hb) op hop
  exact ⟨h, hfollows, hbackend.trans (backend_empty b)⟩

end TierLineage.Store
