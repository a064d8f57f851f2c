import TierLineage.Store

/-!
# What confirming does to a slot

Confirming in a slot does one of three things: it fills a slot in which nothing was confirmed, it
puts a mapping in the place of the confirmed one, or it leaves the slot alone.  `Confirms` has a
case for each, with what led to it; a conflict is the only other end.  From these cases it is read
off that the answer tells the truth about the slot: what was created, replaced or left alone, what
is confirmed afterwards, and whose identity it has.
-/

namespace TierLineage

/-- Whether confirming puts a mapping in the place of a confirmed one. -/
def ConfirmMode.replaces : ConfirmMode → Mapping → Mapping → Bool
  | ifAbsent, _, _ => false
  | overwrite, p, m => !p.sameContent m
  | refreshAuto, p, m => Slot.refreshes p m

namespace Slot

variable {v w : Slot} {m p : Mapping} {mode : ConfirmMode} {c : Confirmation} {e : Failure}

/-! ### The cases of confirming -/

/-- The mapping that comes in the place of another one: if both have one target, it has the
identity of the other one. -/
def successor (p m : Mapping) : Mapping :=
  if p.target = m.target then { m with identifier := p.identifier } else m

/-- What confirming a mapping answers, and the slot that it leaves. -/
inductive Confirms (v : Slot) (m : Mapping) (mode : ConfirmMode) : Confirmation → Slot → Prop
  | created (h : v.confirmed = none) :
    Confirms v m mode (.created (asConfirmed m)) (holding (asConfirmed m))
  | replaced {p : Mapping} (h : v.confirmed = some p)
    (hreplaces : mode.replaces p (asConfirmed m) = true) :
    Confirms v m mode (.replaced p (successor p (asConfirmed m)))
      (holding (successor p (asConfirmed m)))
  | unchanged {p : Mapping} (h : v.confirmed = some p)
    (hkeeps : mode.replaces p (asConfirmed m) = false)
    (htarget : mode = .ifAbsent → p.target = m.target) : Confirms v m mode (.unchanged p) v

theorem replace_eq (p m : Mapping) :
    replace p m = (.replaced p (successor p m), holding (successor p m)) :=
  rfl

/-- What confirming says of a confirmed mapping to another target. -/
def conflictWith (p : Mapping) : Failure :=
  .conflict (.alreadyConfirmed p.hop p.source.display p.target.display)

theorem confirm_of_none (h : v.confirmed = none) :
    v.confirm m mode = .ok (.created (asConfirmed m), holding (asConfirmed m)) := by
  rw [confirm, h]

theorem confirm_of_some (h : v.confirmed = some p) :
    v.confirm m mode =
      if mode = .ifAbsent ∧ p.target ≠ m.target then .error (conflictWith p)
      else if mode.replaces p (asConfirmed m) = true then
        .ok (.replaced p (successor p (asConfirmed m)), holding (successor p (asConfirmed m)))
      else .ok (.unchanged p, v) := by
  cases mode with
  | ifAbsent =>
    have htarget : (asConfirmed m).target = m.target := rfl
    by_cases ht : p.target = m.target <;>
      simp [confirm, h, htarget, ht, ConfirmMode.replaces, conflictWith]
  | overwrite =>
    -- this mode marks the mapping as confirmed a second time
    have hm : asConfirmed (asConfirmed m) = asConfirmed m := rfl
    by_cases hs : p.sameContent (asConfirmed m) = true <;>
      simp [confirm, overwrite, h, hm, hs, ConfirmMode.replaces, replace_eq]
  | refreshAuto =>
    by_cases hr : refreshes p (asConfirmed m) = true <;>
      simp [confirm, h, hr, ConfirmMode.replaces, replace_eq]

/-- Confirming whatever is confirmed is confirming in the mode that replaces it. -/
theorem confirm_overwrite (v : Slot) (m : Mapping) :
    v.confirm m .overwrite = .ok (v.overwrite m) := by
  cases h : v.confirmed with
  | none => rw [confirm_of_none h, overwrite, h]
  | some p =>
    by_cases hs : p.sameContent (asConfirmed m) = true <;>
      simp [confirm_of_some h, overwrite, h, hs, ConfirmMode.replaces, replace_eq]

/-- Confirming answers what the cases say. -/
theorem confirm_eq_ok_iff : v.confirm m mode = .ok (c, w) ↔ v.Confirms m mode c w := by
  constructor
  · intro heq
    cases h : v.confirmed with
    | none =>
      rw [confirm_of_none h] at heq
      cases heq
      exact .created h
    | some p =>
      rw [confirm_of_some h] at heq
      split at heq
      · cases heq
      · next hconflict =>
        have htarget : mode = .ifAbsent → p.target = m.target := fun hmode =>
          Decidable.not_not.mp fun ht => hconflict ⟨hmode, ht⟩
        split at heq
        · next hreplaces =>
          cases heq
          exact .replaced h hreplaces
        · next hkeeps =>
          cases heq
          exact .unchanged h (Bool.eq_false_iff.mpr hkeeps) htarget
  · rintro (h | ⟨h, hreplaces⟩ | ⟨h, hkeeps, htarget⟩)
    · exact confirm_of_none h
    · -- a mode that replaces is not the one that looks for conflicts
      have hmode : mode ≠ .ifAbsent := by
        rintro rfl
        cases hreplaces
      rw [confirm_of_some h, if_neg fun hc => hmode hc.1, if_pos hreplaces]
    · rw [confirm_of_some h, if_neg fun hc => hc.2 (htarget hc.1), hkeeps, if_neg Bool.false_ne_true]

/-- A conflict is with a confirmed mapping to another target. -/
theorem confirm_eq_error_iff : v.confirm m mode = .error e ↔
    mode = .ifAbsent ∧ ∃ p, v.confirmed = some p ∧ p.target ≠ m.target ∧ e = conflictWith p := by
  cases h : v.confirmed with
  | none => simp [confirm_of_none h]
  | some p =>
    rw [confirm_of_some h]
    constructor
    · intro heq
      split at heq
      · next hc =>
        cases heq
        exact ⟨hc.1, p, rfl, hc.2, rfl⟩
      · split at heq <;> cases heq
    · rintro ⟨hmode, q, hq, ht, rfl⟩
      cases hq
      rw [if_pos ⟨hmode, ht⟩]

theorem confirms_overwrite (v : Slot) (m : Mapping) :
    v.Confirms m .overwrite (v.overwrite m).1 (v.overwrite m).2 :=
  confirm_eq_ok_iff.mp (v.confirm_overwrite m)

/-! ### What the answer tells -/

/-- Whether an answer tells the truth about a slot before and after a mapping was confirmed. -/
structure Becomes (v : Slot) (m : Mapping) (c : Confirmation) (w : Slot) : Prop where
  /-- A mapping is created where nothing was confirmed, and nowhere else. -/
  created_iff : (∃ q, c = .created q) ↔ v.confirmed = none
  /-- What is created is the mapping itself, as a decision. -/
  created_eq : ∀ {q : Mapping}, c = .created q → q = asConfirmed m
  /-- What comes in the place of another one is the mapping too, up to the identity. -/
  replaced_eq : ∀ {p q : Mapping}, c = .replaced p q → q = successor p (asConfirmed m)
  /-- The mapping of the answer is confirmed afterwards. -/
  confirmed_eq : w.confirmed = some c.mapping
  /-- What was replaced is what was confirmed before. -/
  previous_eq : ∀ {p q : Mapping}, c = .replaced p q → v.confirmed = some p
  /-- A slot that is left alone is as it was. -/
  unchanged_eq : ∀ {q : Mapping}, c = .unchanged q → w = v
  /-- A new decision ends all proposals. -/
  candidates_eq : (∀ q, c ≠ .unchanged q) → w.candidates = []
  /-- A mapping has the identity of the one to the same target before it, and its own if it leads
  to a new target. -/
  identifier_eq : ∀ {p : Mapping}, v.confirmed = some p →
    c.mapping.identifier = if c.mapping.target = p.target then p.identifier else m.identifier

theorem successor_target (p m : Mapping) : (successor p m).target = m.target := by
  rw [successor]
  split <;> rfl

theorem successor_identifier (p m : Mapping) :
    (successor p m).identifier = if m.target = p.target then p.identifier else m.identifier := by
  rw [successor]
  by_cases h : p.target = m.target
  · rw [if_pos h, if_pos h.symm]
  · rw [if_neg h, if_neg (Ne.symm h)]

/-- In each of the cases the answer tells the truth. -/
theorem Confirms.becomes (h : v.Confirms m mode c w) : v.Becomes m c w := by
  cases h with
  | created h =>
    exact
      { created_iff := iff_of_true ⟨_, rfl⟩ h
        created_eq := fun hc => by cases hc; rfl
        replaced_eq := fun hc => by cases hc
        confirmed_eq := rfl
        previous_eq := fun hc => by cases hc
        unchanged_eq := fun hc => by cases hc
        candidates_eq := fun _ => rfl
        identifier_eq := fun hp => by rw [h] at hp; cases hp }
  | replaced h hreplaces =>
    exact
      { created_iff := iff_of_false (fun ⟨_, hc⟩ => by cases hc) (by simp [h])
        created_eq := fun hc => by cases hc
        replaced_eq := fun hc => by cases hc; rfl
        confirmed_eq := rfl
        previous_eq := fun hc => by cases hc; exact h
        unchanged_eq := fun hc => by cases hc
        candidates_eq := fun _ => rfl
        identifier_eq := fun hp => by
          obtain rfl := Option.some.inj (h.symm.trans hp)
          rw [Confirmation.mapping, successor_identifier, successor_target]
          rfl }
  | @unchanged p h hkeeps htarget =>
    exact
      { created_iff := iff_of_false (fun ⟨_, hc⟩ => by cases hc) (by simp [h])
        created_eq := fun hc => by cases hc
        replaced_eq := fun hc => by cases hc
        confirmed_eq := h
        previous_eq := fun hc => by cases hc
        unchanged_eq := fun _ => rfl
        candidates_eq := fun hc => absurd rfl (hc p)
        identifier_eq := fun hp => by
          obtain rfl := Option.some.inj (h.symm.trans hp)
          rw [Confirmation.mapping, if_pos rfl] }

end Slot

/-- A batch counts one effect for each of its mappings: insertions, updates and what was left alone
are created, replaced and unchanged mappings. -/
theorem BatchCount.zero_add (c : Confirmation) :
    (zero.add c = ⟨1, 0, 0⟩ ↔ ∃ q, c = .created q) ∧
      (zero.add c = ⟨0, 1, 0⟩ ↔ ∃ p q, c = .replaced p q) ∧
      (zero.add c = ⟨0, 0, 1⟩ ↔ ∃ q, c = .unchanged q) := by
  cases c <;> simp [add, zero]

/-- A store in which confirming fails stays as it is. -/
theorem Store.eq_of_confirm_error {s s' : Store} {m : Mapping} {mode : ConfirmMode} {e : Failure}
    (h : s.confirm m mode = (.error e, s')) : s' = s := by
  cases s with
  | memory shelf =>
    rw [confirm, Shelf.confirm] at h
    split at h
    · cases (Prod.mk.inj h).1
    · exact (Prod.mk.inj h).2.symm
  | ledger l =>
    rw [confirm, Ledger.confirm, Ledger.update] at h
    dsimp only at h
    split at h
    · cases (Prod.mk.inj h).1
    · exact (Prod.mk.inj h).2.symm

/-- **Confirming tells the truth**, in every slot, for every mapping and in every mode.  It fails
exactly if it may not replace and the confirmed mapping leads to another target, and then nothing
has changed; otherwise the answer says what became of the slot.  So does the confirmation of one
mapping of a batch, which never fails, and the count of the batch. -/
theorem Slot.confirm_becomes (v : Slot) (m : Mapping) (mode : ConfirmMode) :
    ((∃ e, v.confirm m mode = .error e) ↔
        mode = .ifAbsent ∧ ∃ p, v.confirmed = some p ∧ p.target ≠ m.target) ∧
      (∀ {c : Confirmation} {w : Slot}, v.confirm m mode = .ok (c, w) → v.Becomes m c w) ∧
      (∀ {s s' : Store} {e : Failure}, s.confirm m mode = (.error e, s') → s' = s) ∧
      v.Becomes m (v.overwrite m).1 (v.overwrite m).2 ∧
      (BatchCount.zero.add (v.overwrite m).1 = ⟨1, 0, 0⟩ ↔ v.confirmed = none) ∧
      (BatchCount.zero.add (v.overwrite m).1 = ⟨0, 1, 0⟩ ↔ ∃ p q, (v.overwrite m).1 = .replaced p q) ∧
      (BatchCount.zero.add (v.overwrite m).1 = ⟨0, 0, 1⟩ ↔ ∃ q, (v.overwrite m).1 = .unchanged q) := by
  have hbatch := (v.confirms_overwrite m).becomes
  obtain ⟨hinserted, hupdated, hunchanged⟩ := BatchCount.zero_add (v.overwrite m).1
  refine ⟨?_, fun h => (confirm_eq_ok_iff.mp h).becomes, fun h => Store.eq_of_confirm_error h, hbatch,
    hinserted.trans hbatch.created_iff, hupdated, hunchanged⟩
  constructor
  · rintro ⟨e, he⟩
    obtain ⟨hmode, p, hp, ht, -⟩ := confirm_eq_error_iff.mp he
    exact ⟨hmode, p, hp, ht⟩
  · rintro ⟨hmode, p, hp, ht⟩
    exact ⟨conflictWith p, confirm_eq_error_iff.mpr ⟨hmode, p, hp, ht, rfl⟩⟩

end TierLineage
