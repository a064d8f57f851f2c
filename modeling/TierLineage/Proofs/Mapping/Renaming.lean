import Mathlib.Data.List.Forall2
import TierLineage.Proofs.Mapping.Marks

/-!
# Mappings up to fresh marks

Two runs that do the same at different times mark what they make differently.  A *renaming* pairs the
marks of the one run with those of the other.  Mappings are renamings of each other if they have the
same content and each mark of the one is that of the other, or both are a pair of the renaming.
Confirming renamings of one mapping in slots that are renamings of each other does the same in both,
and leaves renamings.
-/

namespace TierLineage

open TierLineage.Number

/-- The marks that two runs gave to the same mappings. -/
abbrev Renaming := List (Stamp × Stamp)

/-- Whether two mappings differ in fresh marks only. -/
structure Mapping.Renamed (σ : Renaming) (m n : Mapping) : Prop where
  unmarked_eq : m.unmarked = n.unmarked
  identifier : m.identifier = n.identifier ∨
    ∃ p ∈ σ, m.identifier = p.1.identifier ∧ n.identifier = p.2.identifier
  createdAt : m.createdAt = n.createdAt ∨ ∃ p ∈ σ, m.createdAt = p.1.now ∧ n.createdAt = p.2.now

/-- Whether two slots hold decisions that differ in fresh marks only, and the same candidates. -/
structure Slot.Renamed (σ : Renaming) (v w : Slot) : Prop where
  confirmed : Option.Rel (Mapping.Renamed σ) v.confirmed w.confirmed
  candidates_eq : v.candidates = w.candidates

/-- Whether two answers tell the same of mappings that differ in fresh marks only. -/
inductive Confirmation.Renamed (σ : Renaming) : Confirmation → Confirmation → Prop
  | created {m n : Mapping} (h : m.Renamed σ n) : Renamed σ (.created m) (.created n)
  | replaced {p q m n : Mapping} (hp : p.Renamed σ q) (h : m.Renamed σ n) :
    Renamed σ (.replaced p m) (.replaced q n)
  | unchanged {m n : Mapping} (h : m.Renamed σ n) : Renamed σ (.unchanged m) (.unchanged n)

namespace Mapping

variable {σ : Renaming} {m n p q : Mapping}

theorem renamed_refl (σ : Renaming) (m : Mapping) : m.Renamed σ m := ⟨rfl, .inl rfl, .inl rfl⟩

/-- Decisions of two runs that differ in the marks given to them. -/
theorem renamed_of_marks {s t : Stamp} (hst : (s, t) ∈ σ) (h : m.unmarked = n.unmarked)
    (hm : m.identifier = s.identifier ∧ m.createdAt = s.now)
    (hn : n.identifier = t.identifier ∧ n.createdAt = t.now) : m.Renamed σ n :=
  ⟨h, .inr ⟨_, hst, hm.1, hn.1⟩, .inr ⟨_, hst, hm.2, hn.2⟩⟩

theorem Renamed.asConfirmed (h : m.Renamed σ n) :
    (Slot.asConfirmed m).Renamed σ (Slot.asConfirmed n) :=
  ⟨congrArg Slot.asConfirmed h.unmarked_eq, h.identifier, h.createdAt⟩

theorem Renamed.key_eq (h : m.Renamed σ n) : m.key = n.key :=
  (congrArg Mapping.key h.unmarked_eq :)

theorem Renamed.target_eq (h : m.Renamed σ n) : m.target = n.target :=
  (congrArg Mapping.target h.unmarked_eq :)

/-- Content is not a matter of marks. -/
theorem Renamed.sameContent_eq (hp : p.Renamed σ q) (h : m.Renamed σ n) :
    p.sameContent m = q.sameContent n := by
  rw [← sameContent_unmarked, hp.unmarked_eq, h.unmarked_eq, sameContent_unmarked]

/-- A mapping that takes the place of another one has the marks of both. -/
theorem Renamed.successor (hp : p.Renamed σ q) (h : m.Renamed σ n) :
    (Slot.successor p m).Renamed σ (Slot.successor q n) where
  unmarked_eq := by rw [successor_unmarked, successor_unmarked, h.unmarked_eq]
  identifier := by
    rw [Slot.successor_identifier, Slot.successor_identifier, hp.target_eq, h.target_eq]
    split
    · exact hp.identifier
    · exact h.identifier
  createdAt := by
    have hcreated : ∀ p m : Mapping, (Slot.successor p m).createdAt = m.createdAt := fun p m => by
      rw [Slot.successor]
      split <;> rfl
    rw [hcreated, hcreated]
    exact h.createdAt

end Mapping

namespace Slot

variable {σ : Renaming} {v w : Slot} {m n : Mapping}

theorem renamed_refl (σ : Renaming) (v : Slot) : v.Renamed σ v := by
  refine ⟨?_, rfl⟩
  cases v.confirmed with
  | none => exact .none
  | some m => exact .some (m.renamed_refl σ)

theorem renamed_holding (h : m.Renamed σ n) : (holding m).Renamed σ (holding n) := ⟨.some h, rfl⟩

/-- Either both slots hold a decision or none of them does. -/
theorem Renamed.cases (h : v.Renamed σ w) : v.confirmed = none ∧ w.confirmed = none ∨
    ∃ p q, v.confirmed = some p ∧ w.confirmed = some q ∧ p.Renamed σ q := by
  obtain ⟨confirmed, candidates⟩ := v
  obtain ⟨confirmed', candidates'⟩ := w
  cases h.confirmed with
  | none => exact .inl ⟨rfl, rfl⟩
  | some hp => exact .inr ⟨_, _, rfl, rfl, hp⟩

theorem Renamed.isEmpty_eq (h : v.Renamed σ w) : v.isEmpty = w.isEmpty := by
  rw [isEmpty, isEmpty, h.candidates_eq]
  rcases h.cases with ⟨hv, hw⟩ | ⟨p, q, hv, hw, -⟩
  · rw [hv, hw]
  · rw [hv, hw]
    rfl

/-- What is held in both slots is held of one source table. -/
theorem Renamed.source?_eq (h : v.Renamed σ w) : v.source? = w.source? := by
  rw [source?, source?, h.candidates_eq]
  rcases h.cases with ⟨hv, hw⟩ | ⟨p, q, hv, hw, hp⟩
  · rw [hv, hw]
  · rw [hv, hw]
    exact congrArg some (congrArg Mapping.source hp.unmarked_eq :)

/-- Overwriting does the same in both slots, and leaves slots that differ in fresh marks only. -/
theorem Renamed.overwrite (hv : v.Renamed σ w) (h : m.Renamed σ n) :
    (v.overwrite m).1.Renamed σ (w.overwrite n).1 ∧ (v.overwrite m).2.Renamed σ (w.overwrite n).2 := by
  have hm := h.asConfirmed
  rw [Slot.overwrite, Slot.overwrite]
  rcases hv.cases with ⟨hnone, hnone'⟩ | ⟨p, q, hp, hq, hpq⟩
  · rw [hnone, hnone']
    exact ⟨.created hm, renamed_holding hm⟩
  · rw [hp, hq]
    dsimp only
    rw [hpq.sameContent_eq hm]
    split
    · exact ⟨.unchanged hpq, hv⟩
    · exact ⟨.replaced hpq (hpq.successor hm), renamed_holding (hpq.successor hm)⟩

/-- Overwriting leaves a slot that holds a decision. -/
theorem isEmpty_overwrite (v : Slot) (m : Mapping) : (v.overwrite m).2.isEmpty = false := by
  have hconfirmed := (confirms_overwrite v m).becomes.confirmed_eq
  rw [isEmpty, hconfirmed]
  rfl

end Slot

end TierLineage
