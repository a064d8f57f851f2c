import Mathlib.Data.List.Forall2
import TierLineage.Failure

/-!
# Results that are there

What can be said of results of which one has to be there before the next one is asked for: of two of
them, of those of a list, and of a state that goes from one to the next.
-/

namespace TierLineage

variable {ε α β : Type}

/-- A result is there if both the one before it and what follows are. -/
theorem bind_eq_ok {x : Except ε α} {f : α → Except ε β} {b : β} :
    x >>= f = .ok b ↔ ∃ a, x = .ok a ∧ f a = .ok b := by
  cases x with
  | error e => exact iff_of_false (fun h => by cases h) (by rintro ⟨a, ha, -⟩; cases ha)
  | ok a => exact ⟨fun h => ⟨a, rfl, h⟩, by rintro ⟨_, ⟨⟩, h⟩; exact h⟩

/-- What is made of a result is there if the result is. -/
theorem map_eq_ok {x : Except ε α} {f : α → β} {b : β} :
    x.map f = .ok b ↔ ∃ a, x = .ok a ∧ f a = b := by
  cases x with
  | error e => exact iff_of_false (fun h => by cases h) (by rintro ⟨a, ha, -⟩; cases ha)
  | ok a =>
    refine ⟨fun h => ⟨a, rfl, Except.ok.inj h⟩, ?_⟩
    rintro ⟨_, ⟨⟩, h⟩
    exact congrArg Except.ok h

/-- What is told of a failure does not matter where there is none. -/
theorem ok_of_mapError {δ : Type} {x : Except ε α} {f : ε → δ} {a : α}
    (h : x.mapError f = .ok a) : x = .ok a := by
  cases x with
  | error e => cases h
  | ok b => exact congrArg Except.ok (Except.ok.inj h)

theorem ok_of_toOption {x : Except ε α} {a : α} (h : x.toOption = some a) : x = .ok a := by
  cases x with
  | error e => cases h
  | ok b => exact congrArg Except.ok (Option.some.inj h)

/-- Results that are all there are the results of their causes. -/
theorem forall₂_of_mapM {f : α → Except ε β} {as : List α} {bs : List β}
    (h : as.mapM f = .ok bs) : List.Forall₂ (fun a b => f a = .ok b) as bs := by
  induction as generalizing bs with
  | nil =>
    cases h
    exact .nil
  | cons a as ih =>
    rw [List.mapM_cons, bind_eq_ok] at h
    obtain ⟨b, hb, h⟩ := h
    obtain ⟨cs, hcs, h⟩ := bind_eq_ok.mp h
    cases h
    exact .cons hb (ih hcs)

/-- Results that are all there are those of their causes. -/
theorem mem_of_mapM {f : α → Except ε β} {as : List α} {bs : List β} (h : as.mapM f = .ok bs)
    {b : β} : b ∈ bs ↔ ∃ a ∈ as, f a = .ok b := by
  induction as generalizing bs with
  | nil =>
    cases h
    simp
  | cons a as ih =>
    rw [List.mapM_cons, bind_eq_ok] at h
    obtain ⟨c, hc, h⟩ := h
    obtain ⟨cs, hcs, h⟩ := bind_eq_ok.mp h
    cases h
    have hfirst : f a = .ok b ↔ b = c := by
      rw [hc, Except.ok.injEq, eq_comm]
    rw [List.mem_cons, ih hcs, List.exists_mem_cons_iff, hfirst]

/-- Results that are each there are all there. -/
theorem exists_mapM_eq_ok {f : α → Except ε β} {as : List α} (h : ∀ a ∈ as, ∃ b, f a = .ok b) :
    ∃ bs, as.mapM f = .ok bs := by
  induction as with
  | nil => exact ⟨[], rfl⟩
  | cons a as ih =>
    obtain ⟨⟨b, hb⟩, has⟩ := List.forall_mem_cons.mp h
    obtain ⟨bs, hbs⟩ := ih has
    exact ⟨b :: bs, by rw [List.mapM_cons, hb, hbs]; rfl⟩

/-- Results that are there two by two are all there, and related as they are two by two. -/
theorem exists_mapM_forall₂ {γ δ : Type} {R : γ → δ → Prop} {f : α → Except ε γ}
    {g : β → Except ε δ} {as : List α} {bs : List β}
    (h : List.Forall₂ (fun a b => ∃ c d, f a = .ok c ∧ g b = .ok d ∧ R c d) as bs) :
    ∃ cs ds, as.mapM f = .ok cs ∧ bs.mapM g = .ok ds ∧ List.Forall₂ R cs ds := by
  induction h with
  | nil => exact ⟨[], [], rfl, rfl, .nil⟩
  | cons hab _ ih =>
    obtain ⟨c, d, hc, hd, hcd⟩ := hab
    obtain ⟨cs, ds, hcs, hds, hrest⟩ := ih
    refine ⟨c :: cs, d :: ds, ?_, ?_, .cons hcd hrest⟩
    · rw [List.mapM_cons, hc, hcs]
      rfl
    · rw [List.mapM_cons, hd, hds]
      rfl

/-- What every step keeps holds at the end. -/
theorem foldlM_invariant {I : β → Prop} {f : β → α → Except ε β} {as : List α}
    (hf : ∀ a ∈ as, ∀ b b', I b → f b a = .ok b' → I b') {b b' : β} (hb : I b)
    (h : as.foldlM f b = .ok b') : I b' := by
  induction as generalizing b with
  | nil =>
    cases h
    exact hb
  | cons a as ih =>
    rw [List.foldlM_cons, bind_eq_ok] at h
    obtain ⟨b₁, hstep, h⟩ := h
    obtain ⟨ha, has⟩ := List.forall_mem_cons.mp hf
    exact ih has (ha b b₁ hb hstep) h

end TierLineage
