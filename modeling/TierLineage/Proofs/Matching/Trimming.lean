import Mathlib.Data.List.DropRight

/-!
# Lists trimmed at both ends

Entries of a kind are dropped at both ends of a list, or kept where there are no others.  What surrounds a
list is dropped if it is of the kind, and what is left has no end of the kind.  A wider kind leaves the same
exactly if it does not reach what the narrower one leaves at the ends, or if it holds of everything and the
narrower one leaves it all.
-/

namespace TierLineage.Matching

section Trimming

variable {α β : Type} {p q : α → Bool} {l a b : List α}

/-- What is left between the first and the last entry that are not of a kind. -/
def stripped (p : α → Bool) (l : List α) : List α :=
  (l.dropWhile p).rdropWhile p

/-- A list without the entries of a kind at either end, unless there is nothing else. -/
def trimmed (p : α → Bool) (l : List α) : List α :=
  if (stripped p l).isEmpty then l else stripped p l

/-- Whether an entry is the first or the last one of a list. -/
def AtEnd (l : List α) (x : α) : Prop :=
  l.head? = some x ∨ l.getLast? = some x

/-- The ends of a list with something around it are entries of that or ends of the list. -/
theorem atEnd_append {x : α} (h : AtEnd (a ++ l ++ b) x) : x ∈ a ∨ x ∈ b ∨ AtEnd l x := by
  rcases h with h | h
  · rw [List.append_assoc, List.head?_append, List.head?_append, Option.or_eq_some_iff,
      Option.or_eq_some_iff] at h
    rcases h with h | ⟨-, h | ⟨-, h⟩⟩
    · exact .inl (List.mem_of_head? h)
    · exact .inr (.inr (.inl h))
    · exact .inr (.inl (List.mem_of_head? h))
  · rw [List.getLast?_append, List.getLast?_append, Option.or_eq_some_iff, Option.or_eq_some_iff] at h
    rcases h with h | ⟨-, h | ⟨-, h⟩⟩
    · exact .inr (.inl (List.mem_of_getLast? h))
    · exact .inr (.inr (.inr h))
    · exact .inl (List.mem_of_getLast? h)

theorem stripped_eq_nil_iff : stripped p l = [] ↔ ∀ x ∈ l, p x = true := by
  rw [stripped, List.rdropWhile_eq_nil_iff, ← List.dropWhile_eq_nil_iff, List.dropWhile_idempotent,
    List.dropWhile_eq_nil_iff]

theorem stripped_map (f : β → α) (l : List β) :
    stripped p (l.map f) = (stripped (p ∘ f) l).map f := by
  simp only [stripped, List.rdropWhile, List.dropWhile_map, ← List.map_reverse]

theorem trimmed_map (f : β → α) (l : List β) :
    trimmed p (l.map f) = (trimmed (p ∘ f) l).map f := by
  rw [trimmed, trimmed, stripped_map, List.isEmpty_map, apply_ite (List.map f)]

/-- What is dropped at the ends is of the kind. -/
theorem exists_eq_stripped (p : α → Bool) (l : List α) : ∃ a b, l = a ++ stripped p l ++ b ∧
    (∀ x ∈ a, p x = true) ∧ ∀ x ∈ b, p x = true := by
  refine ⟨l.takeWhile p, (l.dropWhile p).rtakeWhile p, ?_, fun x => List.mem_takeWhile_imp,
    fun x => List.mem_rtakeWhile_imp⟩
  rw [stripped, List.append_assoc, List.rdropWhile_append_rtakeWhile, List.takeWhile_append_dropWhile]

/-- What surrounds a list is dropped if it is of the kind. -/
theorem stripped_append (ha : ∀ x ∈ a, p x = true) (hb : ∀ x ∈ b, p x = true) :
    stripped p (a ++ l ++ b) = stripped p l := by
  rw [List.append_assoc, stripped, List.dropWhile_append_of_pos ha, List.dropWhile_append]
  have hnil : b.rdropWhile p = [] := List.rdropWhile_eq_nil_iff.mpr hb
  split
  · next hempty =>
    rw [stripped, List.isEmpty_iff.mp hempty, List.dropWhile_eq_nil_iff.mpr hb]
  · rw [stripped, List.rdropWhile, List.reverse_append,
      List.dropWhile_append_of_pos fun x hx => hb x (List.mem_reverse.mp hx), ← List.rdropWhile]

/-- What is dropped of a wider kind is dropped in whatever steps. -/
theorem stripped_stripped (h : ∀ x, p x = true → q x = true) :
    stripped q (stripped p l) = stripped q l := by
  obtain ⟨a, b, hl, ha, hb⟩ := exists_eq_stripped p l
  conv_rhs => rw [hl]
  exact (stripped_append (fun x hx => h x (ha x hx)) fun x hx => h x (hb x hx)).symm

theorem stripped_sublist (p : α → Bool) (l : List α) : (stripped p l).Sublist l :=
  (List.rdropWhile_prefix p _).sublist.trans (List.dropWhile_sublist p)

/-- Nothing is dropped if neither end is of the kind. -/
theorem stripped_eq_self_iff : stripped p l = l ↔ ∀ x, AtEnd l x → p x = false := by
  have hboth : stripped p l = l ↔ l.dropWhile p = l ∧ l.rdropWhile p = l := by
    constructor
    · intro h
      have hdrop : l.dropWhile p = l := (List.dropWhile_sublist p).antisymm
        (by
          conv_lhs => rw [← h]
          exact (List.rdropWhile_prefix p _).sublist)
      exact ⟨hdrop, by rwa [stripped, hdrop] at h⟩
    · rintro ⟨hdrop, hlast⟩
      rw [stripped, hdrop, hlast]
  rw [hboth, List.dropWhile_eq_self_iff, List.rdropWhile_eq_self_iff]
  cases l with
  | nil => simp [AtEnd]
  | cons x rest => simp [AtEnd, or_imp, forall_and, List.getLast?_eq_some_getLast]

theorem trimmed_of_all (h : ∀ x ∈ l, p x = true) : trimmed p l = l := by
  rw [trimmed, stripped_eq_nil_iff.mpr h]
  rfl

theorem trimmed_of_not_all (h : ¬∀ x ∈ l, p x = true) : trimmed p l = stripped p l :=
  if_neg fun hempty => h (stripped_eq_nil_iff.mp (List.isEmpty_iff.mp hempty))

/-- What surrounds a list is dropped if it is of the kind and not everything is. -/
theorem trimmed_append (ha : ∀ x ∈ a, p x = true) (hb : ∀ x ∈ b, p x = true)
    (h : ¬∀ x ∈ l, p x = true) : trimmed p (a ++ l ++ b) = trimmed p l := by
  have hall : ¬∀ x ∈ a ++ l ++ b, p x = true := fun hall =>
    h fun x hx => hall x (List.mem_append_left b (List.mem_append_right a hx))
  rw [trimmed_of_not_all hall, trimmed_of_not_all h, stripped_append ha hb]

/-- What is left at the ends is not of the kind, unless everything is. -/
theorem eq_false_of_atEnd_trimmed (h : ¬∀ x ∈ l, p x = true) {x : α} (hx : AtEnd (trimmed p l) x) :
    p x = false := by
  rw [trimmed_of_not_all h] at hx
  exact stripped_eq_self_iff.mp (stripped_stripped fun _ => id) x hx

theorem trimmed_sublist (p : α → Bool) (l : List α) : (trimmed p l).Sublist l := by
  rw [trimmed]
  split
  · exact List.Sublist.refl l
  · exact stripped_sublist p l

/-- Of a wider kind more is dropped, unless everything is of that kind. -/
theorem trimmed_eq_stripped_trimmed (h : ∀ x, p x = true → q x = true) (hq : ¬∀ x ∈ l, q x = true) :
    trimmed q l = stripped q (trimmed p l) := by
  rw [trimmed_of_not_all hq, trimmed_of_not_all fun hp => hq fun x hx => h x (hp x hx),
    stripped_stripped h]

/-- Two kinds, one wider than the other, leave lists of which one is a part of the other. -/
theorem trimmed_eq_of_map_eq {f : α → β} (h : ∀ x, p x = true → q x = true)
    (hmap : (trimmed q l).map f = (trimmed p l).map f) : trimmed q l = trimmed p l := by
  have hlength : (trimmed q l).length = (trimmed p l).length := by
    simpa using congrArg List.length hmap
  by_cases hq : ∀ x ∈ l, q x = true
  · rw [trimmed_of_all hq] at hlength ⊢
    exact ((trimmed_sublist p l).eq_of_length hlength.symm).symm
  · have hsublist := stripped_sublist q (trimmed p l)
    rw [← trimmed_eq_stripped_trimmed h hq] at hsublist
    exact hsublist.eq_of_length hlength

/-- A wider kind makes no difference exactly if it does not reach what the narrower one leaves at the
ends, or if everything is of the wider kind and the narrower one leaves it all. -/
theorem trimmed_eq_trimmed_iff (h : ∀ x, p x = true → q x = true) : trimmed q l = trimmed p l ↔
    (∀ x, AtEnd (trimmed p l) x → q x = true → p x = true) ∨
      (trimmed p l = l ∧ ∀ x ∈ l, q x = true) := by
  by_cases hq : ∀ x ∈ l, q x = true
  · rw [trimmed_of_all hq]
    constructor
    · exact fun heq => .inr ⟨heq.symm, hq⟩
    · rintro (hnone | ⟨heq, -⟩)
      · by_contra hne
        have hp : ¬∀ x ∈ l, p x = true := fun hp => hne (trimmed_of_all hp).symm
        have hnil : trimmed p l ≠ [] := fun hnil => hp (by
          rw [trimmed_of_not_all hp] at hnil
          exact stripped_eq_nil_iff.mp hnil)
        have hhead : AtEnd (trimmed p l) ((trimmed p l).head hnil) := .inl (List.head?_eq_some_head hnil)
        have hmem := (trimmed_sublist p l).subset (List.head_mem hnil)
        exact Bool.false_ne_true ((eq_false_of_atEnd_trimmed hp hhead).symm.trans (hnone _ hhead (hq _ hmem)))
      · exact heq.symm
  · rw [trimmed_eq_stripped_trimmed h hq, stripped_eq_self_iff]
    have hp : ¬∀ x ∈ l, p x = true := fun hp => hq fun x hx => h x (hp x hx)
    constructor
    · intro hnone
      refine .inl fun x hx hqx => ?_
      rw [hnone x hx] at hqx
      cases hqx
    · rintro (hnone | ⟨-, hall⟩) x hx
      · by_contra hqx
        exact Bool.false_ne_true ((eq_false_of_atEnd_trimmed hp hx).symm.trans
          (hnone x hx (Bool.not_eq_false _ ▸ hqx)))
      · exact absurd hall hq

end Trimming

end TierLineage.Matching
