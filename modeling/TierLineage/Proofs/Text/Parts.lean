import TierLineage.Proofs.Matching.Trimming
import TierLineage.Text.Ascii
import TierLineage.Text.Blank
import TierLineage.Text.Pieces

/-!
# Parts of a text

What stands after a leading part, what stands between separators, and what is left of a text without the
characters of a class around it.
-/

namespace TierLineage.Text

section Leading

variable {cs ds rest : List Char}

/-- What a text starts with is a prefix of it. -/
theorem startsWith_iff : startsWith cs ds = true ↔ ds <+: cs := by
  induction cs generalizing ds with
  | nil => cases ds <;> simp [startsWith]
  | cons c cs ih =>
    cases ds with
    | nil => simp [startsWith]
    | cons d ds =>
      rw [startsWith, Bool.and_eq_true, beq_iff_eq, ih, List.cons_prefix_cons, eq_comm]

theorem after?_eq_some_iff : after? cs ds = some rest ↔ cs = ds ++ rest := by
  induction ds generalizing cs with
  | nil => cases cs <;> simp [after?]
  | cons d ds ih =>
    cases cs with
    | nil => simp [after?]
    | cons c cs =>
      rw [after?, List.cons_append, List.cons.injEq]
      split
      · next hc => rw [ih, and_iff_right hc]
      · next hc => simp [hc]

theorem after?_eq_none_iff : after? cs ds = none ↔ ¬ds <+: cs := by
  rw [Option.eq_none_iff_forall_ne_some]
  constructor
  · rintro h ⟨rest, hrest⟩
    exact h rest (after?_eq_some_iff.mpr hrest.symm)
  · intro h rest hrest
    exact h ⟨rest, (after?_eq_some_iff.mp hrest).symm⟩

end Leading

section Pieces

variable {sep : Char} {cs p : List Char}

theorem pieces_of_not_mem (h : sep ∉ cs) : pieces sep cs = [cs] := by
  induction cs with
  | nil => rfl
  | cons c cs ih =>
    rw [pieces, if_neg (List.ne_of_not_mem_cons h).symm, ih (List.not_mem_of_not_mem_cons h)]

/-- What stands before a separator is the first piece. -/
theorem pieces_append (h : sep ∉ p) (cs : List Char) :
    pieces sep (p ++ sep :: cs) = p :: pieces sep cs := by
  induction p with
  | nil => rw [List.nil_append, pieces, if_pos rfl]
  | cons c p ih =>
    rw [List.cons_append, pieces, if_neg (List.ne_of_not_mem_cons h).symm,
      ih (List.not_mem_of_not_mem_cons h)]

theorem not_mem_of_mem_pieces (h : p ∈ pieces sep cs) : sep ∉ p := by
  induction cs generalizing p with
  | nil =>
    rw [List.mem_singleton.mp h]
    exact List.not_mem_nil
  | cons c cs ih =>
    rw [pieces] at h
    split at h
    · rcases List.mem_cons.mp h with rfl | h
      · exact List.not_mem_nil
      · exact ih h
    · next hc =>
      split at h
      · next heq => exact absurd heq (pieces_ne_nil sep cs)
      · next q qs heq =>
        rcases List.mem_cons.mp h with rfl | h
        · exact List.not_mem_cons_of_ne_of_not_mem (Ne.symm hc) (ih (heq ▸ List.mem_cons_self ..))
        · exact ih (heq ▸ List.mem_cons_of_mem q h)

theorem pieces_joined {ps : List (List Char)} (hne : ps ≠ []) (h : ∀ p ∈ ps, sep ∉ p) :
    pieces sep (joined [sep] ps) = ps := by
  fun_induction joined [sep] ps with
  | case1 => exact absurd rfl hne
  | case2 p => exact pieces_of_not_mem (h p List.mem_cons_self)
  | case3 p q ps ih =>
    rw [List.append_assoc, List.singleton_append, pieces_append (h p List.mem_cons_self),
      ih (List.cons_ne_nil q ps) fun r hr => h r (List.mem_cons_of_mem p hr)]

theorem mem_of_mem_joined {ps : List (List Char)} {c : Char} (h : c ∈ joined [sep] ps) :
    c = sep ∨ ∃ p ∈ ps, c ∈ p := by
  fun_induction joined [sep] ps with
  | case1 => cases h
  | case2 p => exact .inr ⟨p, List.mem_cons_self, h⟩
  | case3 p q ps ih =>
    rw [List.append_assoc, List.singleton_append, List.mem_append, List.mem_cons] at h
    rcases h with h | h | h
    · exact .inr ⟨p, List.mem_cons_self, h⟩
    · exact .inl h
    · exact (ih h).imp_right fun ⟨r, hr, hc⟩ => ⟨r, List.mem_cons_of_mem p hr, hc⟩

end Pieces

section Ends

variable {cs : List Char}

/-- What surrounds a text is dropped if it is of the class and the ends of the text are not. -/
theorem trimBy_append {f : Char → Bool} {front back : List Char} (hfront : ∀ c ∈ front, f c = true)
    (hback : ∀ c ∈ back, f c = true) (hcs : ∀ c, Matching.AtEnd cs c → f c = false) :
    trimBy f (front ++ cs ++ back) = cs :=
  (Matching.stripped_append hfront hback).trans (Matching.stripped_eq_self_iff.mpr hcs)

theorem trim_trim (cs : List Char) : trim (trim cs) = trim cs :=
  Matching.stripped_stripped fun _ => id

end Ends

end TierLineage.Text
