import TierLineage.Proofs.Mapping.Marks
import TierLineage.Proofs.Mapping.Proposals

/-!
# Scores and selections

A target is ranked only with a score above zero, and no score is above one, so the confidence of a
mapping that is proposed is the score itself.  Selecting the first few of a ranking begins with the
best of them, and comes to nothing only where nothing is ranked.
-/

namespace TierLineage

open TierLineage.Number TierLineage.Matching

/-! ### Selections -/

namespace Ranked

variable {epsilon : Single} {cs : List Ranked} {count : Nat}

/-- A selection begins as the ranking does. -/
theorem head?_selectTop (hcount : count ≠ 0) : (selectTop cs count epsilon).head? = cs.head? := by
  obtain ⟨n, rfl⟩ := Nat.exists_eq_succ_of_ne_zero hcount
  cases cs with
  | nil => rfl
  | cons c cs =>
    rw [selectTop, List.take_succ_cons]
    cases hlast : (c :: cs.take n).getLast? with
    | none => cases List.getLast?_eq_none_iff.mp hlast
    | some last => rfl

theorem selectTop_eq_nil_iff (hcount : count ≠ 0) : selectTop cs count epsilon = [] ↔ cs = [] := by
  rw [← List.head?_eq_none_iff, head?_selectTop hcount, List.head?_eq_none_iff]

end Ranked

/-! ### Scores -/

namespace Number.Binary

variable {f : Format} {x : Binary f}

/-- A clamp leaves one of the bounds, or a number that is beyond neither. -/
theorem clamp_cases (x low high : Binary f) : x.clamp low high = low ∨ x.clamp low high = high ∨
    x.clamp low high = x ∧ x.less low = false ∧ high.less x = false := by
  rw [clamp]
  split
  · exact .inl rfl
  · next hlow =>
    split
    · exact .inr (.inl rfl)
    · next hhigh =>
      exact .inr (.inr ⟨rfl, Bool.eq_false_iff.mpr hlow, Bool.eq_false_iff.mpr hhigh⟩)

/-- What is above the greater of two finite numbers is above the other one. -/
theorem less_trans_finite {s t : Bool} {u v : Nat}
    (hlow : (finite s u : Binary f).less (finite t v) = true)
    (hx : (finite t v : Binary f).less x = true) : (finite s u : Binary f).less x = true := by
  cases x with
  | nan => cases hx
  | infinite negative => exact hx
  | finite negative w =>
    simp only [less, compare?, beq_iff_eq, Option.some.injEq, Int.compare_eq_lt] at hlow hx ⊢
    exact Int.lt_trans hlow hx

end Number.Binary

namespace Matching

/-- The greatest score of names with different words is below one, and both are numbers. -/
theorem exists_greatestPartial_eq : ∃ units, greatestPartial = .finite false units ∧
    (Binary.finite false units : Single).less (Binary.ofNat 1) = true :=
  ⟨0xfd70a4 * 2 ^ 125, by decide +kernel⟩

/-- Names score one, nothing, or what a clamp leaves. -/
theorem scoreWords_cases (a b : List Word) : scoreWords a b = Binary.ofNat 1 ∨
    scoreWords a b = Binary.ofNat 0 ∨
      ∃ x : Single, scoreWords a b = x.clamp (Binary.ofNat 0) greatestPartial := by
  rw [scoreWords]
  split
  · exact .inl rfl
  · split
    · exact .inr (.inl rfl)
    · exact .inr (.inr ⟨_, rfl⟩)

/-- Nothing that is above zero is zero. -/
theorem zero_not_less_zero : (Binary.ofNat 0 : Single).less (Binary.ofNat 0) ≠ true := by
  decide +kernel

/-- A score above zero lies between zero and one. -/
theorem clamp_scoreWords {a b : List Word}
    (h : (Binary.ofNat 0 : Single).less (scoreWords a b) = true) :
    (scoreWords a b).clamp (Binary.ofNat 0) (Binary.ofNat 1) = scoreWords a b := by
  rcases scoreWords_cases a b with hscore | hscore | ⟨x, hscore⟩
  · rw [hscore]
    decide +kernel
  · exact absurd (hscore ▸ h) zero_not_less_zero
  · rcases x.clamp_cases (Binary.ofNat 0) greatestPartial with hx | hx | ⟨hx, hlow, hhigh⟩ <;>
      rw [hx] at hscore
    · exact absurd (hscore ▸ h) zero_not_less_zero
    · rw [hscore]
      decide +kernel
    · -- what is above one is above the greatest partial score as well
      obtain ⟨units, hpartial, hless⟩ := exists_greatestPartial_eq
      have hone : (Binary.ofNat 1 : Single) = .finite false (Nat.pow 2 single.scale) := by
        decide +kernel
      rw [hpartial] at hhigh
      rw [hone] at hless
      have habove : (Binary.ofNat 1 : Single).less x = false := by
        rw [hone, Bool.eq_false_iff]
        exact fun habove => Bool.eq_false_iff.mp hhigh (Binary.less_trans_finite hless habove)
      rw [hscore, Binary.clamp, hlow, habove, if_neg Bool.false_ne_true, if_neg Bool.false_ne_true]

end Matching

/-! ### Rankings -/

namespace Proposal

variable {e : Engine} {r : Registry} {v : Convention} {hop : Hop} {targets : List Listed}
  {source target : Listed} {k : Ranked}

/-- What is scored for a source table has the score of two names, and it is above zero. -/
theorem zero_less_of_scored (h : scored? e v source target = some k) :
    (Binary.ofNat 0 : Single).less k.score = true ∧ ∃ a b, k.score = scoreWords a b := by
  rw [scored?] at h
  split at h
  · next hshown =>
    cases h
    obtain ⟨habove, -⟩ := Bool.and_eq_true_iff.mp hshown
    dsimp only
    exact ⟨habove, _, _, by rw [Convention.score, scoreNames]⟩
  · cases h

theorem ne_nan_of_scored (h : scored? e v source target = some k) : k.score ≠ .nan := by
  intro hnan
  have habove := (zero_less_of_scored h).1
  rw [hnan, Binary.ofNat_zero_single] at habove
  cases habove

/-- What is scored for a source table scores no more than one. -/
theorem clamp_score_of_scored (h : scored? e v source target = some k) :
    k.score.clamp (Binary.ofNat 0) (Binary.ofNat 1) = k.score := by
  obtain ⟨habove, a, b, hscore⟩ := zero_less_of_scored h
  rw [hscore] at habove ⊢
  exact clamp_scoreWords habove

/-- A ranked target is scored. -/
theorem exists_scored_of_mem_ranking (h : k ∈ ranking e r hop targets source) :
    ∃ target ∈ targets, scored? e (convention r hop source.table) source target = some k :=
  List.mem_filterMap.mp (Ranked.mem_of_mem_rank h)

theorem ne_nan_of_mem_ranking (h : k ∈ ranking e r hop targets source) : k.score ≠ .nan := by
  obtain ⟨_, -, hscored⟩ := exists_scored_of_mem_ranking h
  exact ne_nan_of_scored hscored

/-- The score of a ranked target is the confidence of a mapping to it. -/
theorem clamp_score_of_mem_ranking (h : k ∈ ranking e r hop targets source) :
    k.score.clamp (Binary.ofNat 0) (Binary.ofNat 1) = k.score := by
  obtain ⟨_, -, hscored⟩ := exists_scored_of_mem_ranking h
  exact clamp_score_of_scored hscored

end Proposal

end TierLineage
