import TierLineage.Config.Engine
import TierLineage.Proofs.Outcome

/-!
# Settings within their bounds

Settings pass their check if and only if every single one of them is within its bounds; the settings
where nothing else is said do.
-/

namespace TierLineage.Engine

open TierLineage.Number

/-- Whether a score lies between zero and one. -/
def IsScore (x : Single) : Prop :=
  (Binary.ofNat 0 : Single).atMost x = true ∧ x.atMost (Binary.ofNat 1) = true

/-- Whether every setting is within its bounds. -/
structure Bounded (e : Engine) : Prop where
  acceptanceThreshold : IsScore e.acceptanceThreshold
  minCandidateScore : IsScore e.minCandidateScore
  tieEpsilon : (Binary.ofNat 0 : Single).atMost e.tieEpsilon = true ∧
    e.tieEpsilon.less (Binary.ofRatio 1 2) = true
  topK : e.topK ≠ 0
  workerPoolSize : e.workerPoolSize ≠ 0
  catalogTimeout : e.catalogTimeout ≠ 0
  analysisTimeout : e.analysisTimeout ≠ 0

variable {e : Engine} {field : String}

theorem checkScore_eq_ok {x : Single} : checkScore field x = .ok () ↔ IsScore x := by
  rw [checkScore, IsScore]
  split
  · next h => exact iff_of_true rfl (Bool.and_eq_true_iff.mp h)
  · next h => exact iff_of_false (fun hok => by cases hok) fun hx => h (Bool.and_eq_true_iff.mpr hx)

theorem checkCount_eq_ok {n : Nat} : checkCount field n = .ok () ↔ n ≠ 0 := by
  rw [checkCount]
  split
  · next h => exact iff_of_false (fun hok => by cases hok) fun hne => hne h
  · next h => exact iff_of_true rfl h

theorem checkTime_eq_ok {n : Nat} : checkTime field n = .ok () ↔ n ≠ 0 := by
  rw [checkTime]
  split
  · next h => exact iff_of_false (fun hok => by cases hok) fun hne => hne h
  · next h => exact iff_of_true rfl h

/-- A check that comes to nothing is followed by the next one. -/
theorem then_eq_ok {x : Outcome Unit} {y : Outcome Unit} :
    (x >>= fun _ => y) = .ok () ↔ x = .ok () ∧ y = .ok () := by
  rw [bind_eq_ok]
  exact ⟨fun ⟨_, hx, hy⟩ => ⟨hx, hy⟩, fun ⟨hx, hy⟩ => ⟨(), hx, hy⟩⟩

/-- Settings pass their check if every one of them is within its bounds. -/
theorem validate_eq_ok : e.validate = .ok () ↔ e.Bounded := by
  have hepsilon : ∀ y : Outcome Unit,
      (if !((Binary.ofNat 0 : Single).atMost e.tieEpsilon &&
          e.tieEpsilon.less (Binary.ofRatio 1 2)) then
        (throw (outOfBounds "tie_epsilon" e.tieEpsilon.plainText
          "must be non-negative and below 0.5") >>= fun _ : Unit => y) else y) = .ok () ↔
        ((Binary.ofNat 0 : Single).atMost e.tieEpsilon = true ∧
          e.tieEpsilon.less (Binary.ofRatio 1 2) = true) ∧ y = .ok () := by
    intro y
    rw [← Bool.and_eq_true_iff]
    split
    · next h =>
      refine iff_of_false (fun hok => by cases hok) fun hy => ?_
      rw [hy.1] at h
      cases h
    · next h => exact ⟨fun hy => ⟨by simpa using h, hy⟩, fun hy => hy.2⟩
  rw [validate]
  simp only [then_eq_ok, hepsilon, checkScore_eq_ok, checkCount_eq_ok, checkTime_eq_ok]
  constructor
  · rintro ⟨h₁, h₂, h₃, h₄, h₅, h₆, h₇⟩
    exact ⟨h₁, h₂, h₃, h₄, h₅, h₆, h₇⟩
  · rintro ⟨h₁, h₂, h₃, h₄, h₅, h₆, h₇⟩
    exact ⟨h₁, h₂, h₃, h₄, h₅, h₆, h₇⟩

/-- The settings where nothing else is said are within their bounds. -/
theorem bounded_standard : standard.Bounded :=
  validate_eq_ok.mp (by decide +kernel)

end TierLineage.Engine
