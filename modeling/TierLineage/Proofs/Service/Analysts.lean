import TierLineage.Service.Schedule

/-!
# What an analyst may say

An analyst gives the same answer to a question whenever it is asked; what differs is how long it takes,
and whether that is too long.  A script takes the same time for every question.  A request to a model
has to wait for others, so that both may happen to it, an answer and a failure.  Nothing that is kept of
the questions so far, neither the line nor the pacer nor the counters, has a part in the answers.
-/

namespace TierLineage

open TierLineage.Flight TierLineage.Schedule

/-! ### What may be said -/

/-- Whether the answer to a question may take some time.  A request to a model takes as long as others
make it wait. -/
def Analyst.MayTake (a : Analyst) (time : Nat) : Prop :=
  match a with
  | .absent => time = 0
  | .scripted s => time = s.delay
  | .model _ => True

namespace World

/-- What may come of asking the analyst about a text: its answer if it takes no longer than is allowed,
and a failure if it does. -/
def MaySay (w : World) (r : AnalysisRequest) (x : Outcome Analysis) : Prop :=
  ∃ time, w.analyst.MayTake time ∧
    x = if time ≤ w.engine.analysisTimeout then w.analyst.answer r else tooLate w r

/-- An analyst who is no model takes the same time for every answer. -/
theorem MaySay.unique {w : World} {r : AnalysisRequest} {x y : Outcome Analysis}
    (hplain : ∀ l, w.analyst ≠ .model l) (hx : w.MaySay r x) (hy : w.MaySay r y) : x = y := by
  obtain ⟨m, hm, rfl⟩ := hx
  obtain ⟨n, hn, rfl⟩ := hy
  cases ha : w.analyst with
  | absent =>
    rw [ha] at hm hn
    rw [show m = 0 from hm, show n = 0 from hn]
  | scripted s =>
    rw [ha] at hm hn
    rw [show m = s.delay from hm, show n = s.delay from hn]
  | model l => exact absurd ha (hplain l)

/-- What a call is concluded with is something that may be said. -/
theorem maySay_conclusion (w : World) (t : Ticket) (r : AnalysisRequest) (since : Nat) :
    w.MaySay r (conclusion w t r since).2 := by
  have hready : ∃ time, w.analyst.MayTake time ∧
      (readyInTime? w t since = none ↔ w.engine.analysisTimeout < time) := by
    rw [readyInTime?]
    cases ha : w.analyst with
    | absent => exact ⟨0, rfl, by simp [Analyst.ready?]⟩
    | scripted s => exact ⟨s.delay, rfl, by simp [Analyst.ready?]⟩
    | model l =>
      -- the time is whatever the line makes of it
      by_cases hnone : ((Analyst.model l).ready? t since).filter
          (fun moment => decide (moment ≤ since + w.engine.analysisTimeout)) = none
      · exact ⟨w.engine.analysisTimeout + 1, trivial, by simp [hnone]⟩
      · exact ⟨0, trivial, by simp [hnone]⟩
  obtain ⟨time, htime, hiff⟩ := hready
  refine ⟨time, htime, ?_⟩
  rw [conclusion]
  split
  · next moment hmoment =>
    rw [if_pos (Nat.not_lt.mp fun hlt => ?_)]
    rw [hiff.mpr hlt] at hmoment
    cases hmoment
  · next hnone => rw [if_neg (Nat.not_le.mpr (hiff.mp hnone))]

end World

/-! ### What is kept of questions -/

namespace Model.Line

variable {l : Line} {p : Passage} {n shown now : Nat}

theorem answer_grantNext (l : Line) (shown now : Nat) : (l.grantNext shown now).answer = l.answer := by
  rw [grantNext]
  split
  · rfl
  · split <;> rfl

theorem answer_enter (l : Line) (n shown now : Nat) : (l.enter n shown now).answer = l.answer := by
  rw [enter]
  split <;> rfl

theorem answer_leave (l : Line) (n shown now : Nat) : (l.leave n shown now).answer = l.answer :=
  answer_grantNext _ _ _

/-- The counters have no part in the answers. -/
theorem answer_congr (s : Speaker) (exchange : Question → Option Received) (r : AnalysisRequest)
    (u u' : Usage) : (s.ask exchange r u).1 = (s.ask exchange r u').1 := by
  rw [Speaker.ask, Speaker.ask]
  cases s.question r with
  | error f => rfl
  | ok q =>
    dsimp only
    cases s.completion q (exchange q) with
    | error f => rfl
    | ok c =>
      dsimp only
      rw [Speaker.conclude, Speaker.conclude]
      cases c.contents.head?.join <;> rfl

/-- Neither has the pacer. -/
theorem answer_send (l : Line) (p : Passage) (r : AnalysisRequest) (shown now : Nat) :
    (l.send p r shown now).answer = l.answer := by
  have hmark : ({ l.speaker with client := l.speaker.client.mark p.made } : Speaker).ask =
      l.speaker.ask := rfl
  rw [send, answer_leave]
  funext r'
  rw [answer, answer, hmark]
  exact answer_congr _ _ _ _ _

end Model.Line

namespace Analyst

/-- Whether an analyst answers as another one does, and takes as long for it as that one may. -/
structure AnswersAs (a b : Analyst) : Prop where
  answer : a.answer = b.answer
  mayTake : a.MayTake = b.MayTake

theorem AnswersAs.refl (a : Analyst) : a.AnswersAs a := ⟨rfl, rfl⟩

theorem AnswersAs.trans {a b c : Analyst} (h : a.AnswersAs b) (h' : b.AnswersAs c) : a.AnswersAs c :=
  ⟨h.answer.trans h'.answer, h.mayTake.trans h'.mayTake⟩

/-- What becomes of the line of a model makes no difference to its answers. -/
theorem answersAs_model {l l' : Model.Line} (h : l'.answer = l.answer) :
    (model l').AnswersAs (model l) :=
  ⟨funext fun r => congrFun h r, rfl⟩

theorem answersAs_hear (a : Analyst) (n shown now : Nat) : (a.hear n shown now).AnswersAs a := by
  cases a with
  | model l => exact answersAs_model (l.answer_enter n shown now)
  | _ => exact .refl _

theorem answersAs_reply (a : Analyst) (n : Nat) (r : AnalysisRequest) (shown now : Nat) :
    (a.reply n r shown now).AnswersAs a := by
  cases a with
  | model l =>
    rw [reply]
    split
    · exact answersAs_model (l.answer_send _ r shown now)
    · exact .refl _
  | _ => exact .refl _

theorem answersAs_dismiss (a : Analyst) (n shown now : Nat) : (a.dismiss n shown now).AnswersAs a := by
  cases a with
  | model l => exact answersAs_model (l.answer_leave n shown now)
  | _ => exact .refl _

end Analyst

namespace Schedule

theorem answersAs_attend (w : World) (t : Ticket) (d : Desk) : (attend w t d).AnswersAs w.analyst := by
  rw [attend]
  split
  · exact w.analyst.answersAs_hear _ _ _
  · split
    · exact w.analyst.answersAs_reply _ _ _ _
    · exact w.analyst.answersAs_dismiss _ _ _
  · exact .refl _

end Schedule

end TierLineage
