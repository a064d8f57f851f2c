import TierLineage.Model.Exchange

/-!
# Sessions with a model

A model is asked one question after another.  Each question is made some time after the one before it
was sent, and is sent when the pacer of the client lets it go.
-/

namespace TierLineage.Model

/-- The moment at which a request is sent that is made at a moment, and the client after it. -/
def Client.send (c : Client) (now : Nat) : Nat × Client :=
  (now + c.pacer.wait now, c.mark now)

/-- A question of a session: how long after the one before it was sent it is made, what it is about,
and what the provider sends back to it. -/
structure Inquiry where
  pause : Nat
  request : AnalysisRequest
  exchange : Question → Option Received

/-- What came of an inquiry: when it was made, when it was sent, and its answer. -/
structure Told where
  made : Nat
  sent : Nat
  answer : Outcome Analysis

/-- A model under question, the counters of its use, and the moment at which the last question was
sent. -/
structure Session where
  speaker : Speaker
  usage : Usage
  clock : Nat

namespace Session

/-- A session in which nothing was asked. -/
def start (s : Speaker) : Session := ⟨s, Usage.zero, 0⟩

/-- Ask one question.  It passes the pacer also if it cannot be put together. -/
def ask (s : Session) (q : Inquiry) : Told × Session :=
  let made := s.clock + q.pause
  let passed := s.speaker.client.send made
  let asked := s.speaker.ask q.exchange q.request s.usage
  (⟨made, passed.1, asked.1⟩, ⟨{ s.speaker with client := passed.2 }, asked.2, passed.1⟩)

/-- Ask one question after another. -/
def askAll (s : Session) : List Inquiry → List Told × Session
  | [] => ([], s)
  | q :: qs =>
    let first := s.ask q
    let others := first.2.askAll qs
    (first.1 :: others.1, others.2)

end Session

end TierLineage.Model
