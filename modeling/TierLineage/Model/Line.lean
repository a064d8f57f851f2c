import TierLineage.Model.Exchange

/-!
# Requests in line

All requests to a model pass one client.  It has permits for a number of requests at a time; those for
which there is none wait in line.  A request with a permit is made: it reads the client's clock, is
told by the pacer how long to wait, and is sent when the wait is over.  Only then does the pacer take
down when it was made, so that requests that wait at the same time know nothing of each other.

The wait is measured by the timers, and the moment at which a request is made by the clock of the
client; the two are read side by side.
-/

namespace TierLineage.Model

/-- A request that has a permit. -/
structure Passage where
  number : Nat
  /-- What the client's clock showed when the request was made. -/
  made : Nat
  /-- The moment at which it is sent. -/
  due : Nat
  deriving Repr, DecidableEq

/-- A model under question, with the requests that have not been sent. -/
structure Line where
  speaker : Speaker
  /-- What the provider sends back to a question. -/
  exchange : Question → Option Received
  usage : Usage
  passing : List Passage
  waiting : List Nat

namespace Line

/-- A line to which no request has come. -/
def start (s : Speaker) (exchange : Question → Option Received) : Line :=
  ⟨s, exchange, Usage.zero, [], []⟩

/-- Whether there is a permit left. -/
def HasRoom (l : Line) : Prop := l.passing.length < l.speaker.client.permits

instance (l : Line) : Decidable l.HasRoom := Nat.decLt _ _

/-- Give a request a permit. -/
def grant (l : Line) (n shown now : Nat) : Line :=
  { l with passing := l.passing ++ [⟨n, shown, now + l.speaker.client.pacer.wait shown⟩] }

/-- Give the first request that waits a permit, if there is one left. -/
def grantNext (l : Line) (shown now : Nat) : Line :=
  match l.waiting with
  | [] => l
  | n :: ns => if l.HasRoom then { l with waiting := ns }.grant n shown now else l

/-- Take a request. -/
def enter (l : Line) (n shown now : Nat) : Line :=
  if l.HasRoom then l.grant n shown now else { l with waiting := l.waiting ++ [n] }

/-- A request with a permit. -/
def passage? (l : Line) (n : Nat) : Option Passage :=
  l.passing.find? (·.number == n)

/-- Let go of a request. -/
def leave (l : Line) (n shown now : Nat) : Line :=
  { l with
    passing := l.passing.eraseP (·.number == n)
    waiting := l.waiting.erase n }.grantNext shown now

/-- What comes back to a question about a procedure. -/
def answer (l : Line) (r : AnalysisRequest) : Outcome Analysis :=
  (l.speaker.ask l.exchange r l.usage).1

/-- Send a request, and let go of it.  It passes the pacer also if it cannot be put together. -/
def send (l : Line) (p : Passage) (r : AnalysisRequest) (shown now : Nat) : Line :=
  { l with
    speaker := { l.speaker with client := l.speaker.client.mark p.made }
    usage := (l.speaker.ask l.exchange r l.usage).2 }.leave p.number shown now

end Line

end TierLineage.Model
