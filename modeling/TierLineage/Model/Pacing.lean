/-!
# Pacing

Requests to a model are kept apart in time.  A pacer remembers when the last request was made and
tells how long the next one has to wait; moments are in milliseconds since the pacer was made, and
the moment zero counts as one, so that zero can mean that there was no request.
-/

namespace TierLineage.Model

/-- The least time between requests, and the moment of the last one. -/
structure Pacer where
  interval : Nat
  last : Nat
  deriving Repr, DecidableEq

namespace Pacer

/-- A pacer for a number of requests a minute. -/
def ofRate (requestsPerMinute : Nat) : Pacer :=
  ⟨max (60000 / max requestsPerMinute 1) 10, 0⟩

/-- How long a request at a moment has to wait. -/
def wait (p : Pacer) (now : Nat) : Nat :=
  let elapsed := now - p.last
  if 0 < p.last ∧ elapsed < p.interval then p.interval - elapsed else 0

/-- Take down when a request was made. -/
def mark (p : Pacer) (made : Nat) : Pacer :=
  { p with last := max made 1 }

/-- The moment at which a request is sent, and the pacer after it. -/
def send (p : Pacer) (now : Nat) : Nat × Pacer :=
  (now + p.wait now, p.mark now)

end Pacer

end TierLineage.Model
