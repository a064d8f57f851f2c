import TierLineage.Service.World

/-!
# Work side by side

Several pieces of work are under way together.  Each begins with a visit to the catalogs, and then
either acts on the state of the service at once or calls for lineage, one call or many of them with
at most so many at a time.  The pieces are looked at in their order, again and again; each goes as
far as it can, and when none can go on the clock moves to the next moment at which something ends.
-/

namespace TierLineage

open Flight

/-- What a piece of work answers. -/
inductive Reply where
  | value (v : Json)
  | failure (f : Failure)
  | unreadable
  | all (replies : List Reply)

namespace Reply

/-- The reply of a result. -/
def of {α : Type} (write : α → Json) : Outcome α → Reply
  | .ok a => value (write a)
  | .error f => failure f

end Reply

/-- A call for lineage with its answer. -/
abbrev Answered := AnalysisRequest × Outcome Finding

/-- What follows the visit to the catalogs. -/
inductive Plan where
  /-- Act on the state at once. -/
  | act (run : World → Reply × World)
  /-- Call for lineage, and reply when all calls are answered. -/
  | ask (width : Nat) (requests : List AnalysisRequest) (close : List Answered → Reply)

/-- Calls for lineage that belong together. -/
structure Work where
  width : Nat
  waiting : List AnalysisRequest
  live : List (AnalysisRequest × Ticket)
  answered : List Answered
  close : List Answered → Reply

/-- How far a piece of work has come. -/
inductive Activity where
  /-- It visits the catalogs until a moment. -/
  | visiting (moment : Nat) (plan : Plan)
  /-- Its calls for lineage are under way. -/
  | working (work : Work)
  /-- It is done. -/
  | done (reply : Reply)

namespace Schedule

/-! ### Calls -/

/-- The moment at which the analyst is ready, if that is not too late. -/
def readyInTime? (w : World) (t : Ticket) (since : Nat) : Option Nat :=
  (w.analyst.ready? t since).filter fun moment => decide (moment ≤ since + w.engine.analysisTimeout)

/-- What comes of an analysis that takes too long. -/
def tooLate (w : World) (r : AnalysisRequest) : Outcome Analysis :=
  .error (.analysis (.timedOut r.identity.display w.engine.analysisTimeout))

/-- The moment at which the analyst is ready or has taken too long, and what comes of it. -/
def conclusion (w : World) (t : Ticket) (r : AnalysisRequest) (since : Nat) :
    Nat × Outcome Analysis :=
  match readyInTime? w t since with
  | some moment => (moment, w.analyst.answer r)
  | none => (since + w.engine.analysisTimeout, tooLate w r)

/-- What can happen to a call by now, if anything. -/
def nextEvent? (w : World) (t : Ticket) : Option Event :=
  match w.desk.calls[t]? with
  | none => none
  | some c =>
    match c.phase with
    | .fresh => some (.look t)
    | .holding _ => some (.recheck t w.clock)
    | .analyzing _ since =>
      let (moment, result) := conclusion w t c.request since
      if moment ≤ w.clock then some (.conclude t result) else none
    | .storing _ _ => some (.save t w.supply.now)
    | _ => none

/-- What the analyst makes of the step of a call that leads to another desk: it hears a question, has
answered it, or is not waited for any more. -/
def attend (w : World) (t : Ticket) (d : Desk) : Analyst :=
  match w.desk.calls[t]?, d.calls[t]? with
  | some ⟨_, .holding _⟩, some ⟨_, .analyzing _ _⟩ => w.analyst.hear t w.shown w.clock
  | some ⟨r, .analyzing _ since⟩, _ =>
    match readyInTime? w t since with
    | some _ => w.analyst.reply t r w.shown w.clock
    | none => w.analyst.dismiss t w.shown w.clock
  | _, _ => w.analyst

/-- Let one thing happen to a call, if it can. -/
def stepCall (w : World) (t : Ticket) : World :=
  match nextEvent? w t with
  | some e =>
    let d := w.desk.step e
    { w with desk := d, analyst := attend w t d }
  | none => w

/-- The number of phases of a call. -/
def phases : Nat := 6

/-- Let a call go as far as it can. -/
def advanceCall (w : World) (t : Ticket) : World :=
  (List.range phases).foldl (fun w _ => stepCall w t) w

/-! ### Work -/

/-- Move the answered calls from the live ones. -/
def collect (w : World) (k : Work) : Work × World :=
  k.live.foldl
    (fun (k, w) (r, t) =>
      match w.desk.answer? t with
      | some a =>
        ({ k with answered := k.answered ++ [(r, a)] }, { w with desk := w.desk.forget t })
      | none => ({ k with live := k.live ++ [(r, t)] }, w))
    ({ k with live := [] }, w)

/-- Start waiting calls while there is room. -/
def refill (w : World) (k : Work) : Work × World :=
  let room := k.width - k.live.length
  (k.waiting.take room).foldl
    (fun (k, w) r =>
      let (t, d) := w.desk.submit r
      ({ k with live := k.live ++ [(r, t)] }, { w with desk := d }))
    ({ k with waiting := k.waiting.drop room }, w)

/-- Let calls that belong together go as far as they can.  The number bounds how often waiting
calls are started. -/
def advanceWork : Nat → World → Work → Work × World
  | 0, w, k => (k, w)
  | bound + 1, w, k =>
    let w := k.live.foldl (fun w (_, t) => advanceCall w t) w
    let (k, w) := collect w k
    let (k', w) := refill w k
    if k'.waiting.length < k.waiting.length then advanceWork bound w k' else (k', w)

/-! ### Activities -/

/-- Let calls that belong together go as far as they can, and reply if all are answered. -/
def settle (w : World) (k : Work) : Activity × World :=
  let (k, w) := advanceWork (k.waiting.length + 2) w k
  if k.live.isEmpty && k.waiting.isEmpty then (.done (k.close k.answered), w)
  else (.working k, w)

/-- Follow a plan. -/
def follow (w : World) : Plan → Activity × World
  | .act run =>
    let (r, w) := run w
    (.done r, w)
  | .ask width requests close => settle w ⟨width, requests, [], [], close⟩

/-- Let an activity go as far as it can. -/
def advance (w : World) : Activity → Activity × World
  | .visiting moment plan => if moment ≤ w.clock then follow w plan else (.visiting moment plan, w)
  | .working k => settle w k
  | .done r => (.done r, w)

/-- Let all activities in their order go as far as they can. -/
def advanceAll (w : World) (as : List Activity) : List Activity × World :=
  as.foldl (fun (done, w) a => let (a, w) := advance w a; (done ++ [a], w)) ([], w)

/-- The moments for which an activity waits. -/
def moments (w : World) : Activity → List Nat
  | .visiting moment _ => [moment]
  | .working k => k.live.filterMap fun (_, t) =>
    match w.desk.calls[t]? with
    | some ⟨r, .analyzing _ since⟩ => some (conclusion w t r since).1
    | _ => none
  | .done _ => []

/-- Whether some call can go on now. -/
def restless (w : World) (as : List Activity) : Bool :=
  as.any fun a =>
    match a with
    | .working k => k.live.any fun (_, t) => (nextEvent? w t).isSome
    | _ => false

/-- Run activities to their end.  The number bounds the rounds. -/
def run : Nat → World → List Activity → List Activity × World
  | 0, w, as => (as, w)
  | bound + 1, w, as =>
    let (as, w) := advanceAll w as
    if restless w as then run bound w as
    else match (as.flatMap (moments w)).min? with
      | some moment => run bound { w with clock := max w.clock moment } as
      | none => (as, w)

/-- The reply of an activity at its end. -/
def replyOf : Activity → Reply
  | .done r => r
  | _ => .value .null

/-- The number of calls that a plan makes. -/
def callsOf : Plan → Nat
  | .act _ => 0
  | .ask _ requests _ => requests.length

/-- A bound of the rounds that plans need: every call goes through a few phases. -/
def roundsOf (plans : List Plan) : Nat :=
  (phases + 2) * (plans.foldl (fun n p => n + callsOf p) plans.length + 1)

/-- Follow plans together to their end. -/
def runPlans (w : World) (plans : List Plan) : List Reply × World :=
  let (as, w) := plans.foldl
    (fun (done, w) p => let (a, w) := follow w p; (done ++ [a], w)) (([] : List Activity), w)
  let (as, w) := run (roundsOf plans) w as
  (as.map replyOf, w)

end Schedule

end TierLineage
