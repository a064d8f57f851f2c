import TierLineage.Store
import TierLineage.Answer.Analysis
import TierLineage.Analyst.Prompt
import TierLineage.Config.Engine

/-!
# Analyses under way

Lineage is served from the store while a procedure's text has the digest of the stored record, and
is otherwise asked for, which takes time.  While an analysis of a procedure is under way no other
one of the same procedure is started: further calls wait for it or are rejected.

A call goes through phases.  It looks into the store; if that does not settle it, it takes part in
the lock of its procedure, which is made for the first call and goes away with the last one.  With
the lock it looks again, asks the analyst, stores the record and lets the next call have the lock.
Every change of phase is an `Event`, and events of different calls may come in any order.
-/

namespace TierLineage

open TierLineage.Digest

/-- A record, and whether it was in the store already. -/
structure Finding where
  record : Record
  cached : Bool
  deriving Repr, DecidableEq

/-- The data of a finding. -/
def Finding.toJson (f : Finding) : Json :=
  Json.obj [("record", f.record.toJson), ("cached", .bool f.cached)]

namespace Flight

/-- The number of a call. -/
abbrev Ticket := Nat

/-- The number of a lock. -/
abbrev LockId := Nat

/-- How far a call has come. -/
inductive Phase where
  /-- It has not looked into the store. -/
  | fresh
  /-- It waits for the lock. -/
  | queued (lock : LockId)
  /-- It has the lock and has not looked into the store again. -/
  | holding (lock : LockId)
  /-- The analyst has been at work since a moment. -/
  | analyzing (lock : LockId) (since : Nat)
  /-- The analysis is made and not stored. -/
  | storing (lock : LockId) (analysis : Analysis)
  /-- It is answered. -/
  | done (result : Outcome Finding)
  /-- It was given up by its caller. -/
  | dropped
  deriving Repr

/-- The lock that a call takes part in. -/
def Phase.lock? : Phase → Option LockId
  | fresh => none
  | queued l => some l
  | holding l => some l
  | analyzing l _ => some l
  | storing l _ => some l
  | done _ => none
  | dropped => none

/-- A call for the lineage of a procedure text. -/
structure Call where
  request : AnalysisRequest
  phase : Phase
  deriving Repr

/-- A lock: who has it, who waits for it in which order, and how many references to it there are.
The table of the procedures has one of them.  A call that takes part in the lock has one of its own,
and another one for as long as it waits for the lock or has it. -/
structure Lock where
  holder : Option Ticket
  queue : List Ticket
  references : Nat
  deriving Repr, DecidableEq

namespace Lock

/-- A lock that nobody has and nobody knows. -/
def free : Lock := ⟨none, [], 0⟩

instance : Inhabited Lock := ⟨free⟩

/-- A lock with one more reference to it. -/
def share (k : Lock) : Lock :=
  { k with references := k.references + 1 }

/-- A lock with one reference to it less. -/
def unshare (k : Lock) : Lock :=
  { k with references := k.references - 1 }

end Lock

/-- All calls, the locks they take part in, and what they share. -/
structure Desk where
  policy : InFlightPolicy
  store : Store
  calls : Std.TreeMap Ticket Call
  inFlight : Std.TreeMap ProcedureId LockId
  locks : Std.TreeMap LockId Lock
  nextTicket : Ticket
  nextLock : LockId
  /-- What the analyst was asked, last question first. -/
  asked : List AnalysisRequest

/-- What happens to a call. -/
inductive Event where
  /-- Look into the store, and take part in the procedure's lock if that does not settle it. -/
  | look (ticket : Ticket)
  /-- Look into the store again with the lock, and ask the analyst if that does not settle it. -/
  | recheck (ticket : Ticket) (now : Nat)
  /-- The analyst is ready, or it took too long. -/
  | conclude (ticket : Ticket) (result : Outcome Analysis)
  /-- Store the record. -/
  | save (ticket : Ticket) (now : Instant)
  /-- The caller gives up. -/
  | drop (ticket : Ticket)
  deriving Repr

namespace Desk

/-- A desk without calls. -/
def empty (policy : InFlightPolicy) (store : Store) : Desk where
  policy := policy
  store := store
  calls := ∅
  inFlight := ∅
  locks := ∅
  nextTicket := 0
  nextLock := 0
  asked := []

/-! ### Looking things up -/

/-- The stored record of a procedure, if it is of a text with a digest. -/
def stored? (d : Desk) (p : ProcedureId) (digest : String) : Outcome (Option Record) :=
  (d.store.record? p).map fun r => r.filter fun r => r.definitionHash == digest

/-- A lock by its number. -/
def lock (d : Desk) (l : LockId) : Lock :=
  (d.locks[l]?).getD Lock.free

/-! ### Changes -/

/-- Bring a call into a phase. -/
def setPhase (d : Desk) (t : Ticket) (p : Phase) : Desk :=
  match d.calls[t]? with
  | some c => { d with calls := d.calls.insert t { c with phase := p } }
  | none => d

/-- Put a lock in its new state. -/
def putLock (d : Desk) (l : LockId) (k : Lock) : Desk :=
  { d with locks := d.locks.insert l k }

/-- Give a lock back, or leave its queue, and let go of the reference held for that; the next call
in the queue gets the lock. -/
def release (d : Desk) (t : Ticket) (l : LockId) : Desk :=
  let k := (d.lock l).unshare
  if k.holder = some t then
    match k.queue with
    | next :: rest =>
      (d.putLock l { k with holder := some next, queue := rest }).setPhase next (.holding l)
    | [] => d.putLock l { k with holder := none }
  else d.putLock l { k with queue := k.queue.filter (· != t) }

/-- Let go of a call's own reference to a procedure's lock.  If only the table's one would be left,
the table forgets the lock. -/
def leave (d : Desk) (p : ProcedureId) (l : LockId) : Desk :=
  if d.inFlight[p]? = some l ∧ (d.lock l).references = 2 then
    { d with inFlight := d.inFlight.erase p, locks := d.locks.erase l }
  else d.putLock l (d.lock l).unshare

/-- End a call in a last phase, and let go of its lock. -/
def finish (d : Desk) (t : Ticket) (c : Call) (last : Phase) : Desk :=
  match c.phase.lock? with
  | some l => ((d.setPhase t last).release t l).leave c.request.identity l
  | none => d.setPhase t last

/-- The lock of a procedure, which is made if there is none. -/
def obtain (d : Desk) (p : ProcedureId) : LockId × Desk :=
  match d.inFlight[p]? with
  | some l => (l, d)
  | none =>
    (d.nextLock, { d with
      inFlight := d.inFlight.insert p d.nextLock
      locks := d.locks.insert d.nextLock Lock.free.share
      nextLock := d.nextLock + 1 })

/-- Take part in the lock of a procedure. -/
def join (d : Desk) (t : Ticket) (c : Call) : Desk :=
  let (l, d) := d.obtain c.request.identity
  let k := (d.lock l).share
  match k.holder with
  | none => (d.putLock l { k.share with holder := some t }).setPhase t (.holding l)
  | some _ =>
    match d.policy with
    | .wait => (d.putLock l { k.share with queue := k.queue ++ [t] }).setPhase t (.queued l)
    | .reject =>
      ((d.putLock l k).setPhase t
        (.done (.error (.conflict (.inFlight c.request.identity.display))))).leave
          c.request.identity l

/-! ### Events -/

/-- Take a new call. -/
def submit (d : Desk) (r : AnalysisRequest) : Ticket × Desk :=
  (d.nextTicket,
    { d with calls := d.calls.insert d.nextTicket ⟨r, .fresh⟩, nextTicket := d.nextTicket + 1 })

/-- The record of an analysis. -/
def recordOf (r : AnalysisRequest) (a : Analysis) (now : Instant) : Record where
  identity := r.identity
  definitionHash := contentHash r.definition
  summary := a.summary
  target := a.target
  columns := a.columns
  computedAt := now
  fallback := a.fallback

/-- The first look into the store. -/
def look (d : Desk) (t : Ticket) (c : Call) : Desk :=
  match c.request.identity.validate with
  | .error e => d.setPhase t (.done (.error (.refused e)))
  | .ok () =>
    match d.stored? c.request.identity (contentHash c.request.definition) with
    | .error e => d.setPhase t (.done (.error e))
    | .ok (some r) => d.setPhase t (.done (.ok ⟨r, true⟩))
    | .ok none => d.join t c

/-- The second look into the store. -/
def recheck (d : Desk) (t : Ticket) (c : Call) (l : LockId) (now : Nat) : Desk :=
  match d.stored? c.request.identity (contentHash c.request.definition) with
  | .error e => d.finish t c (.done (.error e))
  | .ok (some r) => d.finish t c (.done (.ok ⟨r, true⟩))
  | .ok none => { d with asked := c.request :: d.asked }.setPhase t (.analyzing l now)

/-- Store the record of an analysis. -/
def save (d : Desk) (t : Ticket) (c : Call) (a : Analysis) (now : Instant) : Desk :=
  let r := recordOf c.request a now
  match d.store.putRecord r with
  | (.ok (), s) => { d with store := s }.finish t c (.done (.ok ⟨r, false⟩))
  | (.error e, s) => { d with store := s }.finish t c (.done (.error e))

/-- What happens to a call in its present phase; an event that does not fit changes nothing. -/
def step (d : Desk) (e : Event) : Desk :=
  match e with
  | .look t =>
    match d.calls[t]? with
    | some c => match c.phase with
      | .fresh => d.look t c
      | _ => d
    | none => d
  | .recheck t now =>
    match d.calls[t]? with
    | some c => match c.phase with
      | .holding l => d.recheck t c l now
      | _ => d
    | none => d
  | .conclude t result =>
    match d.calls[t]? with
    | some c => match c.phase, result with
      | .analyzing l _, .ok a => d.setPhase t (.storing l a)
      | .analyzing _ _, .error e => d.finish t c (.done (.error e))
      | _, _ => d
    | none => d
  | .save t now =>
    match d.calls[t]? with
    | some c => match c.phase with
      | .storing _ a => d.save t c a now
      | _ => d
    | none => d
  | .drop t =>
    match d.calls[t]? with
    | some c => match c.phase with
      | .done _ => d
      | .dropped => d
      | _ => d.finish t c .dropped
    | none => d

/-- The answer of a call, if it is answered. -/
def answer? (d : Desk) (t : Ticket) : Option (Outcome Finding) :=
  match d.calls[t]? with
  | some ⟨_, .done r⟩ => some r
  | _ => none

/-- Forget a call. -/
def forget (d : Desk) (t : Ticket) : Desk :=
  { d with calls := d.calls.erase t }

/-- The number of procedures with calls that wait, hold or work. -/
def inFlightCount (d : Desk) : Nat :=
  d.inFlight.size

/-! ### Status -/

/-- The status of procedures of a connection, told from the stored digests. -/
def statuses (d : Desk) (a : Alias) (ps : List Procedure) : Outcome (List (Procedure × Status)) :=
  (d.store.hashesOf a.name).map fun hashes =>
    ps.map fun p => (p, Status.derive
      ((hashes.reverse.lookup p.identity.name)) (contentHash p.definition))

end Desk

end Flight

end TierLineage
