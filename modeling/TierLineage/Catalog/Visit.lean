import TierLineage.Catalog.Basic

/-!
# Visits

Calling a catalog takes time.  A connection may be slow, so that every call waits for a while, and
it may be unreachable, which shows when the wait is over.  A call that waits longer than a limit
fails when the limit is reached.

A `Visit` is work that consists of such calls.  It knows the surroundings at every moment from its
start on, and tells its result and the moment of its end.  Visits follow each other, or run side by
side in a window: at most so many of them are under way at a time, and their results come in order.
-/

namespace TierLineage

/-- Which connections are unreachable, and how long calls to slow ones wait. -/
structure Faults where
  unreachable : List Alias
  delays : Std.TreeMap Alias Nat

namespace Faults

/-- Every connection answers at once. -/
def none : Faults := ⟨[], ∅⟩

instance : Inhabited Faults := ⟨none⟩

/-- Make a connection unreachable. -/
def fail (f : Faults) (a : Alias) : Faults :=
  { f with unreachable := a :: f.unreachable }

/-- Make a connection slow. -/
def stall (f : Faults) (a : Alias) (delay : Nat) : Faults :=
  { f with delays := f.delays.insert a delay }

/-- Make a connection answer at once again. -/
def heal (f : Faults) (a : Alias) : Faults :=
  ⟨f.unreachable.filter (· != a), f.delays.erase a⟩

end Faults

/-- What a visit meets: what the connections hold and how they answer. -/
structure Surroundings where
  catalog : Catalog
  faults : Faults

instance : Inhabited Surroundings := ⟨⟨Catalog.empty, Faults.none⟩⟩

/-- The surroundings at every moment. -/
abbrev View := Nat → Surroundings

/-- Work that takes time: its result and the moment of its end, told from the surroundings and the
moment of its start. -/
def Visit (α : Type) := View → Nat → Outcome α × Nat

namespace Visit

/-- Work that takes no time. -/
def pure {α : Type} (a : α) : Visit α := fun _ t => (.ok a, t)

/-- Work that fails at once. -/
def fail {α : Type} (e : Failure) : Visit α := fun _ t => (.error e, t)

/-- Work that goes on with the result of other work. -/
def bind {α β : Type} (v : Visit α) (next : α → Visit β) : Visit β := fun view t =>
  match v view t with
  | (.ok a, t') => next a view t'
  | (.error e, t') => (.error e, t')

instance : Monad Visit where
  pure := pure
  bind := bind

/-- A result that is known already. -/
def ofOutcome {α : Type} : Outcome α → Visit α
  | .ok a => pure a
  | .error e => fail e

/-- A call to a connection, with a limit to its wait. -/
def call {α : Type} (limit : Nat) (operation : String) (a : Alias) (ask : Catalog → Outcome α) :
    Visit α := fun view t =>
  let answer (t : Nat) : Outcome α × Nat :=
    if (view t).faults.unreachable.contains a then
      (.error (.catalog (.unreachable a.name "connection refused")), t)
    else (ask (view t).catalog, t)
  match (view t).faults.delays[a]? with
  | none => answer t
  | some delay =>
    if limit < delay then (.error (.catalog (.timedOut a.name operation limit)), t + limit)
    else answer (t + delay)

/-! ### Windows -/

/-- The results of visits side by side, each with the moment at which it is handed on.  A visit
starts when the one `width` places ahead of it was handed on; `handed` holds those moments, last
one first. -/
def windowFrom {α : Type} (width : Nat) (view : View) (start : Nat) :
    List Nat → List (Visit α) → List (Outcome α × Nat)
  | _, [] => []
  | handed, v :: vs =>
    let opening := if width = 0 then start else handed[width - 1]?.getD start
    let (result, finish) := v view opening
    let moment := max finish (handed.headD start)
    (result, moment) :: windowFrom width view start (moment :: handed) vs

/-- All results of visits side by side, in order. -/
def window {α : Type} (width : Nat) (vs : List (Visit α)) : Visit (List (Outcome α)) :=
  fun view t =>
    let results := windowFrom width view t [] vs
    (.ok (results.map Prod.fst), (results.getLast?.map Prod.snd).getD t)

/-- The first failure of results in order, or all of them. -/
def untilFailure {α : Type} (t : Nat) : List (Outcome α × Nat) → Outcome (List α) × Nat
  | [] => (.ok [], t)
  | (.error e, t') :: _ => (.error e, t')
  | (.ok a, t') :: rest =>
    match untilFailure t' rest with
    | (.ok as, t'') => (.ok (a :: as), t'')
    | (.error e, t'') => (.error e, t'')

/-- The results of visits side by side, in order, up to the first failure. -/
def allInWindow {α : Type} (width : Nat) (vs : List (Visit α)) : Visit (List α) :=
  fun view t => untilFailure t (windowFrom width view t [] vs)

end Visit

end TierLineage
