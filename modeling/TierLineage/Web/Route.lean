import TierLineage.Web.Message
import TierLineage.Web.Percent

/-!
# Routes

Which paths the service knows, and what can be done there by which method.  A path is cut at its
slashes; a parameter of a route stands for one segment that is not empty, and fixed segments go
before parameters.
-/

namespace TierLineage.Web

open TierLineage.Text

/-- Everything that can be asked of the service. -/
inductive Action where
  | ping
  | live
  | ready
  | connections
  | tables
  | columns
  | usage
  | discover
  | confirm
  | bulk
  | mappings
  | deleteMapping
  | candidates
  | suggest
  | autoMap
  | analyze
  | status
  | procedures
  | record
  | analyzeProcedure
  | bulkAnalyze
  deriving Repr, DecidableEq

/-- A segment of a route. -/
inductive Part where
  | fixed (name : String)
  | parameter
  deriving Repr, DecidableEq

/-- A route: its segments, and what the methods do there. -/
structure Route where
  parts : List Part
  actions : List (Method × Action)
  deriving Repr, DecidableEq

namespace Route

/-- A route from its path, in which a star is a parameter. -/
def ofPath (path : List String) (actions : List (Method × Action)) : Route :=
  ⟨path.map fun p => if p = "*" then .parameter else .fixed p, actions⟩

/-- A route below the interface's first version. -/
def api (path : List String) (actions : List (Method × Action)) : Route :=
  ofPath ("api" :: "v1" :: path) actions

/-- All routes; of two that fit the same path the one with more fixed segments stands first. -/
def all : List Route := [
  ofPath ["health", "ping"] [(.get, .ping)],
  ofPath ["health", "live"] [(.get, .live)],
  ofPath ["health", "ready"] [(.get, .ready)],
  api ["connections"] [(.get, .connections)],
  api ["tables", "*"] [(.get, .tables)],
  api ["tables", "*", "*", "*", "columns"] [(.get, .columns)],
  api ["usage"] [(.get, .usage)],
  api ["mappings", "discover"] [(.post, .discover)],
  api ["mappings", "confirm"] [(.post, .confirm)],
  api ["mappings", "bulk"] [(.post, .bulk)],
  api ["mappings", "*"] [(.get, .mappings), (.delete, .deleteMapping)],
  api ["mappings", "*", "candidates"] [(.get, .candidates)],
  api ["mappings", "*", "suggest"] [(.post, .suggest)],
  api ["mappings", "*", "auto-map"] [(.post, .autoMap)],
  api ["lineage", "*", "analyze"] [(.post, .analyze)],
  api ["lineage", "*", "status"] [(.get, .status)],
  api ["lineage", "*", "procedures"] [(.get, .procedures)],
  api ["lineage", "*", "procedures", "*"] [(.get, .record)],
  api ["lineage", "*", "procedures", "*", "analyze"] [(.post, .analyzeProcedure)],
  api ["lineage", "*", "bulk-analyze"] [(.post, .bulkAnalyze)]]

/-! ### Looking up -/

/-- The segments that stand for the parameters, if segments fit a route. -/
def arguments? : List Part → List (List Char) → Option (List (List Char))
  | [], [] => some []
  | .fixed name :: parts, s :: segments =>
    if s = name.toList then arguments? parts segments else none
  | .parameter :: parts, s :: segments =>
    if s.isEmpty then none else (arguments? parts segments).map (s :: ·)
  | _, _ => none

/-- The segments of a path. -/
def segments? : List Char → Option (List (List Char))
  | '/' :: cs => some (pieces '/' cs)
  | _ => none

/-- The route of a path, with the segments that stand for its parameters. -/
def find? (path : List Char) : Option (Route × List (List Char)) := do
  let segments ← segments? path
  all.findSome? fun r => (arguments? r.parts segments).map (r, ·)

/-- What a method does; asking for the head is asking. -/
def action? (r : Route) (m : Method) : Option Action :=
  r.actions.lookup (if m = .head then .get else m)

/-- The methods of a route as they are told to those who use another one. -/
def allowed (r : Route) : String :=
  joinedStrings "," (r.actions.flatMap fun (m, _) =>
    if m = .get then [m.name, Method.name .head] else [m.name])

end Route

end TierLineage.Web
