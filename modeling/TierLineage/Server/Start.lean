import TierLineage.Server.Settings
import TierLineage.Catalog.Snapshot
import TierLineage.Web.Site

/-!
# Starting the server

A server is put together from its settings: the catalogs from their snapshot, the store, the
analyst, the connections and the engine, in this order; the first of them that fails keeps the
server from starting.
-/

namespace TierLineage.Server

open TierLineage.Web TierLineage.Model

/-- What a server finds when it starts. -/
structure Facilities where
  files : Files
  environment : Environment
  /-- What is kept at the place of storage. -/
  store : Store
  /-- What providers send back to questions. -/
  exchange : Question → Option Received
  supply : Supply

/-- The catalogs of a snapshot file; without one they are empty. -/
def catalogOf (files : Files) : Option String → Outcome Catalog
  | none => .ok Catalog.empty
  | some path =>
    match files.read path with
    | .error e => .error (.config (.unreadable path e.message))
    | .ok text =>
      match Json.decode Snapshot.read text with
      | .error _ => .error (.config (.unparsable path "not a snapshot"))
      | .ok s => s.load

/-- Whether the store can be opened at its place. -/
def openStorage (files : Files) (s : Storage) : Except Problem Unit :=
  match s.backend, s.path with
  | .memory, _ => .ok ()
  | .ledger, none => .error (.missingField "storage.path")
  | .ledger, some path =>
    (files.makeDirectory path).mapError fun e =>
      .ofFailure (.storage (.transaction ("I/O error: " ++ e.message)))

/-- Who answers questions about procedures. -/
def analystOf (s : AnalystSettings) (env : Environment)
    (exchange : Question → Option Received) : Outcome Analyst :=
  (Speaker.ofSettings s env).map fun speaker =>
    match speaker with
    | some speaker => .model (.start speaker exchange)
    | none => .absent

/-- Start a server. -/
def start (s : Settings) (found : Facilities) : Except Problem Site := do
  let catalog ← (catalogOf found.files s.snapshot).mapError .ofFailure
  openStorage found.files s.storage
  let analyst ← (analystOf s.analyst found.environment found.exchange).mapError .ofFailure
  let registry ← s.registry.mapError fun e => .invalidInput e.message
  let world ← (World.start registry s.engine catalog found.store analyst found.supply).mapError
    .ofFailure
  return ⟨world, s.listening.origins⟩

end TierLineage.Server
