import TierLineage.Server.Files
import TierLineage.Server.SocketAddress
import TierLineage.Toml.Parser
import TierLineage.Config.Engine
import TierLineage.Config.Registry
import TierLineage.Analyst.Settings
import TierLineage.Store

/-!
# Server settings

Everything that a settings file says: where to listen and which origins may ask, the settings of the
engine and the analyst, where mappings and records are kept, the snapshot of the catalogs, and the
connections.  What is left out keeps its default; what is unknown is refused.  Settings that can be
read may still contradict themselves, which `validate` finds out, the first fault first.
-/

namespace TierLineage

instance : Named Backend where
  title := "storage backend"
  all := [.memory, .ledger]
  name
    | .memory => "memory"
    | .ledger => "lmdb"

namespace Server

open TierLineage.Text

/-! ### Sections -/

/-- Where to listen, and for whom. -/
structure Listening where
  bind : String
  /-- The origins whose pages may use the service; if there are none, all may. -/
  origins : List String
  deriving Repr, DecidableEq

/-- Where mappings and records are kept. -/
structure Storage where
  backend : Backend
  path : Option String
  megabytes : Nat
  deriving Repr, DecidableEq

/-- Where the service listens if nothing else is said. -/
def Listening.standard : Listening := ⟨"0.0.0.0:3000", []⟩

/-- Read where to listen. -/
def Listening.read : Json.Reader Listening := fun v => do
  let d := Listening.standard
  let origins := Json.readList Json.readText
  let found ← Json.fields true [Json.may "bind" Json.readText, Json.may "cors_origins" origins] v
  return ⟨← found.orDefault "bind" Json.readText d.bind,
    ← found.orDefault "cors_origins" origins d.origins⟩

/-- Where mappings and records are kept if nothing else is said. -/
def Storage.standard : Storage := ⟨.memory, none, 1024⟩

/-- Read where mappings and records are kept. -/
def Storage.read : Json.Reader Storage := fun v => do
  let d := Storage.standard
  let found ← Json.fields true
    [Json.may "backend" (Named.read (α := Backend)),
     Json.may "path" (Json.readOption Json.readText), Json.may "max_size_mb" Json.readWord] v
  return ⟨← found.orDefault "backend" Named.read d.backend, ← found.option "path" Json.readText,
    ← found.orDefault "max_size_mb" Json.readWord d.megabytes⟩

/-- Read the path of the snapshot. -/
def readSnapshotPath : Json.Reader (Option String) := fun v => do
  let found ← Json.fields true [Json.may "snapshot" (Json.readOption Json.readText)] v
  found.option "snapshot" Json.readText

/-! ### Settings -/

/-- The settings of a server. -/
structure Settings where
  listening : Listening
  engine : Engine
  storage : Storage
  analyst : AnalystSettings
  snapshot : Option String
  connections : List Connection
  deriving Repr, DecidableEq

/-- Why settings cannot be used. -/
inductive SettingsFault where
  | noPath
  | unreadable (fault : PathFault)
  | unparsable
  | invalid (field reason : String)
  | engine (f : Failure)
  deriving Repr

/-- The wording of a fault. -/
def SettingsFault.message : SettingsFault → String
  | noPath => "Missing configuration file path (use --config or BRONZELINE_CONFIG)"
  | unreadable fault => "Failed to read config file: " ++ fault.message
  | unparsable => "Failed to parse config TOML"
  | invalid field reason => "Invalid config value for " ++ field ++ ": " ++ reason
  | engine f => f.message

namespace Settings

/-- Read settings from data. -/
def read : Json.Reader Settings := fun v => do
  let readConnections := Json.readList Connection.read
  let found ← Json.fields true
    [Json.may "server" Listening.read, Json.may "engine" Engine.read,
     Json.may "storage" Storage.read, Json.may "analyzer" AnalystSettings.read,
     Json.may "catalog" readSnapshotPath, Json.may "connections" readConnections] v
  return {
    listening := ← found.orDefault "server" Listening.read Listening.standard
    engine := ← found.orDefault "engine" Engine.read Engine.standard
    storage := ← found.orDefault "storage" Storage.read Storage.standard
    analyst := ← found.orDefault "analyzer" AnalystSettings.read AnalystSettings.standard
    snapshot := ← found.orDefault "catalog" readSnapshotPath none
    connections := ← found.orDefault "connections" readConnections [] }

/-- Read settings from the text of a file. -/
def parse (text : String) : Except SettingsFault Settings :=
  match (Toml.read? text).map read with
  | some (.ok s) => .ok s
  | _ => .error .unparsable

/-! ### Bounds -/

/-- A setting that cannot be used. -/
def check (sound : Bool) (field reason : String) : Except SettingsFault Unit :=
  if sound then .ok () else .error (.invalid field reason)

/-- The address to listen at. -/
def address (s : Settings) : Except SettingsFault SocketAddress :=
  match SocketAddress.parse? s.listening.bind with
  | some a => .ok a
  | none => .error (.invalid "server.bind" (s.listening.bind ++ ": invalid socket address syntax"))

/-- The connections. -/
def registry (s : Settings) : Except SettingsFault Registry :=
  (Registry.ofList s.connections).mapError .engine

/-- Mappings and records that last need a place and some room. -/
def checkStorage (s : Storage) : Except SettingsFault Unit := do
  check (s.backend == .memory || s.path.isSome) "storage.path" "required for the lmdb backend"
  check (s.megabytes != 0) "storage.max_size_mb" "must be > 0"

/-- A provider needs a model and may be asked now and then; a deployment needs an address. -/
def checkAnalyst (s : AnalystSettings) : Except SettingsFault Unit := do
  if s.provider ≠ .disabled then
    check (!isBlankString s.model) "analyzer.model" "must not be empty"
    check (s.requestsPerMinute != 0) "analyzer.requests_per_minute" "must be > 0"
  check (s.provider != .azure || s.endpoint.isSome) "analyzer.endpoint" "required for azure_openai"

/-- Settings that can be used. -/
def validate (s : Settings) : Except SettingsFault Unit := do
  let _ ← s.address
  s.engine.validate.mapError .engine
  let _ ← s.registry
  checkStorage s.storage
  checkAnalyst s.analyst

/-! ### Loading -/

/-- The settings of a file. -/
def ofFile (files : Files) (path : String) : Except SettingsFault Settings := do
  parse (← (files.read path).mapError .unreadable)

/-- Settings with what the environment says. -/
def withEnvironment (s : Settings) (env : Environment) : Settings :=
  { s with
    engine := s.engine.withEnvironment env
    analyst := s.analyst.withEnvironment env }

/-- The name of the settings file in the environment. -/
def pathName : String := "BRONZELINE_CONFIG"

/-- The path of the settings file: behind the first `--config` of the arguments, or else in the
environment. -/
def path? (arguments : List String) (env : Environment) : Option String :=
  ((arguments.dropWhile (· != "--config")).drop 1).head?.or (env.lookup pathName)

/-- Load settings that can be used. -/
def load (arguments : List String) (env : Environment) (files : Files) :
    Except SettingsFault Settings := do
  match path? arguments env with
  | none => throw .noPath
  | some path =>
    let s := (← ofFile files path).withEnvironment env
    s.validate
    return s

end Settings

end Server

end TierLineage
