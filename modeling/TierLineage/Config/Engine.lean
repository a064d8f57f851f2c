import TierLineage.Failure
import TierLineage.Config.Setting

/-!
# Engine settings

What steers matching, batch work and analysis, with its defaults, its bounds and its names in data
and in the environment.
-/

namespace TierLineage

open TierLineage.Number

/-- What a request for an analysis does while one for the same procedure is running. -/
inductive InFlightPolicy where
  | wait
  | reject
  deriving Repr, DecidableEq, Inhabited

instance : Named InFlightPolicy where
  title := "in-flight policy"
  all := [.wait, .reject]
  name
    | .wait => "wait"
    | .reject => "reject"

/-- The settings of the engine; times are in milliseconds. -/
structure Engine where
  acceptanceThreshold : Single
  tieEpsilon : Single
  topK : Nat
  minCandidateScore : Single
  workerPoolSize : Nat
  catalogTimeout : Nat
  analysisTimeout : Nat
  inFlightPolicy : InFlightPolicy
  verifyConfirmedTables : Bool
  deriving Repr, DecidableEq

namespace Engine

/-- The settings where nothing else is said. -/
def standard : Engine where
  acceptanceThreshold := Binary.ofRatio 85 100
  tieEpsilon := Binary.ofRatio 2 100
  topK := 1
  minCandidateScore := Binary.ofNat 0
  workerPoolSize := 8
  catalogTimeout := 30000
  analysisTimeout := 120000
  inFlightPolicy := .wait
  verifyConfirmedTables := true

instance : Inhabited Engine := ⟨standard⟩

/-! ### Bounds -/

/-- A setting outside its bounds. -/
def outOfBounds (field value reason : String) : Failure :=
  .config (.invalid field value reason)

/-- A score lies between zero and one. -/
def checkScore (field : String) (x : Single) : Outcome Unit :=
  if (Binary.ofNat 0 : Single).atMost x && x.atMost (Binary.ofNat 1) then .ok ()
  else .error (outOfBounds field x.plainText "must be between 0.0 and 1.0")

/-- A count is at least one. -/
def checkCount (field : String) (n : Nat) : Outcome Unit :=
  if n = 0 then .error (outOfBounds field (integerText n) "must be at least 1") else .ok ()

/-- A time is not zero. -/
def checkTime (field : String) (n : Nat) : Outcome Unit :=
  if n = 0 then .error (outOfBounds field (integerText n) "must be greater than 0") else .ok ()

/-- Settings within their bounds. -/
def validate (e : Engine) : Outcome Unit := do
  checkScore "acceptance_threshold" e.acceptanceThreshold
  checkScore "min_candidate_score" e.minCandidateScore
  if !((Binary.ofNat 0 : Single).atMost e.tieEpsilon && e.tieEpsilon.less (Binary.ofRatio 1 2)) then
    throw (outOfBounds "tie_epsilon" e.tieEpsilon.plainText "must be non-negative and below 0.5")
  checkCount "top_k" e.topK
  checkCount "worker_pool_size" e.workerPoolSize
  checkTime "catalog_timeout_ms" e.catalogTimeout
  checkTime "analysis_timeout_ms" e.analysisTimeout

/-! ### Environment -/

/-- A word of 64 bits in the environment. -/
def word? : String → Option Nat :=
  Setting.natural? 0x10000000000000000

/-- Settings with what the environment says. -/
def withEnvironment (e : Engine) (env : Environment) : Engine :=
  { e with
    acceptanceThreshold := Setting.override env "BRONZELINE_ACCEPTANCE_THRESHOLD"
      (Setting.binary? single) e.acceptanceThreshold
    tieEpsilon := Setting.override env "BRONZELINE_TIE_EPSILON"
      (Setting.binary? single) e.tieEpsilon
    topK := Setting.override env "BRONZELINE_TOP_K" word? e.topK
    workerPoolSize := Setting.override env "BRONZELINE_WORKER_POOL_SIZE" word? e.workerPoolSize
    catalogTimeout := Setting.override env "BRONZELINE_CATALOG_TIMEOUT_MS" word? e.catalogTimeout
    analysisTimeout :=
      Setting.override env "BRONZELINE_ANALYSIS_TIMEOUT_MS" word? e.analysisTimeout }

/-! ### Data -/

/-- Read settings from data; what is left out keeps its default. -/
def read : Json.Reader Engine := fun v => do
  let found ← Json.fields true
    [Json.may "acceptance_threshold" Json.readSingle, Json.may "tie_epsilon" Json.readSingle,
     Json.may "top_k" Json.readWord, Json.may "min_candidate_score" Json.readSingle,
     Json.may "worker_pool_size" Json.readWord, Json.may "catalog_timeout_ms" Json.readWord,
     Json.may "analysis_timeout_ms" Json.readWord,
     Json.may "in_flight_policy" (Named.read (α := InFlightPolicy)),
     Json.may "verify_confirmed_tables" Json.readBool] v
  let d := standard
  return {
    acceptanceThreshold :=
      ← found.orDefault "acceptance_threshold" Json.readSingle d.acceptanceThreshold
    tieEpsilon := ← found.orDefault "tie_epsilon" Json.readSingle d.tieEpsilon
    topK := ← found.orDefault "top_k" Json.readWord d.topK
    minCandidateScore :=
      ← found.orDefault "min_candidate_score" Json.readSingle d.minCandidateScore
    workerPoolSize := ← found.orDefault "worker_pool_size" Json.readWord d.workerPoolSize
    catalogTimeout := ← found.orDefault "catalog_timeout_ms" Json.readWord d.catalogTimeout
    analysisTimeout := ← found.orDefault "analysis_timeout_ms" Json.readWord d.analysisTimeout
    inFlightPolicy := ← found.orDefault "in_flight_policy" Named.read d.inFlightPolicy
    verifyConfirmedTables :=
      ← found.orDefault "verify_confirmed_tables" Json.readBool d.verifyConfirmedTables }

/-- The data of settings. -/
def toJson (e : Engine) : Json :=
  Json.obj [("acceptance_threshold", Json.single e.acceptanceThreshold),
    ("tie_epsilon", Json.single e.tieEpsilon), ("top_k", Json.nat e.topK),
    ("min_candidate_score", Json.single e.minCandidateScore),
    ("worker_pool_size", Json.nat e.workerPoolSize),
    ("catalog_timeout_ms", Json.nat e.catalogTimeout),
    ("analysis_timeout_ms", Json.nat e.analysisTimeout),
    ("in_flight_policy", Named.toJson e.inFlightPolicy),
    ("verify_confirmed_tables", .bool e.verifyConfirmedTables)]

end Engine

end TierLineage
