import TierLineage.Named
import TierLineage.Config.Setting
import TierLineage.Answer.Analysis

/-!
# Analyst settings

Which model answers questions about procedures, and how it is reached.  The key itself is not a
setting: it stands in the environment, under a name that is a setting.
-/

namespace TierLineage

/-- Who offers the model. -/
inductive Provider where
  | disabled
  | openai
  | azure
  deriving Repr, DecidableEq, Inhabited

instance : Named Provider where
  title := "analysis provider"
  all := [.disabled, .openai, .azure]
  name
    | .disabled => "disabled"
    | .openai => "openai"
    | .azure => "azure_openai"

/-- The settings of the analyst. -/
structure AnalystSettings where
  provider : Provider
  /-- The name of the model or of its deployment. -/
  model : String
  /-- The name of the key in the environment. -/
  keyName : String
  endpoint : Option String
  apiVersion : String
  requestsPerMinute : Nat
  maxTokens : Int
  fallbackSummary : String
  deriving Repr, DecidableEq

namespace AnalystSettings

/-- The settings where nothing else is said. -/
def standard : AnalystSettings where
  provider := .disabled
  model := "model-router"
  keyName := "AZURE_OPENAI_API_KEY"
  endpoint := none
  apiVersion := "2024-12-01-preview"
  requestsPerMinute := 60
  maxTokens := 2000
  fallbackSummary := Answer.standardFallback

instance : Inhabited AnalystSettings := ⟨standard⟩

/-- Settings with what the environment says. -/
def withEnvironment (s : AnalystSettings) (env : Environment) : AnalystSettings :=
  { s with
    endpoint := (env.lookup "AZURE_OPENAI_ENDPOINT").or s.endpoint
    model := (env.lookup "AZURE_OPENAI_DEPLOYMENT").getD s.model
    apiVersion := (env.lookup "AZURE_OPENAI_API_VERSION").getD s.apiVersion }

/-- Read settings from data; what is left out keeps its default. -/
def read : Json.Reader AnalystSettings := fun v => do
  let rate := Json.readNat 0x100000000
  let found ← Json.fields true
    [Json.may "provider" (Named.read (α := Provider)), Json.may "model" Json.readText,
     Json.may "api_key_env" Json.readText, Json.may "endpoint" (Json.readOption Json.readText),
     Json.may "api_version" Json.readText, Json.may "requests_per_minute" rate,
     Json.may "max_tokens" (Json.readInt 31), Json.may "fallback_summary" Json.readText] v
  let d := standard
  return {
    provider := ← found.orDefault "provider" Named.read d.provider
    model := ← found.orDefault "model" Json.readText d.model
    keyName := ← found.orDefault "api_key_env" Json.readText d.keyName
    endpoint := ← found.option "endpoint" Json.readText
    apiVersion := ← found.orDefault "api_version" Json.readText d.apiVersion
    requestsPerMinute := ← found.orDefault "requests_per_minute" rate d.requestsPerMinute
    maxTokens := ← found.orDefault "max_tokens" (Json.readInt 31) d.maxTokens
    fallbackSummary := ← found.orDefault "fallback_summary" Json.readText d.fallbackSummary }

/-- The data of settings. -/
def toJson (s : AnalystSettings) : Json :=
  Json.obj [("provider", Named.toJson s.provider), ("model", Json.str s.model),
    ("api_key_env", Json.str s.keyName), ("endpoint", Json.opt Json.str s.endpoint),
    ("api_version", Json.str s.apiVersion),
    ("requests_per_minute", Json.nat s.requestsPerMinute), ("max_tokens", Json.int s.maxTokens),
    ("fallback_summary", Json.str s.fallbackSummary)]

end AnalystSettings

end TierLineage
