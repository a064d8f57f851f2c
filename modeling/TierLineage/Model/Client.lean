import TierLineage.Model.Address
import TierLineage.Model.Pacing
import TierLineage.Analyst.Settings
import TierLineage.Failure

/-!
# Clients of model providers

How a provider is addressed: one takes the name of the model in the request and a bearer token, the
other has a deployment in the address and the key in a header of its own.
-/

namespace TierLineage.Model

open TierLineage.Text TierLineage.Number

/-- Where the model is. -/
inductive Target where
  /-- A service that is told the model in each request. -/
  | service (base : String)
  /-- A deployment of one model. -/
  | deployment (endpoint name version : String)
  deriving Repr, DecidableEq

/-- A client of a provider. -/
structure Client where
  key : String
  target : Target
  /-- How many requests may be under way at a time. -/
  permits : Nat
  pacer : Pacer
  deriving Repr, DecidableEq

namespace Client

/-- The service that is asked where no other is named. -/
def standardBase : String := "https://api.openai.com/v1"

/-- A text without slashes at its end. -/
def withoutSlashes (s : String) : String :=
  String.ofList (s.toList.reverse.dropWhile (· == '/')).reverse

/-- A client of the standard service. -/
def ofKey (key : String) (requestsPerMinute : Nat) : Client :=
  ⟨key, .service standardBase, max requestsPerMinute 1, Pacer.ofRate requestsPerMinute⟩

/-- A client of a deployment. -/
def ofDeployment (key endpoint name version : String) (requestsPerMinute : Nat) : Client :=
  ⟨key, .deployment (withoutSlashes endpoint) name version, max requestsPerMinute 1,
    Pacer.ofRate requestsPerMinute⟩

/-- The client with another service; a deployment stays where it is. -/
def withBase (c : Client) (base : String) : Client :=
  match c.target with
  | .service _ => { c with target := .service (withoutSlashes base) }
  | .deployment _ _ _ => c

/-- The client of settings, whose key stands in the environment; none if no provider is chosen. -/
def ofSettings (s : AnalystSettings) (env : Environment) : Outcome (Option Client) := do
  let missing (field : String) : Failure := .config (.missing field)
  let key : Outcome String :=
    match env.lookup s.keyName with
    | some k => .ok k
    | none => .error (missing s.keyName)
  match s.provider with
  | .disabled => return none
  | .openai =>
    let c := ofKey (← key) s.requestsPerMinute
    return some (match s.endpoint with
      | some base => c.withBase base
      | none => c)
  | .azure =>
    let k ← key
    match s.endpoint with
    | some endpoint =>
      return some (ofDeployment k endpoint s.model s.apiVersion s.requestsPerMinute)
    | none => throw (missing "analyzer.endpoint")

/-- The client after a request that was made at a moment. -/
def mark (c : Client) (made : Nat) : Client :=
  { c with pacer := c.pacer.mark made }

/-- The provider of a client. -/
def provider (c : Client) : Provider :=
  match c.target with
  | .service _ => .openai
  | .deployment _ _ _ => .azure

/-- The name of the provider. -/
def providerName (c : Client) : String :=
  Named.name c.provider

/-- Whether requests name the model. -/
def namesModel (c : Client) : Bool :=
  match c.target with
  | .service _ => true
  | .deployment _ _ _ => false

/-- The address of an operation. -/
def address (c : Client) (operation : String) : String :=
  match c.target with
  | .service base => base ++ "/" ++ operation
  | .deployment endpoint name version =>
    endpoint ++ "/openai/deployments/" ++ name ++ "/" ++ operation ++ "?api-version=" ++ version

/-! ### Logs -/

/-- A character of a quoted text in a log. -/
def loggedChar (c : Char) : List Char :=
  if c = '"' then ['\\', '"']
  else if c = '\\' then ['\\', '\\']
  else if c = '\n' then ['\\', 'n']
  else if c = '\r' then ['\\', 'r']
  else if c = '\t' then ['\\', 't']
  else if c = '\x00' then ['\\', '0']
  else if c.toNat < 0x20 ∨ (0x7F ≤ c.toNat ∧ c.toNat < 0xA0) ∨ (isBlank c ∧ c ≠ ' ') then
    ['\\', 'u', '\x7b'] ++ Nat.toDigits 16 c.toNat ++ ['\x7d']
  else [c]

/-- A quoted text in a log. -/
def logged (s : String) : String :=
  String.ofList ('"' :: (s.toList.flatMap loggedChar ++ ['"']))

/-- Where the model is, as a text for logs. -/
def targetText : Target → String
  | .service base => "OpenAI \x7b base_url: " ++ logged base ++ " \x7d"
  | .deployment endpoint name version =>
    "Azure \x7b endpoint: " ++ logged endpoint ++ ", deployment: " ++ logged name ++
      ", api_version: " ++ logged version ++ " \x7d"

/-- The client as a text for logs, which does not tell the key. -/
def logText (c : Client) : String :=
  "OpenAIClient \x7b target: " ++ targetText c.target ++ ", api_key: " ++ logged "[REDACTED]" ++
    " \x7d"

end Client

end TierLineage.Model
