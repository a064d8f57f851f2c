import TierLineage.Model.Client
import TierLineage.Analyst.Prompt
import TierLineage.Analyst.Usage
import TierLineage.Config.Setting
import TierLineage.Text.Gaps

/-!
# Exchanges with a model

A question is sent to the provider as a conversation of two messages.  What comes back is nothing,
an error, or a completion, whose first choice holds the answer.  Every completion that can be read
counts as a request, with the tokens it reports; an answer without a readable payload counts as a
fallback too.
-/

namespace TierLineage.Model

open TierLineage.Text TierLineage.Number

/-- A model with the settings of its use. -/
structure Speaker where
  client : Client
  model : String
  maxTokens : Int
  fallbackSummary : String
  deriving Repr, DecidableEq

/-- The model of settings, if a provider is chosen. -/
def Speaker.ofSettings (s : AnalystSettings) (env : Environment) : Outcome (Option Speaker) :=
  (Client.ofSettings s env).map fun c =>
    c.map fun c => ⟨c, s.model, s.maxTokens, s.fallbackSummary⟩

/-! ### Questions -/

/-- A request to a provider. -/
structure Question where
  address : Address
  authorization : Option String
  key : Option String
  contentType : String
  body : Json

/-- A message of a conversation. -/
def messageJson (role content : String) : Json :=
  Json.obj [("role", Json.str role), ("content", Json.str content)]

/-- The body of a question. -/
def Speaker.bodyOf (s : Speaker) (r : AnalysisRequest) : Json :=
  Json.obj ((if s.client.namesModel then [("model", Json.str s.model)] else []) ++
    [("messages", Json.arr [messageJson "system" Analyst.systemPrompt,
        messageJson "user" (Analyst.prompt r)]),
     ("max_tokens", Json.int s.maxTokens), ("temperature", Json.single (Binary.ofNat 0))])

/-- Whether a text may stand in a header. -/
def isHeaderText (s : String) : Bool :=
  s.toList.all fun c => c == '\t' || (decide (0x20 ≤ c.toNat) && c.toNat != 0x7F)

/-- A request that failed before or after it was sent. -/
def Speaker.failed (s : Speaker) (status : Nat) (message : String) : Failure :=
  .analysis (.requestFailed s.client.providerName status message)

/-- A request that was not sent. -/
def Speaker.unsent (s : Speaker) (reason : String) : Failure :=
  s.failed 0 ("HTTP request failed: " ++ reason)

/-- The question about a procedure, if it can be put together. -/
def Speaker.question (s : Speaker) (r : AnalysisRequest) : Outcome Question :=
  let text := s.client.address "chat/completions"
  match Address.parse? text with
  | none => .error (s.unsent "builder error")
  | some a =>
    if !isHeaderText s.client.key then .error (s.unsent "builder error")
    else if !Address.isWebScheme a.scheme then
      .error (s.unsent ("builder error for url (" ++ a.text ++ ")"))
    else
      let named := s.client.namesModel
      .ok {
        address := a
        authorization := if named then some ("Bearer " ++ s.client.key) else none
        key := if named then none else some s.client.key
        contentType := "application/json"
        body := s.bodyOf r }

/-! ### What comes back -/

/-- The octets of what is sent back, which need not form characters. -/
structure Payload where
  octets : List Nat
  deriving Repr, DecidableEq

namespace Payload

/-- No octets. -/
def empty : Payload := ⟨[]⟩

/-- The octets of a text. -/
def ofText (s : String) : Payload := ⟨Text.octets s.toList⟩

instance : Coe String Payload := ⟨ofText⟩

/-- The text of octets, with the replacement character in place of gaps. -/
def text (p : Payload) : String := String.ofList (decodeLossy p.octets)

/-- Read octets as data. -/
def decode {α : Type} (read : Json.Reader α) (p : Payload) : Except Json.Fault α :=
  Json.decode read (dataText p.octets)

end Payload

/-- What a provider sends back; it is incomplete if the connection breaks off. -/
structure Received where
  status : Nat
  headers : List (String × String)
  body : Payload
  complete : Bool
  deriving Repr, DecidableEq

/-- The tokens that a completion reports. -/
structure TokenCount where
  prompt : Int
  completion : Option Int
  deriving Repr, DecidableEq

/-- A completion: the contents of its choices, and the tokens it reports. -/
structure Completion where
  contents : List (Option String)
  tokens : Option TokenCount
  deriving Repr, DecidableEq

/-- Read the content of a message. -/
def readMessage : Json.Reader (Option String) := fun v => do
  let found ← Json.fields false
    [Json.needs "role" Json.readText, Json.may "content" (Json.readOption Json.readText)] v
  found.option "content" Json.readText

/-- Read the content of a choice. -/
def readChoice : Json.Reader (Option String) := fun v => do
  let found ← Json.fields false
    [Json.needs "message" readMessage, Json.may "finish_reason" (Json.readOption Json.readText)] v
  found.need "message" readMessage

/-- Read reported tokens. -/
def TokenCount.read : Json.Reader TokenCount := fun v => do
  let word := Json.readInt 63
  let found ← Json.fields false
    [Json.needs "prompt_tokens" word, Json.may "completion_tokens" (Json.readOption word),
     Json.needs "total_tokens" word] v
  return ⟨← found.need "prompt_tokens" word, ← found.option "completion_tokens" word⟩

/-- Read a completion. -/
def Completion.read : Json.Reader Completion := fun v => do
  let found ← Json.fields false
    [Json.needs "choices" (Json.readList readChoice),
     Json.may "usage" (Json.readOption TokenCount.read)] v
  return ⟨← found.need "choices" (Json.readList readChoice),
    ← found.option "usage" TokenCount.read⟩

/-- Read the message of an error. -/
def readErrorMessage : Json.Reader String := fun v => do
  let text := Json.readOption Json.readText
  let readDetail : Json.Reader String := fun v => do
    let found ← Json.fields false
      [Json.needs "message" Json.readText, Json.may "type" text, Json.may "code" text] v
    found.need "message" Json.readText
  let found ← Json.fields false [Json.needs "error" readDetail] v
  found.need "error" readDetail

/-- A number of seconds as whole milliseconds in a word of 64 bits with a sign. -/
def milliseconds (seconds : Double) : Int :=
  match seconds.mul (Binary.ofNat 1000) with
  | .finite s u =>
    max (-0x8000000000000000)
      (min 0x7FFFFFFFFFFFFFFF (Binary.signed s (u / Nat.pow 2 double.scale)))
  | .infinite s => if s then -0x8000000000000000 else 0x7FFFFFFFFFFFFFFF
  | .nan => 0

namespace Received

/-- Whether the request succeeded. -/
def succeeded (r : Received) : Bool :=
  decide (200 ≤ r.status) && decide (r.status < 300)

/-- Some responses have no content whatever follows them. -/
def content (r : Received) : Payload :=
  if r.status = 204 ∨ r.status = 304 then .empty else r.body

/-- After how many milliseconds the request may be made again. -/
def retryAfter (r : Received) : Int :=
  let header := (r.headers.find? fun h => sameStringIgnoringCase h.1 "retry-after").map Prod.snd
  let blank (c : Char) : Bool := c == ' ' || c == '\t'
  let seconds := header.bind fun h =>
    Setting.binary? double (String.ofList (trimBy blank h.toList))
  match seconds with
  | some x => milliseconds x
  | none => 0

/-- The message of a failed request. -/
def errorMessage (r : Received) : String :=
  let text := if r.complete then r.content.text else "Unknown error"
  match Json.decode readErrorMessage text with
  | .ok message => message
  | .error _ => text

end Received

/-! ### Conclusions -/

/-- A response that does not hold what it should. -/
def Speaker.unreadable (s : Speaker) (reason : String) : Failure :=
  .analysis (.badResponse s.client.providerName reason)

/-- The completion that was received. -/
def Speaker.completion (s : Speaker) (q : Question) : Option Received → Outcome Completion
  | none => .error (s.unsent ("error sending request for url (" ++ q.address.text ++ ")"))
  | some r =>
    if r.succeeded then
      match r.complete, r.content.decode Completion.read with
      | true, .ok c => .ok c
      | true, .error _ => .error (s.unreadable "Failed to parse response: not a completion")
      | false, _ => .error (s.unreadable "Failed to parse response: the body breaks off")
    else if r.status = 429 then
      .error (.analysis (.rateLimited s.client.providerName r.retryAfter))
    else .error (s.failed r.status r.errorMessage)

/-- The counters after a completion. -/
def Completion.count (c : Completion) (u : Usage) : Usage :=
  let u := u.countRequest
  match c.tokens with
  | some t => u.countTokens t.prompt (t.completion.getD 0)
  | none => u

/-- The analysis of a completion. -/
def Speaker.conclude (s : Speaker) (r : AnalysisRequest) (c : Completion) (u : Usage) :
    Outcome Analysis × Usage :=
  let u := c.count u
  match c.contents.head?.join with
  | none => (.error (s.unreadable "No completion in response"), u)
  | some raw =>
    let a := Answer.analyze raw r.identity.connection s.fallbackSummary
    (.ok a, if a.fallback then u.countFallback else u)

/-- Ask about a procedure; `exchange` tells what the provider sends back to a question. -/
def Speaker.ask (s : Speaker) (exchange : Question → Option Received) (r : AnalysisRequest)
    (u : Usage) : Outcome Analysis × Usage :=
  match s.question r with
  | .error f => (.error f, u)
  | .ok q =>
    match s.completion q (exchange q) with
    | .error f => (.error f, u)
    | .ok c => s.conclude r c u

end TierLineage.Model
