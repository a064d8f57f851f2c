import TierLineage.Tier

/-!
# Failures

What can go wrong, by cause.  Each cause has one wording, belongs to one coarse kind, and says
whether the same request may succeed when it is made again.
-/

namespace TierLineage

open TierLineage.Number

/-! ### Causes -/

/-- An input that is refused before it has any effect. -/
inductive Refusal where
  | missing (field : String)
  | invalid (field reason : String)
  | unknownAlias (connection : String)
  | wrongTier (connection : String) (actual expected : Tier)
  deriving Repr, DecidableEq

/-- A catalog that does not answer, or does not know what is asked for. -/
inductive CatalogFault where
  | unreachable (connection reason : String)
  | notFound (connection object : String)
  | timedOut (connection operation : String) (elapsed : Nat)
  deriving Repr, DecidableEq

/-- An analysis that was not made. -/
inductive AnalysisFault where
  | noProvider
  | requestFailed (provider : String) (status : Int) (message : String)
  | rateLimited (provider : String) (retryAfter : Int)
  | badResponse (provider reason : String)
  | timedOut (procedure : String) (limit : Nat)
  deriving Repr, DecidableEq

/-- A store that could not be read or written. -/
inductive StorageFault where
  | transaction (reason : String)
  | serialization (reason : String)
  | poisoned
  deriving Repr, DecidableEq

/-- A request that clashes with what others did. -/
inductive Conflict where
  | alreadyConfirmed (hop : Hop) (source target : String)
  | inFlight (identity : String)
  deriving Repr, DecidableEq

/-- A configuration that cannot be used. -/
inductive ConfigFault where
  | missing (field : String)
  | invalid (field value reason : String)
  | unreadable (path reason : String)
  | unparsable (path reason : String)
  deriving Repr, DecidableEq

/-- Anything that can go wrong. -/
inductive Failure where
  | refused (cause : Refusal)
  | catalog (cause : CatalogFault)
  | analysis (cause : AnalysisFault)
  | storage (cause : StorageFault)
  | conflict (cause : Conflict)
  | config (cause : ConfigFault)
  deriving Repr, DecidableEq

/-- A result or a failure. -/
abbrev Outcome (α : Type) := Except Failure α

/-! ### Wording -/

/-- The wording of a refusal. -/
def Refusal.message : Refusal → String
  | missing field => "Required field missing: " ++ field
  | invalid field reason => "Invalid value for " ++ field ++ ": " ++ reason
  | unknownAlias connection => "Unknown connection alias: " ++ connection
  | wrongTier connection actual expected =>
    "Connection " ++ connection ++ " is a " ++ actual.name ++ " connection, expected " ++
      expected.name

/-- The wording of a catalog fault. -/
def CatalogFault.message : CatalogFault → String
  | unreachable connection reason => "Connection " ++ connection ++ " unavailable: " ++ reason
  | notFound connection object => "Not found on " ++ connection ++ ": " ++ object
  | timedOut connection operation elapsed =>
    "Catalog call " ++ operation ++ " on " ++ connection ++ " timed out after " ++
      integerText elapsed ++ "ms"

/-- The wording of an analysis fault. -/
def AnalysisFault.message : AnalysisFault → String
  | noProvider => "No analysis provider configured"
  | requestFailed provider status message =>
    "Request to " ++ provider ++ " failed with status " ++ integerText status ++ ": " ++ message
  | rateLimited provider retryAfter =>
    "Rate limited by " ++ provider ++ ", retry after " ++ integerText retryAfter ++ "ms"
  | badResponse provider reason => "Invalid response from " ++ provider ++ ": " ++ reason
  | timedOut procedure limit =>
    "Analysis of " ++ procedure ++ " timed out after " ++ integerText limit ++ "ms"

/-- The wording of a storage fault. -/
def StorageFault.message : StorageFault → String
  | transaction reason => "Transaction failed: " ++ reason
  | serialization reason => "Serialization failed: " ++ reason
  | poisoned => "Storage lock poisoned"

/-- The wording of a conflict. -/
def Conflict.message : Conflict → String
  | alreadyConfirmed hop source target =>
    hop.name ++ " mapping for " ++ source ++ " already confirmed to " ++ target
  | inFlight identity => "Analysis already in flight for " ++ identity

/-- The wording of a configuration fault. -/
def ConfigFault.message : ConfigFault → String
  | missing field => "Missing required field: " ++ field
  | invalid field value reason => "Invalid value for " ++ field ++ ": " ++ value ++ " - " ++ reason
  | unreadable path reason => "Failed to read " ++ path ++ ": " ++ reason
  | unparsable path reason => "Failed to parse " ++ path ++ ": " ++ reason

/-- The wording of a failure. -/
def Failure.message : Failure → String
  | refused c => "Validation error: " ++ c.message
  | catalog c => "Catalog error: " ++ c.message
  | analysis c => "Analysis error: " ++ c.message
  | storage c => "Storage error: " ++ c.message
  | conflict c => "Conflict: " ++ c.message
  | config c => "Config error: " ++ c.message

/-! ### Classification -/

/-- The coarse kinds of failures. -/
inductive FailureKind where
  | invalidInput
  | notFound
  | conflict
  | collaboratorUnavailable
  | internal
  deriving Repr, DecidableEq

/-- The response status of a kind. -/
def FailureKind.status : FailureKind → Nat
  | invalidInput => 400
  | notFound => 404
  | conflict => 409
  | collaboratorUnavailable => 503
  | internal => 500

namespace Failure

/-- The kind of a failure. -/
def kind : Failure → FailureKind
  | refused _ => .invalidInput
  | catalog (.notFound _ _) => .notFound
  | catalog _ => .collaboratorUnavailable
  | analysis (.badResponse _ _) => .internal
  | analysis _ => .collaboratorUnavailable
  | storage _ => .internal
  | conflict _ => .conflict
  | config _ => .invalidInput

/-- Whether the same request may succeed when it is made again. -/
def retryable : Failure → Bool
  | conflict (.inFlight _) => true
  | analysis .noProvider => false
  | f => f.kind == .collaboratorUnavailable

/-- The response status of a failure. -/
def status (f : Failure) : Nat :=
  f.kind.status

end Failure

/-- The failure of one part of a larger piece of work. -/
structure PartFailure where
  target : String
  status : Nat
  retryable : Bool
  message : String
  deriving Repr, DecidableEq

/-- The failure of a part, told from its cause. -/
def Failure.ofPart (f : Failure) (target : String) : PartFailure :=
  ⟨target, f.status, f.retryable, f.message⟩

/-- The data of the failure of a part. -/
def PartFailure.toJson (p : PartFailure) : Json :=
  Json.obj [("target", Json.str p.target), ("status", Json.nat p.status),
    ("retryable", .bool p.retryable), ("message", Json.str p.message)]

end TierLineage
