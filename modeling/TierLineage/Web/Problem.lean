import TierLineage.Failure

/-!
# Problems

How a failure is told to a client: a code that belongs to a response status, a message and perhaps
details.  Failures of the service say in the details whether the same request may succeed later.
-/

namespace TierLineage

/-- The codes of problems. -/
inductive ProblemCode where
  | invalidInput
  | missingField
  | unknownAlias
  | entityNotFound
  | mappingConflict
  | analysisInFlight
  | internalError
  | serviceUnavailable
  deriving Repr, DecidableEq, Inhabited

namespace ProblemCode

instance : Named ProblemCode where
  title := "problem code"
  all := [invalidInput, missingField, unknownAlias, entityNotFound, mappingConflict,
    analysisInFlight, internalError, serviceUnavailable]
  name
    | invalidInput => "INVALID_INPUT"
    | missingField => "MISSING_FIELD"
    | unknownAlias => "UNKNOWN_ALIAS"
    | entityNotFound => "ENTITY_NOT_FOUND"
    | mappingConflict => "MAPPING_CONFLICT"
    | analysisInFlight => "ANALYSIS_IN_FLIGHT"
    | internalError => "INTERNAL_ERROR"
    | serviceUnavailable => "SERVICE_UNAVAILABLE"

/-- The response status of a code. -/
def status : ProblemCode → Nat
  | invalidInput => 400
  | missingField => 400
  | unknownAlias => 400
  | entityNotFound => 404
  | mappingConflict => 409
  | analysisInFlight => 409
  | internalError => 500
  | serviceUnavailable => 503

/-- The heading of a code in a text. -/
def heading : ProblemCode → String
  | invalidInput => "InvalidInput"
  | missingField => "MissingField"
  | unknownAlias => "UnknownAlias"
  | entityNotFound => "EntityNotFound"
  | mappingConflict => "MappingConflict"
  | analysisInFlight => "AnalysisInFlight"
  | internalError => "InternalError"
  | serviceUnavailable => "ServiceUnavailable"

/-- The message of a code where nothing more is known. -/
def standardMessage : ProblemCode → String
  | invalidInput => "Invalid input"
  | missingField => "Required field is missing"
  | unknownAlias => "Unknown connection alias"
  | entityNotFound => "Entity not found"
  | mappingConflict => "Mapping already confirmed"
  | analysisInFlight => "Analysis already in progress"
  | internalError => "Internal server error"
  | serviceUnavailable => "Service temporarily unavailable"

/-- The code of a failure. -/
def ofFailure : Failure → ProblemCode
  | .refused (.unknownAlias _) => unknownAlias
  | .refused (.missing _) => missingField
  | .conflict (.inFlight _) => analysisInFlight
  | f =>
    match f.kind with
    | .invalidInput => invalidInput
    | .notFound => entityNotFound
    | .conflict => mappingConflict
    | .collaboratorUnavailable => serviceUnavailable
    | .internal => internalError

end ProblemCode

/-- What a client is told about a failure. -/
structure Problem where
  code : ProblemCode
  message : String
  details : Option Json

namespace Problem

/-- A problem with the message of its code. -/
def ofCode (c : ProblemCode) : Problem :=
  ⟨c, c.standardMessage, none⟩

/-- An input that cannot be used. -/
def invalidInput (message : String) : Problem :=
  ⟨.invalidInput, message, none⟩

/-- A field that is not given. -/
def missingField (field : String) : Problem :=
  ⟨.missingField, "Required field '" ++ field ++ "' is missing", none⟩

/-- Something that does not exist. -/
def notFound (message : String) : Problem :=
  ⟨.entityNotFound, message, none⟩

/-- Something that the client cannot help. -/
def internalError (message : String) : Problem :=
  ⟨.internalError, message, none⟩

/-- A text that is not data. -/
def invalidData (reason : String) : Problem :=
  invalidInput ("Invalid JSON: " ++ reason)

/-- The problem of a failure. -/
def ofFailure (f : Failure) : Problem :=
  ⟨.ofFailure f, f.message, some (Json.obj [("retryable", .bool f.retryable)])⟩

/-- A problem with details. -/
def withDetails (p : Problem) (details : Json) : Problem :=
  { p with details := some details }

/-- The response status. -/
def status (p : Problem) : Nat :=
  p.code.status

/-- Whether the details say that the same request may succeed later. -/
def retryable (p : Problem) : Bool :=
  match p.details.bind (·.get? "retryable") with
  | some (.bool b) => b
  | _ => false

/-- The text of a problem. -/
def text (p : Problem) : String :=
  p.code.heading ++ ": " ++ p.message

/-- The data of a problem. -/
def toJson (p : Problem) : Json :=
  Json.obj ([("code", Named.toJson p.code), ("message", Json.str p.message)] ++
    match p.details with
    | some d => [("details", d)]
    | none => [])

end Problem

end TierLineage
