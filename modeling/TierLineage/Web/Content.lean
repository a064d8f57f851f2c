import TierLineage.Web.Message
import TierLineage.Web.MediaType
import TierLineage.Json.Reader
import TierLineage.Text.Blank
import TierLineage.Text.Gaps

/-!
# Data in requests

How the body of a request is read.  A body of data has to be announced by its media type, must not
be too large, and starts with a value of the type that is asked for.  Where the body only narrows the
request down, nothing but blanks leaves it as wide as it is.
-/

namespace TierLineage.Web

open TierLineage.Text

/-- The greatest number of octets of a body. -/
def bodyLimit : Nat := 2 * 1024 * 1024

/-- What is told of a body that is too large. -/
def tooLarge : String := "Failed to buffer the request body: length limit exceeded"

/-- What is told of a body whose media type is not that of data. -/
def notAnnounced : String := "Expected request with \x60Content-Type: application/json\x60"

/-- A body that cannot be used as data. -/
def badBody (reason : String) : Problem :=
  .invalidInput ("Invalid JSON body: " ++ reason)

/-- What is told of data with a fault. -/
def faultText : Json.Fault → String
  | .malformed => "Failed to parse the request body as JSON"
  | .mismatch => "Failed to deserialize the JSON body into the target type"

/-- Read data, whatever follows it. -/
def contentOf {α : Type} (read : Json.Reader α) (body : List Nat) : Except Problem α :=
  (Json.decodeFront read (dataText body)).mapError fun f => badBody (faultText f)

namespace Request

/-- Read the body as data. -/
def content {α : Type} (read : Json.Reader α) (r : Request) : Except Problem α :=
  if !(r.header? "content-type").any announcesJson then .error (badBody notAnnounced)
  else if bodyLimit < r.bodySize then .error (badBody tooLarge)
  else contentOf read r.body

/-! ### Narrowing -/

/-- The octets of the blanks of ASCII as they stand between words: all but the vertical tabulator. -/
def isSeparator (b : Nat) : Bool :=
  b == 0x20 || b == 0x09 || b == 0x0A || b == 0x0C || b == 0x0D

/-- Whether a header value, without the blanks in front of it, starts with the name of the media
type of data. -/
def startsAsJson (value : String) : Bool :=
  value.toList.all isVisible &&
    startsWith (trimStartBy isBlank value.toList) "application/json".toList

/-- Read the one field by which a request can be narrowed down to a schema. -/
def readSchema : Json.Reader (Option String) := fun v => do
  let found ← Json.fields true [Json.may "schema" (Json.readOption Json.readText)] v
  found.option "schema" Json.readText

/-- The schema to which the body narrows a request down, if it does. -/
def schema (r : Request) : Except Problem (Option String) :=
  if r.body.all isSeparator then .ok none
  else if !(r.header? "content-type").any startsAsJson then .error (.invalidInput notAnnounced)
  else contentOf readSchema r.body

end Request

end TierLineage.Web
