import TierLineage.Web.Problem
import TierLineage.Text.Ascii
import TierLineage.Text.Utf8

/-!
# Requests and responses

What goes in and out of the service: a request with a method, an address, headers and a body, and a
response with a status, headers and a body.
-/

namespace TierLineage.Web

open TierLineage.Text

/-- Request methods. -/
inductive Method where
  | get
  | head
  | post
  | delete
  | options
  | other (name : String)
  deriving Repr, DecidableEq

namespace Method

/-- The method of a name. -/
def ofName : String → Method
  | "GET" => get
  | "HEAD" => head
  | "POST" => post
  | "DELETE" => delete
  | "OPTIONS" => options
  | n => other n

/-- The name of a method. -/
def name : Method → String
  | get => "GET"
  | head => "HEAD"
  | post => "POST"
  | delete => "DELETE"
  | options => "OPTIONS"
  | other n => n

end Method

/-- A request; its body is given by octets. -/
structure Request where
  method : Method
  path : List Char
  query : List Char
  headers : List (String × String)
  body : List Nat
  deriving Repr

namespace Request

/-- A request to an address, whose query follows the first question mark and whose fragment does
not count, with a text as its body. -/
def ofAddress (method : Method) (address : String) (headers : List (String × String))
    (body : String) : Request :=
  let cs := address.toList.takeWhile (· != '#')
  ⟨method, cs.takeWhile (· != '?'), (cs.dropWhile (· != '?')).drop 1, headers, octets body.toList⟩

/-- The value of a header; letter case does not count in its name. -/
def header? (r : Request) (name : String) : Option String :=
  (r.headers.find? fun h => sameStringIgnoringCase h.1 name).map Prod.snd

/-- The number of octets of the body. -/
def bodySize (r : Request) : Nat :=
  r.body.length

end Request

/-- What a response holds. -/
inductive Body where
  | empty
  | text (s : String)
  | json (v : Json)

/-- A response; the headers are those beside the type of the content. -/
structure Response where
  status : Nat
  contentType : Option String
  headers : List (String × String)
  body : Body

namespace Response

/-- A response without content. -/
def bare (status : Nat) : Response :=
  ⟨status, none, [], .empty⟩

/-- A response with a text. -/
def text (status : Nat) (s : String) : Response :=
  ⟨status, some "text/plain; charset=utf-8", [], .text s⟩

/-- A response with data. -/
def json (status : Nat) (v : Json) : Response :=
  ⟨status, some "application/json", [], .json v⟩

/-- The response to a problem. -/
def problem (p : Problem) : Response :=
  json p.status p.toJson

/-- The response to a failure. -/
def failure (f : Failure) : Response :=
  problem (.ofFailure f)

/-- A response with one more header. -/
def withHeader (r : Response) (name value : String) : Response :=
  { r with headers := r.headers ++ [(name, value)] }

/-- A response without its content, as it is given to those who ask for the head only. -/
def headOnly (r : Response) : Response :=
  { r with body := .empty }

end Response

end TierLineage.Web
