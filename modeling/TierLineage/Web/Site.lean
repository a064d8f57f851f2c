import TierLineage.Web.Task

/-!
# The site

The service as it is reached by requests.  Pages from elsewhere may use it: every response says from
which origin, and asking for the options of a path is always answered with what is allowed.
-/

namespace TierLineage.Web

/-- The service, and the origins whose pages may use it; if there are none, all may. -/
structure Site where
  world : World
  origins : List String

namespace Site

/-! ### Other origins -/

/-- The origin that may use the service, of those that a request comes from. -/
def allowedOrigin? (s : Site) (r : Request) : Option String :=
  if s.origins.isEmpty then some "*"
  else (r.header? "origin").filter s.origins.contains

/-- A response that says which origin may use it. -/
def shared (s : Site) (r : Request) (response : Response) : Response :=
  match s.allowedOrigin? r with
  | some o => response.withHeader "access-control-allow-origin" o
  | none => response

/-- What is allowed at a path. -/
def options (r : Request) : Response :=
  let response := ((Response.bare 200).withHeader "access-control-allow-methods"
    "GET,POST,DELETE,OPTIONS").withHeader "access-control-allow-headers" "content-type,accept"
  match Route.find? r.path with
  | some (route, _) => response.withHeader "allow" route.allowed
  | none => response

/-! ### Responding -/

/-- The response to the reply of a command. -/
def ofReply (present : Json → Response) : Reply → Response
  | .value v => present v
  | .failure f => .failure f
  | _ => .bare 500

/-- Do what is to be done for a request. -/
def perform (w : World) : Task → Response × World
  | .respond r => (r, w)
  | .tell look => (look w, w)
  | .run c present =>
    let (reply, w) := c.run w
    (ofReply present reply, w)

/-- Respond to a request. -/
def respond (s : Site) (r : Request) : Response × Site :=
  match r.method with
  | .options => (s.shared r (options r), s)
  | m =>
    let (response, w) := perform s.world (Task.ofRequest r)
    let response := if m = .head then response.headOnly else response
    (s.shared r response, { s with world := w })

end Site

end TierLineage.Web
