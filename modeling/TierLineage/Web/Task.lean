import TierLineage.Web.Content
import TierLineage.Web.Route
import TierLineage.Service.Command

/-!
# Tasks

What is to be done for a request.  The parameters of the path, the query and the body are read in
this order; the first one that cannot be read settles the response.  Otherwise there is something
to be told about the service, or a command to be run, whose value makes the response.
-/

namespace TierLineage.Web

open TierLineage.Text

/-- What is to be done for a request. -/
inductive Task where
  /-- Nothing. -/
  | respond (r : Response)
  /-- Tell something about the service. -/
  | tell (look : World → Response)
  /-- Run a command and show its value. -/
  | run (c : Command) (present : Json → Response)

/-! ### Showing values -/

/-- The value itself. -/
def plain (v : Json) : Response :=
  .json 200 v

/-- A list with its length. -/
def listing (name : String) : Json → Response
  | .list vs e => .json 200 (Json.obj [(name, .list vs e), ("total", Json.nat vs.length)])
  | v => plain v

/-- A confirmation, which may have created a mapping. -/
def confirmed (v : Json) : Response :=
  match v.get? "outcome" with
  | some (.text (some "created")) => .json 201 v
  | _ => plain v

/-- A value that may be missing. -/
def found (message : String) : Json → Response
  | .null => .problem (.notFound message)
  | v => plain v

/-- Whether there was something to delete. -/
def deleted (message : String) : Json → Response
  | .bool true => .bare 204
  | _ => .problem (.notFound message)

/-! ### The service itself -/

/-- The version of the service. -/
def version : String := "0.4.0"

/-- That the service runs. -/
def live : Json :=
  Json.obj [("status", Json.str "healthy"), ("message", Json.str "Process is alive")]

/-- Whether the service has something to work with. -/
def readiness (w : World) : Json :=
  let connections := w.registry.size
  let details := Json.obj [("connections", Json.nat connections), ("usage", w.usage.toJson),
    ("version", Json.str version), ("uptime_seconds", Json.nat (w.clock / 1000))]
  Json.obj (if connections = 0 then
      [("status", Json.str "degraded"), ("message", Json.str "No connections configured"),
       ("details", details)]
    else [("status", Json.str "healthy"), ("details", details)])

/-! ### Reading requests -/

/-- Something that was read, or the response instead. -/
abbrev Got (α : Type) := Except Response α

/-- Something that was read, or a problem instead. -/
def orProblem {α : Type} (x : Except Problem α) : Got α :=
  x.mapError .problem

/-- An alias. -/
def aliasOf (s : String) : Got Alias :=
  (Alias.parse s).mapError fun r => .failure (.refused r)

/-- A hop by the name that people write. -/
def hopOf (s : String) : Got Hop :=
  (Named.parse s).mapError fun u => .problem (.invalidInput u.message)

/-- A value of a query. -/
def orBadQuery {α : Type} (x : Except QueryFault α) : Got α :=
  x.mapError fun
    | .repeated n =>
      .text 400 ("Failed to deserialize query string: duplicate field \x60" ++ n ++ "\x60")
    | .missing n =>
      .text 400 ("Failed to deserialize query string: missing field \x60" ++ n ++ "\x60")

/-- The texts of the parameters of a path. -/
def parameters (segments : List (List Char)) : Got (List String) :=
  segments.mapM fun s =>
    match segmentText? s with
    | some t => .ok t
    | none => .error (.text 400 "Invalid URL: Invalid UTF-8")

/-- Read the aliases between which mappings are to be proposed. -/
def readEnds : Json.Reader (String × String) := fun v => do
  let found ← Json.fields false
    [Json.needs "from_alias" Json.readText, Json.needs "to_alias" Json.readText] v
  return (← found.need "from_alias" Json.readText, ← found.need "to_alias" Json.readText)

/-- Read the name and the text of a procedure. -/
def readDefinition : Json.Reader (String × String) := fun v => do
  let found ← Json.fields false
    [Json.needs "procedure_name" Json.readText, Json.needs "definition" Json.readText] v
  return (← found.need "procedure_name" Json.readText, ← found.need "definition" Json.readText)

/-! ### Tasks of actions -/

/-- The task of deleting a mapping, whose source table the query names. -/
def deletion (tier : String) (query : List Char) : Got Task := do
  let pairs := queryPairs query
  orBadQuery (givenOnce pairs ["alias", "table"])
  let connection ← orBadQuery (requiredValue pairs "alias")
  let table ← orBadQuery (requiredValue pairs "table")
  let hop ← hopOf tier
  let source := Table.ofQualified (← aliasOf connection) table
  return .run (.delete ⟨hop, source⟩)
    (deleted ("No " ++ hop.name ++ " mapping for " ++ source.display))

/-- The task of analyzing the text of a procedure. -/
def analysis (connection : String) (r : Request) : Got Task := do
  let (name, definition) ← orProblem (r.content readDefinition)
  if isBlankString definition then throw (.problem (.missingField "definition"))
  return .run (.analyze connection name definition) plain

/-- The task of analyzing all procedures of a connection. -/
def bulkAnalysis (connection : String) (r : Request) : Got Task := do
  if bodyLimit < r.bodySize then throw (.text 413 tooLarge)
  let schema ← orProblem r.schema
  return .run (.bulkAnalyze connection schema) plain

/-- The task of showing the record of a procedure. -/
def recordOf (connection name : String) : Got Task := do
  let p : ProcedureId := ⟨← aliasOf connection, name⟩
  return .run (.record connection name) (found ("No lineage recorded for " ++ p.display))

/-- The task of listing procedures, of one schema if the query names it. -/
def procedureList (connection : String) (query : List Char) : Got Task := do
  let schema ← orBadQuery (optionalValue (queryPairs query) "schema")
  return .run (.listProcedures connection schema) (listing "procedures")

/-- The task of an action, from the texts of the parameters and the request. -/
def taskOf (r : Request) : Action → List String → Got Task
  | .ping, _ => return .respond (.text 200 "pong")
  | .live, _ => return .respond (plain live)
  | .ready, _ => return .tell fun w => plain (readiness w)
  | .usage, _ => return .tell fun w => plain w.usage.toJson
  | .connections, _ => return .run .connections (listing "connections")
  | .tables, [connection] => return .run (.listTables connection) (listing "tables")
  | .columns, [connection, schema, table] =>
    return .run (.listColumns connection schema table) (listing "columns")
  | .discover, _ => do
    let (source, target) ← orProblem (r.content readEnds)
    return .run (.discover source target) (listing "mappings")
  | .confirm, _ => do
    return .run (.confirm (← orProblem (r.content ConfirmRequest.read))) confirmed
  | .bulk, _ => do
    return .run (.upsert (← orProblem (r.content (Json.readList MappingRow.read)))) plain
  | .mappings, [tier] => do return .run (.listMappings (← hopOf tier)) (listing "mappings")
  | .deleteMapping, [tier] => deletion tier r.query
  | .candidates, [tier] => do return .run (.listCandidates (← hopOf tier)) (listing "mappings")
  | .suggest, [tier] => do return .run (.suggest (← hopOf tier)) plain
  | .autoMap, [tier] => do return .run (.autoMap (← hopOf tier)) plain
  | .analyze, [connection] => analysis connection r
  | .status, [connection] => return .run (.statusMap connection) plain
  | .procedures, [connection] => procedureList connection r.query
  | .record, [connection, name] => recordOf connection name
  | .analyzeProcedure, [connection, name] =>
    return .run (.analyzeProcedure connection name) plain
  | .bulkAnalyze, [connection] => bulkAnalysis connection r
  | _, _ => throw (.bare 404)

/-- The task of a request. -/
def Task.ofRequest (r : Request) : Task :=
  match Route.find? r.path with
  | none => .respond (.bare 404)
  | some (route, segments) =>
    match route.action? r.method with
    | none => .respond ((Response.bare 405).withHeader "allow" route.allowed)
    | some a =>
      match parameters segments >>= taskOf r a with
      | .ok t => t
      | .error response => .respond response

end TierLineage.Web
