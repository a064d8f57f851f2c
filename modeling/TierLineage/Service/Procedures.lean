import TierLineage.Service.World

/-!
# Lineage of procedures

The status of the procedures of a connection, and the analysis of all of them at once.  Every
procedure is analyzed on its own; the report counts successes and failures and lists the results by
name.
-/

namespace TierLineage

/-- A procedure with its status. -/
structure ProcedureStatus where
  name : String
  schema : String
  status : Status
  deriving Repr, DecidableEq

/-- The data of a status. -/
def ProcedureStatus.toJson (s : ProcedureStatus) : Json :=
  Json.obj [("procedure_name", Json.str s.name), ("schema", Json.str s.schema),
    ("status", Named.toJson s.status)]

/-- What became of one procedure of many. -/
inductive ProcedureResult where
  | analyzed (name : String) (cached fallback : Bool) (summary : String)
  | failed (name : String) (failure : PartFailure)
  deriving Repr, DecidableEq

namespace ProcedureResult

/-- The name of the procedure. -/
def name : ProcedureResult → String
  | analyzed n _ _ _ => n
  | failed n _ => n

/-- What became of a procedure, told from its finding. -/
def ofFinding (p : ProcedureId) : Outcome Finding → ProcedureResult
  | .ok f => analyzed p.name f.cached f.record.fallback f.record.summary
  | .error e => failed p.name (e.ofPart p.display)

/-- Whether the procedure has lineage now. -/
def succeeded : ProcedureResult → Bool
  | analyzed _ _ _ _ => true
  | failed _ _ => false

/-- Whether the lineage was in the store already. -/
def isCached : ProcedureResult → Bool
  | analyzed _ c _ _ => c
  | failed _ _ => false

/-- Whether the answer could not be read. -/
def isFallback : ProcedureResult → Bool
  | analyzed _ _ f _ => f
  | failed _ _ => false

/-- The data of a result. -/
def toJson : ProcedureResult → Json
  | analyzed n c f s =>
    Json.obj [("result", Json.str "analyzed"), ("procedure_name", Json.str n),
      ("cached", .bool c), ("parse_fallback", .bool f), ("summary", Json.str s)]
  | failed n f =>
    Json.obj [("result", Json.str "failed"), ("procedure_name", Json.str n),
      ("failure", f.toJson)]

end ProcedureResult

/-- What became of all procedures of a connection. -/
structure BulkReport where
  connection : Alias
  schema : Option String
  results : List ProcedureResult
  deriving Repr, DecidableEq

namespace BulkReport

/-- A report, its results in the order of the names. -/
def of (connection : Alias) (schema : Option String) (results : List ProcedureResult) :
    BulkReport :=
  ⟨connection, schema, results.mergeSort fun a b => (compare a.name b.name).isLE⟩

/-- The data of a report. -/
def toJson (r : BulkReport) : Json :=
  Json.obj [("connection_alias", r.connection.toJson), ("schema", Json.opt Json.str r.schema),
    ("total", Json.nat r.results.length),
    ("succeeded", Json.nat (r.results.countP (·.succeeded))),
    ("failed", Json.nat (r.results.countP (!·.succeeded))),
    ("cached_count", Json.nat (r.results.countP (·.isCached))),
    ("fallback_count", Json.nat (r.results.countP (·.isFallback))),
    ("results", Json.listOf ProcedureResult.toJson r.results)]

end BulkReport

namespace Procedures

/-- The procedures of a connection, in one schema if it is given. -/
def list (e : Engine) (r : Registry) (connection : String) (schema : Option String) :
    Visit (Alias × List Procedure) := do
  let c ← Visit.ofOutcome ((r.resolve connection).mapError .refused)
  let ps ← Visit.call e.catalogTimeout "list_procedures" c.name (·.procedures c.name schema)
  return (c.name, ps)

/-- The current text of a procedure. -/
def definition (e : Engine) (r : Registry) (p : ProcedureId) : Visit AnalysisRequest := do
  let _ ← Visit.ofOutcome ((r.resolve p.connection.name).mapError .refused)
  Visit.ofOutcome (p.validate.mapError .refused)
  let q ← Visit.call e.catalogTimeout "procedure_definition" p.connection (·.procedure p)
  return ⟨p, q.definition⟩

/-- The status of procedures of a connection. -/
def statuses (d : Flight.Desk) (a : Alias) (ps : List Procedure) :
    Outcome (List ProcedureStatus) :=
  (d.statuses a ps).map (·.map fun (p, s) => ⟨p.identity.name, p.schema, s⟩)

/-- The status of procedures by name; of procedures with one name the last one counts. -/
def statusMap (statuses : List ProcedureStatus) : Std.TreeMap String Status :=
  statuses.foldl (fun m s => m.insert s.name s.status) ∅

/-- The data of statuses by name. -/
def statusMapJson (m : Std.TreeMap String Status) : Json :=
  Json.obj (m.toList.map fun (n, s) => (n, Named.toJson s))

/-- The record of a procedure of a known connection. -/
def record? (w : World) (p : ProcedureId) : Outcome (Option Record) := do
  let _ ← (w.registry.resolve p.connection.name).mapError .refused
  w.store.record? p

end Procedures

end TierLineage
