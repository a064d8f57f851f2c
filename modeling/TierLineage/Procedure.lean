import TierLineage.Alias

/-!
# Procedures

A stored procedure is known by its connection and its name; its schema and its text may change.
-/

namespace TierLineage

open TierLineage.Text

/-- What a stored procedure is known by. -/
structure ProcedureId where
  connection : Alias
  name : String
  deriving Repr, DecidableEq, Inhabited

namespace ProcedureId

/-- Procedures are ordered by connection and name. -/
instance : Ord ProcedureId where
  compare := compareLex (compareOn ProcedureId.connection) (compareOn ProcedureId.name)

/-- The full name. -/
def display (p : ProcedureId) : String :=
  p.connection.name ++ "/" ++ p.name

/-- A procedure has a name that is not blank. -/
def validate (p : ProcedureId) : Except Refusal Unit :=
  if isBlankString p.name then .error (.missing "procedure_name") else .ok ()

/-- Read a procedure identity from data. -/
def read : Json.Reader ProcedureId := fun v => do
  let found ← Json.fields false
    [Json.needs "connection_alias" Alias.read, Json.needs "procedure_name" Json.readText] v
  return ⟨← found.need "connection_alias" Alias.read,
    ← found.need "procedure_name" Json.readText⟩

/-- The data of a procedure identity. -/
def toJson (p : ProcedureId) : Json :=
  Json.obj [("connection_alias", p.connection.toJson), ("procedure_name", Json.str p.name)]

end ProcedureId

/-- A stored procedure as the catalog holds it. -/
structure Procedure where
  identity : ProcedureId
  schema : String
  definition : String
  deriving Repr, DecidableEq

namespace Procedure

/-- Read a procedure from data. -/
def read : Json.Reader Procedure := fun v => do
  let found ← Json.fields false
    [Json.needs "identity" ProcedureId.read, Json.needs "schema" Json.readText,
     Json.needs "definition" Json.readText] v
  return ⟨← found.need "identity" ProcedureId.read, ← found.need "schema" Json.readText,
    ← found.need "definition" Json.readText⟩

/-- The data of a procedure. -/
def toJson (p : Procedure) : Json :=
  Json.obj [("identity", p.identity.toJson), ("schema", Json.str p.schema),
    ("definition", Json.str p.definition)]

end Procedure

end TierLineage
