import TierLineage.Catalog.Basic
import TierLineage.Json.Reader

/-!
# Snapshots

A snapshot is a catalog as data: connections by name, each with a database that applies to its
tables unless they name their own.  Loading a snapshot checks the names of connections and tables.
-/

namespace TierLineage.Snapshot

/-- A column in a snapshot. -/
structure Column where
  name : String
  dataType : String
  nullable : Bool
  deriving Repr, DecidableEq

/-- A table in a snapshot. -/
structure Table where
  database : Option String
  schema : String
  name : String
  columns : List Column
  deriving Repr, DecidableEq

/-- A procedure in a snapshot. -/
structure Procedure where
  schema : String
  name : String
  definition : String
  deriving Repr, DecidableEq

/-- A connection in a snapshot. -/
structure Connection where
  database : String
  tables : List Table
  procedures : List Procedure
  deriving Repr, DecidableEq

end Snapshot

/-- A catalog as data, its connections in the order of their names. -/
structure Snapshot where
  connections : Std.TreeMap String Snapshot.Connection

namespace Snapshot

/-! ### Data -/

/-- Read a column. -/
def Column.read : Json.Reader Column := fun v => do
  let found ← Json.fields false
    [Json.needs "name" Json.readText, Json.may "data_type" Json.readText,
     Json.may "nullable" Json.readBool] v
  return ⟨← found.need "name" Json.readText, ← found.orDefault "data_type" Json.readText "",
    ← found.orDefault "nullable" Json.readBool true⟩

/-- Read a table. -/
def Table.read : Json.Reader Table := fun v => do
  let found ← Json.fields false
    [Json.may "database" (Json.readOption Json.readText), Json.needs "schema" Json.readText,
     Json.needs "table" Json.readText, Json.may "columns" (Json.readList Column.read)] v
  return ⟨← found.option "database" Json.readText, ← found.need "schema" Json.readText,
    ← found.need "table" Json.readText,
    ← found.orDefault "columns" (Json.readList Column.read) []⟩

/-- Read a procedure. -/
def Procedure.read : Json.Reader Procedure := fun v => do
  let found ← Json.fields false
    [Json.needs "schema" Json.readText, Json.needs "name" Json.readText,
     Json.needs "definition" Json.readText] v
  return ⟨← found.need "schema" Json.readText, ← found.need "name" Json.readText,
    ← found.need "definition" Json.readText⟩

/-- Read a connection. -/
def Connection.read : Json.Reader Connection := fun v => do
  let found ← Json.fields false
    [Json.may "database" Json.readText, Json.may "tables" (Json.readList Table.read),
     Json.may "procedures" (Json.readList Procedure.read)] v
  return ⟨← found.orDefault "database" Json.readText "",
    ← found.orDefault "tables" (Json.readList Table.read) [],
    ← found.orDefault "procedures" (Json.readList Procedure.read) []⟩

/-- Read a snapshot; of connections with one name the last one counts. -/
def read : Json.Reader Snapshot := fun v => do
  let found ← Json.fields false [Json.may "connections" (Json.readEntries Connection.read)] v
  let entries ← found.orDefault "connections" (Json.readEntries Connection.read) []
  return ⟨Std.TreeMap.ofList entries⟩

/-- The data of a column. -/
def Column.toJson (c : Column) : Json :=
  Json.obj [("name", Json.str c.name), ("data_type", Json.str c.dataType),
    ("nullable", .bool c.nullable)]

/-- The data of a table. -/
def Table.toJson (t : Table) : Json :=
  Json.obj [("database", Json.opt Json.str t.database), ("schema", Json.str t.schema),
    ("table", Json.str t.name), ("columns", Json.listOf Column.toJson t.columns)]

/-- The data of a procedure. -/
def Procedure.toJson (p : Procedure) : Json :=
  Json.obj [("schema", Json.str p.schema), ("name", Json.str p.name),
    ("definition", Json.str p.definition)]

/-- The data of a connection. -/
def Connection.toJson (c : Connection) : Json :=
  Json.obj [("database", Json.str c.database), ("tables", Json.listOf Table.toJson c.tables),
    ("procedures", Json.listOf Procedure.toJson c.procedures)]

/-- The data of a snapshot. -/
def toJson (s : Snapshot) : Json :=
  Json.obj [("connections", Json.obj (s.connections.toList.map fun (n, c) => (n, c.toJson)))]

/-! ### Loading -/

/-- Load a table of a connection. -/
def loadTable (a : Alias) (database : String) (c : Catalog) (t : Table) : Outcome Catalog := do
  let table : TierLineage.Table := ⟨a, t.database.getD database, t.schema, t.name⟩
  table.validate.mapError .refused
  return c.insertTable table (t.columns.map fun k => (k.name, k.dataType, k.nullable))

/-- Load a connection. -/
def loadConnection (c : Catalog) (entry : String × Connection) : Outcome Catalog := do
  let a ← (Alias.parse entry.1).mapError .refused
  let k := entry.2
  let c ← k.tables.foldlM (loadTable a k.database) (c.addConnection a)
  return k.procedures.foldl
    (fun c p => c.insertProcedure ⟨⟨a, p.name⟩, p.schema, p.definition⟩) c

/-- Load a snapshot. -/
def load (s : Snapshot) : Outcome Catalog :=
  s.connections.toList.foldlM loadConnection Catalog.empty

end Snapshot

end TierLineage
