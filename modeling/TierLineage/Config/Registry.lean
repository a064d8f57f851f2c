import Std.Data.TreeMap
import TierLineage.Table

/-!
# Connections

The configured connections by alias.  Each belongs to a tier; a source connection may say how its
tables are named in the staging area.
-/

namespace TierLineage

/-- What kind of database a connection leads to. -/
inductive SourceKind where
  | sqlServer
  | oracle
  deriving Repr, DecidableEq, Inhabited

instance : Named SourceKind where
  title := "source kind"
  all := [.sqlServer, .oracle]
  name
    | .sqlServer => "sql_server"
    | .oracle => "oracle"
  synonyms := [("sqlserver", .sqlServer), ("mssql", .sqlServer)]

/-- A configured connection. -/
structure Connection where
  name : Alias
  tier : Tier
  kind : SourceKind
  database : String
  stageSchema : Option String
  stagePrefix : Option String
  deriving Repr, DecidableEq

namespace Connection

/-- A connection of which nothing but its name and tier is said. -/
def plain (name : Alias) (tier : Tier) : Connection :=
  ⟨name, tier, .sqlServer, "", none, none⟩

/-- Read a connection from data. -/
def read : Json.Reader Connection := fun v => do
  let found ← Json.fields true
    [Json.needs "alias" Alias.read, Json.needs "tier" (Named.read (α := Tier)),
     Json.may "kind" (Named.read (α := SourceKind)), Json.may "database" Json.readText,
     Json.may "default_stage_schema" (Json.readOption Json.readText),
     Json.may "stage_table_prefix" (Json.readOption Json.readText)] v
  return {
    name := ← found.need "alias" Alias.read
    tier := ← found.need "tier" Named.read
    kind := ← found.orDefault "kind" Named.read .sqlServer
    database := ← found.orDefault "database" Json.readText ""
    stageSchema := ← found.option "default_stage_schema" Json.readText
    stagePrefix := ← found.option "stage_table_prefix" Json.readText }

/-- The data of a connection. -/
def toJson (c : Connection) : Json :=
  Json.obj [("alias", c.name.toJson), ("tier", Named.toJson c.tier),
    ("kind", Named.toJson c.kind), ("database", Json.str c.database),
    ("default_stage_schema", Json.opt Json.str c.stageSchema),
    ("stage_table_prefix", Json.opt Json.str c.stagePrefix)]

end Connection

/-- The configured connections. -/
structure Registry where
  connections : Std.TreeMap String Connection

namespace Registry

/-- A registry without connections. -/
def empty : Registry := ⟨∅⟩

instance : Inhabited Registry := ⟨empty⟩

/-- Register one more connection; an alias is registered once. -/
def add (r : Registry) (c : Connection) : Outcome Registry :=
  if r.connections.contains c.name.name then
    .error (.config (.invalid "connections.alias" c.name.name "alias registered more than once"))
  else .ok ⟨r.connections.insert c.name.name c⟩

/-- Register connections. -/
def ofList (cs : List Connection) : Outcome Registry :=
  cs.foldlM add empty

/-- The connections in the order of their aliases. -/
def toList (r : Registry) : List Connection :=
  r.connections.values

/-- The number of connections. -/
def size (r : Registry) : Nat :=
  r.connections.size

/-- The connection of an alias. -/
def resolve (r : Registry) (name : String) : Except Refusal Connection :=
  match r.connections[name]? with
  | some c => .ok c
  | none => .error (.unknownAlias name)

/-- The connection of an alias, which has to belong to a tier. -/
def requireTier (r : Registry) (name : String) (tier : Tier) : Except Refusal Connection := do
  let c ← r.resolve name
  if c.tier = tier then return c else throw (.wrongTier name c.tier tier)

/-- The aliases of a tier, in order. -/
def aliasesOf (r : Registry) (tier : Tier) : List Alias :=
  (r.toList.filter (·.tier == tier)).map (·.name)

end Registry

end TierLineage
