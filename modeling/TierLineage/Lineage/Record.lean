import TierLineage.Table
import TierLineage.Procedure
import TierLineage.Mapping.Basic
import TierLineage.Digest.Sha256

/-!
# Lineage records

What an analysis found out about one version of a procedure: which table it fills, and for each
column from which expression over which tables.  The version is known by the digest of the text;
a record is up to date while the text still has that digest.
-/

namespace TierLineage

/-! ### Column lineage -/

/-- How a column comes about. -/
inductive Transformation where
  | direct
  | rename
  | cast
  | aggregate
  | constant
  | expression
  deriving Repr, DecidableEq, Inhabited

instance : Named Transformation where
  title := "transformation kind"
  all := [.direct, .rename, .cast, .aggregate, .constant, .expression]
  name
    | .direct => "direct"
    | .rename => "rename"
    | .cast => "cast"
    | .aggregate => "aggregate"
    | .constant => "constant"
    | .expression => "expression"

/-- Where one column comes from. -/
structure ColumnLineage where
  target : String
  expression : String
  tables : TableSet
  transformation : Transformation
  deriving Repr, DecidableEq

namespace ColumnLineage

/-- Read the lineage of a column from data. -/
def read : Json.Reader ColumnLineage := fun v => do
  let found ← Json.fields false
    [Json.needs "target_column" Json.readText, Json.needs "source_expression" Json.readText,
     Json.may "source_tables" TableSet.read,
     Json.may "transformation_kind" (Named.read (α := Transformation))] v
  return {
    target := ← found.need "target_column" Json.readText
    expression := ← found.need "source_expression" Json.readText
    tables := ← found.orDefault "source_tables" TableSet.read .empty
    transformation := ← found.orDefault "transformation_kind" Named.read .expression }

/-- The data of the lineage of a column. -/
def toJson (c : ColumnLineage) : Json :=
  Json.obj [("target_column", Json.str c.target), ("source_expression", Json.str c.expression),
    ("source_tables", c.tables.toJson),
    ("transformation_kind", Named.toJson c.transformation)]

end ColumnLineage

/-! ### Records -/

/-- The lineage of one version of a procedure. -/
structure Record where
  identity : ProcedureId
  definitionHash : String
  summary : String
  target : Option Table
  columns : List ColumnLineage
  computedAt : Instant
  fallback : Bool
  deriving Repr, DecidableEq

namespace Record

/-- Read a record from data. -/
def read : Json.Reader Record := fun v => do
  let found ← Json.fields false
    [Json.needs "procedure_identity" ProcedureId.read,
     Json.needs "source_definition_hash" Json.readText, Json.needs "summary" Json.readText,
     Json.may "target_table" (Json.readOption Table.read),
     Json.may "column_mappings" (Json.readList ColumnLineage.read),
     Json.needs "computed_at" Mapping.readInstant, Json.may "parse_fallback" Json.readBool] v
  return {
    identity := ← found.need "procedure_identity" ProcedureId.read
    definitionHash := ← found.need "source_definition_hash" Json.readText
    summary := ← found.need "summary" Json.readText
    target := ← found.option "target_table" Table.read
    columns := ← found.orDefault "column_mappings" (Json.readList ColumnLineage.read) []
    computedAt := ← found.need "computed_at" Mapping.readInstant
    fallback := ← found.orDefault "parse_fallback" Json.readBool false }

/-- The data of a record. -/
def toJson (r : Record) : Json :=
  Json.obj [("procedure_identity", r.identity.toJson),
    ("source_definition_hash", Json.str r.definitionHash), ("summary", Json.str r.summary),
    ("target_table", Json.opt Table.toJson r.target),
    ("column_mappings", Json.listOf ColumnLineage.toJson r.columns),
    ("computed_at", Json.str r.computedAt.text), ("parse_fallback", .bool r.fallback)]

end Record

/-! ### Status -/

/-- Whether the lineage of a procedure is known for its present text. -/
inductive Status where
  | notAnalyzed
  | upToDate
  | outdated
  deriving Repr, DecidableEq, Inhabited

namespace Status

instance : Named Status where
  title := "lineage status"
  all := [notAnalyzed, upToDate, outdated]
  name
    | notAnalyzed => "not_analyzed"
    | upToDate => "up_to_date"
    | outdated => "outdated"

/-- The status, told from the stored digest and the present one. -/
def derive (stored : Option String) (current : String) : Status :=
  match stored with
  | none => notAnalyzed
  | some h => if h = current then upToDate else outdated

end Status

end TierLineage
