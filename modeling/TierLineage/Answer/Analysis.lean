import TierLineage.Answer.Payload
import TierLineage.Answer.Classification

/-!
# Analyses

What an answer says about a procedure.  The payload is read as a record of names and expressions;
names become tables of the procedure's connection.  An answer without a readable payload becomes an
analysis that holds nothing but a fallback summary and is marked as one.
-/

namespace TierLineage

open TierLineage.Text

/-- What an analysis found out. -/
structure Analysis where
  summary : String
  target : Option Table
  columns : List ColumnLineage
  fallback : Bool
  deriving Repr, DecidableEq

/-- The data of an analysis. -/
def Analysis.toJson (a : Analysis) : Json :=
  Json.obj [("summary", Json.str a.summary), ("target_table", Json.opt Table.toJson a.target),
    ("column_mappings", Json.listOf ColumnLineage.toJson a.columns),
    ("parse_fallback", .bool a.fallback)]

namespace Answer

/-- The summary of an answer that could not be read. -/
def standardFallback : String :=
  "Lineage could not be extracted: the analysis response was not valid JSON."

/-! ### The payload as data -/

/-- What an answer says about one column. -/
structure ColumnStatement where
  source : Option String
  target : String
  table : Option String
  transformation : Option String
  deriving Repr, DecidableEq

/-- What an answer says. -/
structure Statement where
  summary : Option String
  sources : List String
  target : Option String
  columns : List ColumnStatement
  deriving Repr, DecidableEq

/-- Read what an answer says about one column. -/
def ColumnStatement.read : Json.Reader ColumnStatement := fun v => do
  let text := Json.readOption Json.readText
  let found ← Json.fields false
    [Json.may "source" text, Json.needs "target" Json.readText, Json.may "source_table" text,
     Json.may "transformation" text] v
  return ⟨← found.option "source" Json.readText, ← found.need "target" Json.readText,
    ← found.option "source_table" Json.readText, ← found.option "transformation" Json.readText⟩

/-- Read what an answer says. -/
def Statement.read : Json.Reader Statement := fun v => do
  let text := Json.readOption Json.readText
  let found ← Json.fields false
    [Json.may "summary" text, Json.may "source_tables" (Json.readList Json.readText),
     Json.may "target_table" text, Json.may "column_mappings" (Json.readList ColumnStatement.read)] v
  return ⟨← found.option "summary" Json.readText,
    ← found.orDefault "source_tables" (Json.readList Json.readText) [],
    ← found.option "target_table" Json.readText,
    ← found.orDefault "column_mappings" (Json.readList ColumnStatement.read) []⟩

/-! ### From names to tables -/

/-- The table of a name, if it is not blank. -/
def namedTable? (connection : Alias) (name : String) : Option Table :=
  let name := trimString name
  if name.isEmpty then none else some (Table.ofQualified connection name)

/-- The source among the given ones that a name without schema means, or else the named table. -/
def resolved (sources : List Table) (named : Table) : Table :=
  (sources.find? fun s => named.schema.isEmpty && sameStringIgnoringCase s.name named.name).getD
    named

/-- The tables that a column comes from: the one it names, or the only source unless the column is
constant. -/
def columnTables (connection : Alias) (sources : List Table) (table : Option String)
    (transformation : Transformation) : TableSet :=
  match table.bind (namedTable? connection) with
  | some named => .ofList [resolved sources named]
  | none =>
    if transformation = .constant then .empty
    else match sources with
      | [s] => .ofList [s]
      | _ => .empty

/-- The lineage of a column. -/
def columnLineage (connection : Alias) (sources : List Table) (c : ColumnStatement) :
    ColumnLineage :=
  let target := trimString c.target
  let expression := trimString (c.source.getD "")
  let said := c.transformation.bind fun t => (Named.parse (α := Transformation) t).toOption
  let transformation := said.getD (infer expression.toList target.toList)
  ⟨target, expression, columnTables connection sources c.table transformation, transformation⟩

/-- A sentence about what moves where. -/
def describe (sources : List Table) (target : Option Table) : String :=
  let names := joinedStrings ", " (sources.map Table.qualified)
  match target, sources.isEmpty with
  | some t, false => "Loads " ++ t.qualified ++ " from " ++ names ++ "."
  | some t, true => "Loads " ++ t.qualified ++ "."
  | none, false => "Reads " ++ names ++ "."
  | none, true => "No data movement identified."

/-- The analysis of what an answer says. -/
def analysisOf (connection : Alias) (c : Statement) : Analysis :=
  let target := c.target.bind (namedTable? connection)
  let sources := c.sources.filterMap (namedTable? connection)
  let columns := (c.columns.filter fun m => !isBlankString m.target).map
    (columnLineage connection sources)
  let summary := (c.summary.filter fun s => !isBlankString s).getD (describe sources target)
  ⟨summary, target, columns, false⟩

/-- The analysis of an answer that could not be read. -/
def fallbackAnalysis (summary : String) : Analysis :=
  ⟨summary, none, [], true⟩

/-- What a payload says, if it can be read. -/
def statement? (payload : List Char) : Option Statement :=
  (Json.decode Statement.read (String.ofList payload)).toOption

/-- The analysis of an answer about a procedure of a connection. -/
def analyze (raw : String) (connection : Alias) (fallback : String) : Analysis :=
  match (payload? raw.toList).bind statement? with
  | some c => analysisOf connection c
  | none => fallbackAnalysis fallback

end Answer

end TierLineage
