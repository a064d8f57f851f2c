import TierLineage.Procedure

/-!
# The question

What a model is asked about a procedure: to answer with the lineage of the procedure's text as a
JSON object of a given shape.
-/

namespace TierLineage

/-- A procedure text to be analyzed. -/
structure AnalysisRequest where
  identity : ProcedureId
  definition : String
  deriving Repr, DecidableEq

namespace Analyst

/-- What the model is told to be. -/
def systemPrompt : String :=
  "You are a SQL data engineer assistant. You extract data lineage from stored procedures."

/-- The question before the procedure's text. -/
def question (r : AnalysisRequest) : List String :=
  ["Analyze the following stored procedure named \x60" ++ r.identity.name ++
    "\x60 on connection \x60" ++ r.identity.connection.name ++ "\x60.",
   "",
   "Return a JSON object describing its source-to-target lineage, formatted like this:",
   "",
   "\x7b",
   "  \"summary\": \"One or two sentences on what the procedure does.\",",
   "  \"source_tables\": [\"source_db.schema.table\"],",
   "  \"target_table\": \"target_schema.table\",",
   "  \"column_mappings\": [",
   "    \x7b \"source\": \"source_col or expression\", \"target\": \"target_col\", "
     ++ "\"source_table\": \"table_name\" \x7d",
   "  ]",
   "\x7d",
   "",
   "Only include tables that directly participate in data movement. "
     ++ "Do not infer beyond joins if it is unclear.",
   "",
   "SQL Procedure:",
   "\x60\x60\x60"]

/-- What the model is asked. -/
def prompt (r : AnalysisRequest) : String :=
  String.intercalate "\n" (question r ++ [r.definition, "\x60\x60\x60"])

end Analyst

end TierLineage
