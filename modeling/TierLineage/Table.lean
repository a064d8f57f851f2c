import TierLineage.Alias
import TierLineage.Text.Pieces
import TierLineage.Text.Ascii

/-!
# Tables

A table is known by its connection, database, schema and name; the database may be empty.  Inside a
connection it is written with dots between the parts, each of which may be quoted.
-/

namespace TierLineage

open TierLineage.Text

/-- A table of a connection. -/
structure Table where
  connection : Alias
  database : String
  schema : String
  name : String
  deriving Repr, DecidableEq, Inhabited

namespace Table

/-- Tables are ordered by connection, database, schema and name. -/
instance : Ord Table where
  compare := compareLex (compareOn Table.connection) (compareLex (compareOn Table.database)
    (compareLex (compareOn Table.schema) (compareOn Table.name)))

instance : Std.TransOrd Table :=
  inferInstanceAs (Std.TransCmp (compareLex (compareOn _) (compareLex (compareOn _)
    (compareLex (compareOn _) (compareOn _)))))

/-! ### Names -/

/-- The name inside the connection; an empty database is left out. -/
def qualified (t : Table) : String :=
  if t.database.isEmpty then t.schema ++ "." ++ t.name
  else t.database ++ "." ++ t.schema ++ "." ++ t.name

/-- The full name. -/
def display (t : Table) : String :=
  t.connection.name ++ ":" ++ t.qualified

/-- The characters that quote a part of a name. -/
def isQuote (c : Char) : Bool :=
  c == '[' || c == ']' || c == '"' || c == '\x60'

/-- A part of a name without white space and quotes around it. -/
def unquoted (part : List Char) : List Char :=
  trim (trimBy isQuote (trim part))

/-- The parts of a dotted name; empty ones do not count. -/
def nameParts (s : String) : List String :=
  (((pieces '.' s.toList).map unquoted).filter fun p => !p.isEmpty).map String.ofList

/-- The table of a dotted name: its last parts are the name, the schema and the database. -/
def ofQualified (connection : Alias) (s : String) : Table :=
  match (nameParts s).reverse with
  | [] => ⟨connection, "", "", ""⟩
  | [name] => ⟨connection, "", "", name⟩
  | [name, schema] => ⟨connection, "", schema, name⟩
  | name :: schema :: database :: _ => ⟨connection, database, schema, name⟩

/-! ### Comparison -/

/-- Whether schema and name agree up to the case of ASCII letters. -/
def sameObject (t u : Table) : Bool :=
  sameStringIgnoringCase t.schema u.schema && sameStringIgnoringCase t.name u.name

/-- A table has a name and a schema that are not blank. -/
def validate (t : Table) : Except Refusal Unit :=
  if isBlankString t.name then .error (.missing "table")
  else if isBlankString t.schema then .error (.missing "schema")
  else .ok ()

/-- Tables in their order. -/
def sorted (ts : List Table) : List Table :=
  ts.mergeSort fun a b => (compare a b).isLE

/-! ### Data -/

/-- Read a table from data. -/
def read : Json.Reader Table := fun v => do
  let found ← Json.fields false
    [Json.needs "connection_alias" Alias.read, Json.may "database" Json.readText,
     Json.needs "schema" Json.readText, Json.needs "table" Json.readText] v
  return {
    connection := ← found.need "connection_alias" Alias.read
    database := ← found.orDefault "database" Json.readText ""
    schema := ← found.need "schema" Json.readText
    name := ← found.need "table" Json.readText }

/-- The data of a table. -/
def toJson (t : Table) : Json :=
  Json.obj [("connection_alias", t.connection.toJson), ("database", Json.str t.database),
    ("schema", Json.str t.schema), ("table", Json.str t.name)]

end Table

/-! ### Sets -/

/-- Tables in order, each of them once. -/
@[ext] structure TableSet where
  items : List Table
  ordered : items.Pairwise fun t u => compare t u = .lt
  deriving DecidableEq

namespace TableSet

instance : Repr TableSet := ⟨fun s n => reprPrec s.items n⟩

/-- No tables. -/
def empty : TableSet := ⟨[], .nil⟩

instance : Inhabited TableSet := ⟨empty⟩

/-- A table put at its place in a list, unless it is there. -/
def insertOnce (t : Table) : List Table → List Table
  | [] => [t]
  | u :: us =>
    match compare t u with
    | .lt => t :: u :: us
    | .eq => u :: us
    | .gt => u :: insertOnce t us

theorem mem_insertOnce {t v : Table} {us : List Table} (h : v ∈ insertOnce t us) :
    v = t ∨ v ∈ us := by
  induction us with
  | nil => exact .inl (List.mem_singleton.mp h)
  | cons u us ih =>
    rw [insertOnce] at h
    split at h
    · exact List.mem_cons.mp h
    · exact .inr h
    · rcases List.mem_cons.mp h with rfl | h
      · exact .inr (List.mem_cons_self ..)
      · exact (ih h).imp_right (List.mem_cons_of_mem u)

theorem ordered_insertOnce (t : Table) {us : List Table}
    (h : us.Pairwise fun t u => compare t u = .lt) :
    (insertOnce t us).Pairwise fun t u => compare t u = .lt := by
  induction us with
  | nil => exact List.pairwise_singleton _ t
  | cons u us ih =>
    obtain ⟨hu, hus⟩ := List.pairwise_cons.mp h
    rw [insertOnce]
    split
    · next hlt =>
      refine List.pairwise_cons.mpr ⟨fun v hv => ?_, h⟩
      rcases List.mem_cons.mp hv with rfl | hv
      · exact hlt
      · exact Std.TransCmp.lt_trans hlt (hu v hv)
    · exact h
    · next hgt =>
      refine List.pairwise_cons.mpr ⟨fun v hv => ?_, ih hus⟩
      rcases mem_insertOnce hv with rfl | hv
      · exact Std.OrientedCmp.gt_iff_lt.mp hgt
      · exact hu v hv

/-- A set with one more table. -/
def insert (s : TableSet) (t : Table) : TableSet :=
  ⟨insertOnce t s.items, ordered_insertOnce t s.ordered⟩

/-- The tables of a list. -/
def ofList (ts : List Table) : TableSet :=
  ts.foldl insert empty

/-- Read a set of tables from a list of data. -/
def read : Json.Reader TableSet := fun v =>
  (Json.readList Table.read v).map ofList

/-- The data of a set of tables. -/
def toJson (s : TableSet) : Json :=
  Json.listOf Table.toJson s.items

end TableSet

/-- A column of a table. -/
structure Column where
  table : Table
  name : String
  dataType : String
  nullable : Bool
  deriving Repr, DecidableEq

/-- The data of a column. -/
def Column.toJson (c : Column) : Json :=
  Json.obj [("table", c.table.toJson), ("column_name", Json.str c.name),
    ("data_type", Json.str c.dataType), ("nullable", .bool c.nullable)]

end TierLineage
