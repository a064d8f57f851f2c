import TierLineage.Json.Value

/-!
# Trees of settings

The statements of a settings file put entries into a tree of tables.  A table comes to be by its
header, by a longer header that leads through it, or by a key with dots; how it came to be decides
how it may grow.  A table that only longer headers have led through may still get its header, once;
keys with dots lead through tables without headers, and put entries only into tables that they have
made; and nothing is put into a value.
-/

namespace TierLineage.Toml

/-- How a table came to be. -/
inductive Origin where
  /-- A longer header leads through it. -/
  | implied
  /-- A key with dots leads through it. -/
  | dotted
  /-- It has a header. -/
  | header
  deriving Repr, DecidableEq

/-- A tree of settings. -/
inductive Tree where
  | value (v : Json)
  | table (origin : Origin) (entries : List (String × Tree))
  /-- Tables that each have a header in double brackets. -/
  | tables (items : List (List (String × Tree)))

namespace Tree

/-- The entries of a table. -/
abbrev Entries := List (String × Tree)

/-- A change of a table, if it is allowed. -/
abbrev Growth := Origin → Entries → Option Entries

/-- Entries with one of them replaced. -/
def replaceEntry (name : String) (t : Tree) (es : Entries) : Entries :=
  es.map fun e => if e.1 = name then (name, t) else e

/-! ### Growing -/

/-- Let the table at the end of a path grow.  The path leads through the last one of several tables,
and makes the tables that do not exist. -/
def within (byKey : Bool) (grow : Growth) : List String → Growth
  | [], origin, es => grow origin es
  | name :: path, _, es =>
    match es.lookup name with
    | none => do
      let origin := if byKey then Origin.dotted else .implied
      let inner ← within byKey grow path origin []
      return es ++ [(name, .table origin inner)]
    | some (.value _) => none
    | some (.table origin inner) =>
      if byKey && origin == .header then none
      else do
        let inner ← within byKey grow path origin inner
        return replaceEntry name (.table origin inner) es
    | some (.tables items) =>
      match items.getLast? with
      | none => none
      | some last => do
        let last ← within byKey grow path .header last
        return replaceEntry name (.tables (items.dropLast ++ [last])) es

/-- Put an entry into a table, which has to have no entry of that name. -/
def put (name : String) (t : Tree) (es : Entries) : Option Entries :=
  if (es.lookup name).isSome then none else some (es ++ [(name, t)])

/-- Put a value where a key leads. -/
def putValue (path : List String) (name : String) (v : Json) : Growth :=
  within true
    (fun origin es => if (origin == .dotted) == path.isEmpty then none else put name (.value v) es)
    path

/-- Give a table its header. -/
def openTable (name : String) : Growth := fun _ es =>
  match es.lookup name with
  | none => some (es ++ [(name, .table .header [])])
  | some (.table .implied inner) => some (replaceEntry name (.table .header inner) es)
  | some _ => none

/-- Begin one more of several tables. -/
def openItem (name : String) : Growth := fun _ es =>
  match es.lookup name with
  | none => some (es ++ [(name, .tables [[]])])
  | some (.tables items) => some (replaceEntry name (.tables (items ++ [[]])) es)
  | some _ => none

/-! ### Data -/

mutual

/-- The data of a tree. -/
def toJson : Tree → Json
  | .value v => v
  | .table _ es => .record (entriesJson es) .lax
  | .tables items => .list (itemsJson items) .lax

/-- The data of entries. -/
def entriesJson : List (String × Tree) → List (Option String × Json)
  | [] => []
  | (name, t) :: es => (some name, toJson t) :: entriesJson es

/-- The data of several tables. -/
def itemsJson : List (List (String × Tree)) → List Json
  | [] => []
  | es :: items => .record (entriesJson es) .lax :: itemsJson items

end

/-- The data of a table. -/
def dataOf (es : Entries) : Json :=
  .record (entriesJson es) .lax

end Tree

end TierLineage.Toml
