import Std.Data.TreeMap
import TierLineage.Table
import TierLineage.Procedure

/-!
# Catalogs

What the databases hold: for each connection its tables with their columns, and its procedures.
Tables are listed in their order; a connection holds one procedure of a name.
-/

namespace TierLineage

/-- What a connection holds. -/
structure Holdings where
  tables : Std.TreeMap Table (List Column)
  procedures : Std.TreeMap String Procedure

/-- A connection that holds nothing. -/
def Holdings.empty : Holdings := ⟨∅, ∅⟩

instance : Inhabited Holdings := ⟨Holdings.empty⟩

/-- What the connections hold. -/
structure Catalog where
  connections : Std.TreeMap Alias Holdings

namespace Catalog

/-- A catalog without connections. -/
def empty : Catalog := ⟨∅⟩

instance : Inhabited Catalog := ⟨empty⟩

/-! ### Changes -/

/-- Change what a connection holds, which is nothing where it was not known. -/
def modify (c : Catalog) (a : Alias) (change : Holdings → Holdings) : Catalog :=
  ⟨c.connections.insert a (change ((c.connections[a]?).getD Holdings.empty))⟩

/-- Make a connection known. -/
def addConnection (c : Catalog) (a : Alias) : Catalog :=
  c.modify a id

/-- Add or replace a table with its columns: name, data type, and whether it may be null. -/
def insertTable (c : Catalog) (t : Table) (columns : List (String × String × Bool)) : Catalog :=
  c.modify t.connection fun h =>
    { h with tables := h.tables.insert t (columns.map fun (n, d, b) => ⟨t, n, d, b⟩) }

/-- Add or replace a procedure. -/
def insertProcedure (c : Catalog) (p : Procedure) : Catalog :=
  c.modify p.identity.connection fun h =>
    { h with procedures := h.procedures.insert p.identity.name p }

/-- Remove a procedure; tells whether there was one. -/
def removeProcedure (c : Catalog) (p : ProcedureId) : Bool × Catalog :=
  match c.connections[p.connection]? with
  | some h =>
    (h.procedures.contains p.name,
      c.modify p.connection fun h => { h with procedures := h.procedures.erase p.name })
  | none => (false, c)

/-! ### Listings -/

/-- What a connection holds. -/
def holdings (c : Catalog) (a : Alias) : Outcome Holdings :=
  match c.connections[a]? with
  | some h => .ok h
  | none => .error (.catalog (.unreachable a.name "no catalog registered for connection"))

/-- An object that a connection does not hold. -/
def notFound (a : Alias) (object : String) : Failure :=
  .catalog (.notFound a.name object)

/-- The tables of a connection, in order. -/
def tables (c : Catalog) (a : Alias) : Outcome (List Table) :=
  (c.holdings a).map (·.tables.keys)

/-- The columns of a table. -/
def columns (c : Catalog) (a : Alias) (t : Table) : Outcome (List Column) := do
  let h ← c.holdings a
  match h.tables[t]? with
  | some cs => return cs
  | none => throw (notFound a t.qualified)

/-- The procedures of a connection by name, in one schema if it is given. -/
def procedures (c : Catalog) (a : Alias) (schema : Option String) : Outcome (List Procedure) := do
  let h ← c.holdings a
  return h.procedures.values.filter fun p =>
    schema.all fun s => Text.sameStringIgnoringCase p.schema s

/-- A procedure. -/
def procedure (c : Catalog) (p : ProcedureId) : Outcome Procedure := do
  let h ← c.holdings p.connection
  match h.procedures[p.name]? with
  | some q => return q
  | none => throw (notFound p.connection ("procedure " ++ p.name))

end Catalog

end TierLineage
