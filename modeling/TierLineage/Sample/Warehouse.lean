import TierLineage.Service.World

/-!
# A sample warehouse

A small warehouse to try things on: two source systems with tables, one with procedures, a staging
area and a bronze layer.  Most tables have their counterpart under a slightly different name.
-/

namespace TierLineage.Warehouse

/-! ### Connections -/

/-- A source system with orders. -/
def erp : Alias := ⟨"erp", by decide⟩

/-- A source system with contacts. -/
def crm : Alias := ⟨"crm", by decide⟩

/-- A source system with procedures. -/
def procedureHost : Alias := ⟨"conn1", by decide⟩

/-- The staging area. -/
def stage : Alias := ⟨"stage", by decide⟩

/-- The bronze layer. -/
def bronze : Alias := ⟨"bronze", by decide⟩

/-- The connections. -/
def connections : List Connection :=
  [.plain erp .source, .plain crm .source, .plain procedureHost .source, .plain stage .stage,
    .plain bronze .bronze]

/-! ### Contents -/

/-- The columns of every table, the last of them by name. -/
def columns (last : String) : List (String × String × Bool) :=
  [("customer_id", "int", false), ("name", "nvarchar", true), (last, "nvarchar", true)]

/-- The tables with their last columns. -/
def tables : List (Table × String) :=
  [(⟨erp, "", "orders", "customer_raw"⟩, "region"),
   (⟨erp, "", "orders", "invoices"⟩, "amount"),
   (⟨crm, "", "dbo", "Contacts"⟩, "email"),
   (⟨stage, "", "stg", "customer"⟩, "load_ts"),
   (⟨stage, "", "stg", "customer_raw"⟩, "region"),
   (⟨stage, "", "stg", "cust"⟩, "load_ts"),
   (⟨stage, "", "stg", "stg_contacts"⟩, "email"),
   (⟨stage, "", "stg", "invoice"⟩, "amount"),
   (⟨bronze, "", "brz", "customer_raw"⟩, "region"),
   (⟨bronze, "", "brz", "contact"⟩, "email")]

/-- A procedure that fills one table from another. -/
def loader (n : String) : Procedure :=
  ⟨⟨procedureHost, "p" ++ n⟩, "dbo",
    "CREATE PROCEDURE dbo.p" ++ n ++ " AS INSERT INTO stg.t" ++ n ++ " SELECT * FROM dbo.s" ++ n⟩

/-- The procedures. -/
def procedures : List Procedure :=
  ["1", "2", "3", "4", "5"].map loader ++
    [⟨⟨procedureHost, "usp_extract"⟩, "etl", "CREATE PROCEDURE etl.usp_extract AS SELECT 1"⟩]

/-- What the connections hold. -/
def catalog : Catalog :=
  let c := tables.foldl (fun c (t, last) => c.insertTable t (columns last)) Catalog.empty
  procedures.foldl Catalog.insertProcedure c

/-! ### Settings -/

/-- Settings with a small pool and short limits. -/
def engine : Engine :=
  { Engine.standard with workerPoolSize := 4, catalogTimeout := 500, analysisTimeout := 500 }

end TierLineage.Warehouse
