import Mathlib.Data.List.Induction
import TierLineage.Proofs.Catalog.Procedures
import TierLineage.Sample.Warehouse

/-!
# What is left of a snapshot

A snapshot whose connections have different names is loaded connection by connection: each of them ends up with
what the snapshot lists for it, whatever the other ones list.  All tables are there, in order and with the
database of the connection where they name none.  Of tables that are listed more than once the last listing
counts, and so it does of procedures of one name.  So procedures of different schemas are lost exactly if they
have the name of a later one.
-/

namespace TierLineage

open Std Text

/-! ### Last entries -/

section Last

variable {α κ : Type} {key : α → κ} {xs : List α} {x y : α}

/-- Whether an entry of a list is the last one with its key. -/
def IsLast (key : α → κ) (xs : List α) (x : α) : Prop :=
  ∃ front back, xs = front ++ x :: back ∧ ∀ y ∈ back, key y ≠ key x

theorem IsLast.mem (h : IsLast key xs x) : x ∈ xs := by
  obtain ⟨front, back, rfl, -⟩ := h
  exact List.mem_append_right front List.mem_cons_self

theorem isLast_concat : IsLast key (xs ++ [x]) y ↔ y = x ∨ IsLast key xs y ∧ key x ≠ key y := by
  constructor
  · rintro ⟨front, back, hsplit, hback⟩
    rcases List.eq_nil_or_concat back with rfl | ⟨init, z, rfl⟩
    · exact .inl (List.singleton_inj.mp (List.append_inj_right' hsplit rfl)).symm
    · rw [List.concat_eq_append] at hsplit hback
      rw [← List.cons_append, ← List.append_assoc] at hsplit
      obtain ⟨rfl, hlast⟩ := List.append_inj' hsplit rfl
      cases hlast
      exact .inr ⟨⟨front, init, rfl, fun w hw => hback w (List.mem_append_left _ hw)⟩,
        hback x (List.mem_append_right _ List.mem_cons_self)⟩
  · rintro (rfl | ⟨⟨front, back, rfl, hback⟩, hx⟩)
    · exact ⟨xs, [], rfl, nofun⟩
    · refine ⟨front, back ++ [x], by simp, fun w hw => ?_⟩
      rcases List.mem_append.mp hw with hw | hw
      · exact hback w hw
      · exact List.mem_singleton.mp hw ▸ hx

/-- There is one last entry with a key. -/
theorem IsLast.eq (hx : IsLast key xs x) (hy : IsLast key xs y) (h : key x = key y) : x = y := by
  induction xs using List.reverseRecOn with
  | nil => exact absurd hx.mem List.not_mem_nil
  | append_singleton xs z ih =>
    rcases isLast_concat.mp hx with rfl | ⟨hx, hzx⟩
    · rcases isLast_concat.mp hy with rfl | ⟨-, hne⟩
      · rfl
      · exact absurd h hne
    · rcases isLast_concat.mp hy with rfl | ⟨hy, -⟩
      · exact absurd h.symm hzx
      · exact ih hx hy

/-- Every key of a list has a last entry. -/
theorem exists_isLast (key : α → κ) (h : x ∈ xs) : ∃ y, IsLast key xs y ∧ key y = key x := by
  induction xs using List.reverseRecOn with
  | nil => cases h
  | append_singleton xs z ih =>
    by_cases hz : key z = key x
    · exact ⟨z, isLast_concat.mpr (.inl rfl), hz⟩
    · rcases List.mem_append.mp h with h | h
      · obtain ⟨y, hy, hkey⟩ := ih h
        exact ⟨y, isLast_concat.mpr (.inr ⟨hy, hkey ▸ hz⟩), hkey⟩
      · exact absurd (congrArg key (List.mem_singleton.mp h).symm) hz

/-- What is found after the entries of a list were put under their keys, one after the other. -/
theorem getElem?_foldl_insert {β : Type} [Ord κ] [TransOrd κ] [LawfulEqOrd κ] [DecidableEq κ]
    {val : α → β} {k : κ} {v : β} :
    (xs.foldl (fun m x => m.insert (key x) (val x)) (∅ : TreeMap κ β))[k]? = some v ↔
      ∃ x, IsLast key xs x ∧ key x = k ∧ val x = v := by
  induction xs using List.reverseRecOn with
  | nil => exact iff_of_false (by simp) fun ⟨x, hx, _⟩ => absurd hx.mem List.not_mem_nil
  | append_singleton xs z ih =>
    rw [List.foldl_concat, getElem?_insert_eq]
    by_cases hk : k = key z
    · subst hk
      rw [if_pos rfl, Option.some_inj]
      constructor
      · exact fun h => ⟨z, isLast_concat.mpr (.inl rfl), rfl, h⟩
      · rintro ⟨x, hx, hkey, hval⟩
        rcases isLast_concat.mp hx with rfl | ⟨-, hne⟩
        · exact hval
        · exact absurd hkey.symm hne
    · rw [if_neg hk, ih]
      refine exists_congr fun x => and_congr_left fun ⟨hkey, _⟩ => ?_
      rw [isLast_concat]
      constructor
      · exact fun hx => .inr ⟨hx, fun h => hk (hkey ▸ h.symm)⟩
      · rintro (rfl | ⟨hx, -⟩)
        · exact absurd hkey.symm hk
        · exact hx

end Last

/-! ### Connections -/

namespace Snapshot

variable {a : Alias} {c₀ c c' : Catalog} {k : Connection}

/-- The table that a snapshot lists for a connection. -/
def Table.onConnection (a : Alias) (database : String) (t : Snapshot.Table) : TierLineage.Table :=
  ⟨a, t.database.getD database, t.schema, t.name⟩

/-- The columns that a snapshot lists for a table. -/
def Table.columnsOn (a : Alias) (database : String) (t : Snapshot.Table) : List TierLineage.Column :=
  t.columns.map fun k => ⟨t.onConnection a database, k.name, k.dataType, k.nullable⟩

/-- The procedure that a snapshot lists for a connection. -/
def Procedure.onConnection (a : Alias) (p : Snapshot.Procedure) : TierLineage.Procedure :=
  ⟨⟨a, p.name⟩, p.schema, p.definition⟩

/-- The tables with their columns and the procedures of a connection, put to what is held already. -/
def Connection.addTo (a : Alias) (k : Connection) (h : Holdings) : Holdings where
  tables := k.tables.foldl (fun m t => m.insert (t.onConnection a k.database) (t.columnsOn a k.database)) h.tables
  procedures := k.procedures.foldl (fun m p => m.insert p.name (p.onConnection a)) h.procedures

/-- Whether a catalog differs from another one in what a connection holds, and in that only. -/
def Becomes (a : Alias) (h : Holdings) (c c' : Catalog) : Prop :=
  ∀ b, c'.connections[b]? = if b = a then some h else c.connections[b]?

theorem becomes_modify (c : Catalog) (a : Alias) (f : Holdings → Holdings) :
    Becomes a (f ((c.connections[a]?).getD .empty)) c (c.modify a f) := fun b =>
  getElem?_insert_eq c.connections a b _

/-- Of two changes of one connection the second one counts. -/
theorem Becomes.trans {c'' : Catalog} {h h' : Holdings} (hc : Becomes a h c c') (hc' : Becomes a h' c' c'') :
    Becomes a h' c c'' := by
  intro b
  rw [hc' b]
  split
  · rfl
  · next hb => rw [hc b, if_neg hb]

theorem Becomes.held {h : Holdings} (hc : Becomes a h c c') : c'.connections[a]? = some h := by
  rw [hc a, if_pos rfl]

theorem becomes_loadTable {database : String} {t : Snapshot.Table} {h : Holdings}
    (hheld : c.connections[a]? = some h) (hload : loadTable a database c t = .ok c') :
    Becomes a { h with tables := h.tables.insert (t.onConnection a database) (t.columnsOn a database) } c c' := by
  obtain ⟨-, -, hload⟩ := bind_eq_ok.mp hload
  rw [← Except.ok.inj hload]
  have hbecomes := becomes_modify c a fun h =>
    { h with tables := h.tables.insert (t.onConnection a database) (t.columnsOn a database) }
  rw [hheld, Option.getD_some] at hbecomes
  simpa [Catalog.insertTable, Table.onConnection, Table.columnsOn, Function.comp_def] using hbecomes

theorem becomes_loadTables {database : String} {ts : List Snapshot.Table} {h : Holdings}
    (hheld : Becomes a h c₀ c) (hload : ts.foldlM (loadTable a database) c = .ok c') :
    Becomes a { h with tables := ts.foldl (fun m t => m.insert (t.onConnection a database)
      (t.columnsOn a database)) h.tables } c₀ c' := by
  induction ts generalizing c h with
  | nil =>
    cases hload
    exact hheld
  | cons t ts ih =>
    rw [List.foldlM_cons, bind_eq_ok] at hload
    obtain ⟨c₁, hstep, hload⟩ := hload
    exact ih (hheld.trans (becomes_loadTable hheld.held hstep)) hload

theorem becomes_insertProcedures {ps : List Snapshot.Procedure} {h : Holdings} (hheld : Becomes a h c₀ c) :
    Becomes a { h with procedures := ps.foldl (fun m p => m.insert p.name (p.onConnection a)) h.procedures } c₀
      (ps.foldl (fun c p => c.insertProcedure ⟨⟨a, p.name⟩, p.schema, p.definition⟩) c) := by
  induction ps generalizing c h with
  | nil => exact hheld
  | cons p ps ih =>
    have hstep := becomes_modify c a fun h =>
      { h with procedures := h.procedures.insert p.name (p.onConnection a) }
    rw [hheld.held, Option.getD_some] at hstep
    exact ih (hheld.trans hstep)

/-- A connection that is loaded adds what it lists to what its alias holds, and changes nothing else. -/
theorem becomes_loadConnection {entry : String × Connection} (hload : loadConnection c entry = .ok c') :
    ∃ a, Alias.parse entry.1 = .ok a ∧
      Becomes a (entry.2.addTo a ((c.connections[a]?).getD .empty)) c c' := by
  obtain ⟨a, hparse, hload⟩ := bind_eq_ok.mp hload
  obtain ⟨c₁, htables, hload⟩ := bind_eq_ok.mp hload
  rw [← Except.ok.inj hload]
  exact ⟨a, ok_of_mapError hparse,
    becomes_insertProcedures (becomes_loadTables (becomes_modify c a id) htables)⟩

theorem name_of_parse {name : String} (h : Alias.parse name = .ok a) : a.name = trimString name := by
  rw [Alias.parse] at h
  split at h
  · cases h
  · split at h
    · cases h
      rfl
    · cases h

/-- Connections whose names are different are each loaded as if they were alone. -/
theorem held_of_loadConnections {es : List (String × Connection)}
    (hnames : (es.map fun e => trimString e.1).Nodup)
    (hnew : ∀ e ∈ es, ∀ a, Alias.parse e.1 = .ok a → c.connections[a]? = none)
    (hload : es.foldlM loadConnection c = .ok c') :
    (∀ e ∈ es, ∃ a, Alias.parse e.1 = .ok a ∧ c'.connections[a]? = some (e.2.addTo a .empty)) ∧
      ∀ b : Alias, (∀ e ∈ es, b.name ≠ trimString e.1) → c'.connections[b]? = c.connections[b]? := by
  induction es generalizing c with
  | nil =>
    cases hload
    exact ⟨nofun, fun _ _ => rfl⟩
  | cons e es ih =>
    rw [List.foldlM_cons, bind_eq_ok] at hload
    obtain ⟨c₁, hfirst, hload⟩ := hload
    obtain ⟨a, hparse, hc₁⟩ := becomes_loadConnection hfirst
    obtain ⟨hother, hrest⟩ := List.nodup_cons.mp hnames
    have hname := name_of_parse hparse
    have hne : ∀ f ∈ es, a.name ≠ trimString f.1 := fun f hf heq =>
      hother (List.mem_map.mpr ⟨f, hf, by rw [← heq, hname]⟩)
    obtain ⟨hes, hframe⟩ := ih hrest (fun f hf b hb => by
      have hba : b ≠ a := fun heq => hne f hf (heq ▸ name_of_parse hb)
      rw [hc₁ b, if_neg hba]
      exact hnew f (List.mem_cons_of_mem e hf) b hb) hload
    refine ⟨List.forall_mem_cons.mpr ⟨⟨a, hparse, ?_⟩, hes⟩, fun b hb => ?_⟩
    · rw [hframe a hne, hc₁.held, hnew e List.mem_cons_self a hparse, Option.getD_none]
    · obtain ⟨hfirst, hb⟩ := List.forall_mem_cons.mp hb
      rw [hframe b hb, hc₁ b, if_neg fun heq => hfirst (by rw [heq, hname])]

/-! ### What is listed -/

/-- Whether the names of the connections are different, also without white space around them. -/
def DistinctNames (s : Snapshot) : Prop :=
  (s.connections.toList.map fun e => trimString e.1).Nodup

instance (s : Snapshot) : Decidable s.DistinctNames :=
  inferInstanceAs (Decidable (List.Nodup _))

/-- Whether a catalog tells of a connection what a snapshot lists for it: all tables in their order, the columns of
the last listing of each table, and of the procedures of each name the last one. -/
structure Told (a : Alias) (k : Connection) (c : Catalog) : Prop where
  tables : ∃ ts, c.tables a = .ok ts ∧ ts.Pairwise (compare · · = .lt) ∧
    ∀ u, u ∈ ts ↔ ∃ t ∈ k.tables, t.onConnection a k.database = u
  columns : ∀ t, IsLast (Table.onConnection a k.database) k.tables t →
    c.columns a (t.onConnection a k.database) = .ok (t.columnsOn a k.database)
  procedures : ∀ schema : Option String, ∃ ps, c.procedures a schema = .ok ps ∧
    ps.Pairwise (fun p q => compare p.identity.name q.identity.name = .lt) ∧
    ∀ p, p ∈ ps ↔ ∃ q, IsLast Procedure.name k.procedures q ∧ q.onConnection a = p ∧
      (schema.all fun s => sameStringIgnoringCase q.schema s) = true

theorem told_of_held (hfiled : c.Filed) (hheld : c.connections[a]? = some (k.addTo a .empty)) : Told a k c := by
  have hheld := Catalog.holdings_eq_ok.mpr hheld
  refine ⟨⟨_, by rw [Catalog.tables, hheld]; rfl, TreeMap.ordered_keys, fun u => ?_⟩, fun t ht => ?_,
    fun schema => ?_⟩
  · rw [TreeMap.mem_keys, TreeMap.mem_iff_isSome_getElem?, Option.isSome_iff_exists]
    constructor
    · rintro ⟨columns, hcolumns⟩
      obtain ⟨t, ht, hkey, -⟩ := getElem?_foldl_insert.mp hcolumns
      exact ⟨t, ht.mem, hkey⟩
    · rintro ⟨t, ht, hkey⟩
      obtain ⟨last, hlast, hsame⟩ := exists_isLast (Table.onConnection a k.database) ht
      exact ⟨_, getElem?_foldl_insert.mpr ⟨last, hlast, hsame.trans hkey, rfl⟩⟩
  · have hfound : (k.addTo a .empty).tables[t.onConnection a k.database]? = some (t.columnsOn a k.database) :=
      getElem?_foldl_insert.mpr ⟨t, ht, rfl, rfl⟩
    rw [Catalog.columns, hheld]
    simp only [bind, Except.bind, hfound]
    rfl
  · have hlisted : c.procedures a schema = .ok ((k.addTo a .empty).procedures.values.filter fun p =>
        schema.all fun s => sameStringIgnoringCase p.schema s) := by
      rw [Catalog.procedures, hheld]
      rfl
    refine ⟨_, hlisted, (hfiled.procedures hlisted).1, fun p => ?_⟩
    rw [List.mem_filter, values_eq, List.mem_map]
    constructor
    · rintro ⟨⟨e, he, rfl⟩, hschema⟩
      obtain ⟨q, hq, -, hval⟩ := getElem?_foldl_insert.mp (TreeMap.mem_toList_iff_getElem?_eq_some.mp he)
      rw [← hval] at hschema
      exact ⟨q, hq, hval, hschema⟩
    · rintro ⟨q, hq, rfl, hschema⟩
      exact ⟨⟨(q.name, q.onConnection a), TreeMap.mem_toList_iff_getElem?_eq_some.mpr
        (getElem?_foldl_insert.mpr ⟨q, hq, rfl, rfl⟩), rfl⟩, hschema⟩

/-- A snapshot whose connections have different names is told connection by connection. -/
theorem told_of_load {s : Snapshot} (hload : s.load = .ok c) (hnames : s.DistinctNames) {name : String}
    (hk : (name, k) ∈ s.connections.toList) : ∃ a, Alias.parse name = .ok a ∧ Told a k c := by
  obtain ⟨hheld, -⟩ := held_of_loadConnections hnames (fun _ _ _ _ => rfl) hload
  obtain ⟨a, hparse, hheld⟩ := hheld (name, k) hk
  exact ⟨a, hparse, told_of_held (load_spec hload).1.filed hheld⟩

/-- Whether the procedures that are listed for a connection have different names. -/
def Connection.NamesApart (k : Connection) : Prop :=
  ∀ p ∈ k.procedures, ∀ q ∈ k.procedures, p.name = q.name → p = q

/-- **A snapshot is loaded without loss but for procedures of one name**: every connection has all its tables with
their columns.  It has exactly the procedures that the snapshot lists, and in each schema exactly those of the schema, if
and only if they have different names, and otherwise the last one of each name. -/
theorem load_keeps {s : Snapshot} (hload : s.load = .ok c) (hnames : s.DistinctNames) {name : String}
    (hk : (name, k) ∈ s.connections.toList) :
    ∃ a, Alias.parse name = .ok a ∧ Told a k c ∧
      (k.NamesApart ↔ ∀ schema : Option String, ∃ ps, c.procedures a schema = .ok ps ∧
        ∀ p, p ∈ ps ↔ ∃ q ∈ k.procedures, q.onConnection a = p ∧
          (schema.all fun s => sameStringIgnoringCase q.schema s) = true) := by
  obtain ⟨a, hparse, htold⟩ := told_of_load hload hnames hk
  refine ⟨a, hparse, htold, fun hapart schema => ?_, fun hall p hp q hq hname => ?_⟩
  · obtain ⟨ps, hps, -, hmem⟩ := htold.procedures schema
    refine ⟨ps, hps, fun p => (hmem p).trans (exists_congr fun q => and_congr_left fun _ => ?_)⟩
    refine ⟨IsLast.mem, fun hq => ?_⟩
    obtain ⟨last, hlast, hsame⟩ := exists_isLast Procedure.name hq
    exact hapart last hlast.mem q hq hsame ▸ hlast
  · -- of one name there is only one in the listing
    obtain ⟨ps, hps, hmem⟩ := hall none
    obtain ⟨ps', hps', -, hlast⟩ := htold.procedures none
    cases hps.symm.trans hps'
    have hlisted : ∀ r ∈ k.procedures, IsLast Procedure.name k.procedures r := by
      intro r hr
      obtain ⟨r', hr', heq, -⟩ := (hlast _).mp ((hmem _).mpr ⟨r, hr, rfl, rfl⟩)
      cases r
      cases r'
      cases heq
      exact hr'
    exact (hlisted p hp).eq (hlisted q hq) hname

/-- A connection with a table that is listed twice. -/
def sales : Connection where
  database := "Sales"
  tables := [⟨none, "dbo", "Orders", [⟨"id", "int", false⟩, ⟨"total", "money", true⟩]⟩, ⟨some "", "dbo", "Orders", []⟩,
    ⟨some "Sales", "dbo", "Orders", [⟨"id", "bigint", false⟩]⟩]
  procedures := [⟨"dbo", "load", "SELECT 1"⟩, ⟨"ETL", "stage", "SELECT 2"⟩]

/-- A connection with procedures of one name in different schemas. -/
def homonyms : Connection :=
  ⟨"", [], [⟨"dbo", "load", "SELECT 1"⟩, ⟨"etl", "load", "SELECT 2"⟩]⟩

/-- A snapshot of both. -/
def salesAndHomonyms : Snapshot :=
  ⟨.ofList [(" erp ", sales), ("crm", homonyms)]⟩

theorem exists_load_salesAndHomonyms : ∃ c, salesAndHomonyms.load = .ok c ∧
    c.procedures Warehouse.crm none = .ok [⟨⟨Warehouse.crm, "load"⟩, "etl", "SELECT 2"⟩] := by
  have hlisted : (salesAndHomonyms.load.toOption.bind fun c => (c.procedures Warehouse.crm none).toOption) =
      some [⟨⟨Warehouse.crm, "load"⟩, "etl", "SELECT 2"⟩] := by decide +kernel
  obtain ⟨c, hload, hps⟩ := Option.bind_eq_some_iff.mp hlisted
  exact ⟨c, ok_of_toOption hload, ok_of_toOption hps⟩

theorem load_keeps_sample : ∃ c, salesAndHomonyms.load = .ok c ∧ salesAndHomonyms.DistinctNames ∧
    (" erp ", sales) ∈ salesAndHomonyms.connections.toList ∧ sales.NamesApart ∧
    ∃ a, Alias.parse " erp " = .ok a ∧ Told a sales c ∧
      ∀ schema : Option String, ∃ ps, c.procedures a schema = .ok ps ∧
        ∀ p, p ∈ ps ↔ ∃ q ∈ sales.procedures, q.onConnection a = p ∧
          (schema.all fun s => sameStringIgnoringCase q.schema s) = true := by
  obtain ⟨c, hload, -⟩ := exists_load_salesAndHomonyms
  have hnames : salesAndHomonyms.DistinctNames := by decide +kernel
  have hmem : (" erp ", sales) ∈ salesAndHomonyms.connections.toList := by decide +kernel
  have hapart : sales.NamesApart := by unfold Connection.NamesApart; decide
  obtain ⟨a, hparse, htold, hall⟩ := load_keeps hload hnames hmem
  exact ⟨c, hload, hnames, hmem, hapart, a, hparse, htold, hall.mp hapart⟩

/-- Procedures of different schemas may be lost. -/
theorem not_keeps_schemas : ¬∀ (s : Snapshot) (c : Catalog), s.load = .ok c → s.DistinctNames →
    ∀ e ∈ s.connections.toList, ∀ a, Alias.parse e.1 = .ok a →
      (e.2.procedures.map fun p => (p.schema, p.name)).Nodup →
        ∃ ps, c.procedures a none = .ok ps ∧ ∀ p ∈ e.2.procedures, p.onConnection a ∈ ps := by
  intro h
  obtain ⟨c, hload, hlisted⟩ := exists_load_salesAndHomonyms
  obtain ⟨ps, hps, hall⟩ := h salesAndHomonyms c hload (by decide +kernel) ("crm", homonyms) (by decide +kernel)
    Warehouse.crm (by decide +kernel) (by decide)
  rw [hlisted] at hps
  cases hps
  exact absurd (hall ⟨"dbo", "load", "SELECT 1"⟩ (by decide)) (by decide)

end Snapshot

end TierLineage
