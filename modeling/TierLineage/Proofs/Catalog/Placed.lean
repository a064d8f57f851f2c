import TierLineage.Catalog.Snapshot
import TierLineage.Config.Registry
import TierLineage.Proofs.Order
import TierLineage.Proofs.Outcome

/-!
# What catalogs and registries keep

A catalog that was built by its own operations holds every table under the table's own connection,
so the tables of different connections are different; one that was loaded from a snapshot holds
only tables with names.  A registry knows every connection under its own alias, so each alias of a
tier is listed once and belongs to the tier.
-/

namespace TierLineage

open Std

/-! ### Tables -/

namespace Catalog

variable {c : Catalog} {a : Alias} {P : Alias → Table → Prop}

/-- Whether something holds of every table and the connection that holds it. -/
def All (c : Catalog) (P : Alias → Table → Prop) : Prop :=
  ∀ a h, c.connections[a]? = some h → ∀ t ∈ h.tables, P a t

theorem all_empty : empty.All P := fun _ _ h => by cases h

/-- A change of one connection keeps what holds of all tables, if it keeps it there. -/
theorem All.modify (hc : c.All P) {f : Holdings → Holdings}
    (hf : ∀ h : Holdings, (∀ t ∈ h.tables, P a t) → ∀ t ∈ (f h).tables, P a t) :
    (c.modify a f).All P := by
  intro b h hb
  rw [Catalog.modify, getElem?_insert_eq] at hb
  split at hb
  · next hba =>
    subst hba
    cases hb
    refine hf _ ?_
    cases hheld : c.connections[b]? with
    | none =>
      intro t ht
      cases ht
    | some k => exact hc b k hheld
  · exact hc b h hb

theorem All.addConnection (hc : c.All P) (a : Alias) : (c.addConnection a).All P :=
  hc.modify fun _ h => h

theorem All.insertTable (hc : c.All P) {t : Table} (ht : P t.connection t)
    (columns : List (String × String × Bool)) : (c.insertTable t columns).All P := by
  refine hc.modify fun h hh u hu => ?_
  rcases TreeMap.mem_insert.mp hu with heq | hu
  · exact LawfulEqOrd.eq_of_compare heq ▸ ht
  · exact hh u hu

theorem All.insertProcedure (hc : c.All P) (p : Procedure) : (c.insertProcedure p).All P :=
  hc.modify (f := fun h => { h with procedures := h.procedures.insert p.identity.name p })
    fun _ h => h

theorem All.removeProcedure (hc : c.All P) (p : ProcedureId) : (c.removeProcedure p).2.All P := by
  rw [Catalog.removeProcedure]
  split
  · exact hc.modify (f := fun h => { h with procedures := h.procedures.erase p.name })
      fun _ h => h
  · exact hc

/-- The catalogs that can be built. -/
inductive Static : Catalog → Prop
  | empty : Static empty
  | addConnection {c : Catalog} (h : Static c) (a : Alias) : Static (c.addConnection a)
  | insertTable {c : Catalog} (h : Static c) (t : Table)
    (columns : List (String × String × Bool)) : Static (c.insertTable t columns)
  | insertProcedure {c : Catalog} (h : Static c) (p : Procedure) : Static (c.insertProcedure p)
  | removeProcedure {c : Catalog} (h : Static c) (p : ProcedureId) : Static (c.removeProcedure p).2

/-- Whether every table is held by its own connection. -/
abbrev Placed (c : Catalog) : Prop :=
  c.All fun a t => t.connection = a

/-- Whether every table has a name and a schema. -/
abbrev Checked (c : Catalog) : Prop :=
  c.All fun _ t => t.validate = .ok ()

theorem Static.placed (h : c.Static) : c.Placed := by
  induction h with
  | empty => exact all_empty
  | addConnection _ a ih => exact All.addConnection ih a
  | insertTable _ t columns ih => exact All.insertTable ih rfl columns
  | insertProcedure _ p ih => exact All.insertProcedure ih p
  | removeProcedure _ p ih => exact All.removeProcedure ih p

/-- The listing of a connection is in order, and what holds of all tables holds of those listed. -/
theorem All.tables (hc : c.All P) {ts : List Table} (h : c.tables a = .ok ts) :
    ts.Pairwise (compare · · = .lt) ∧ ∀ t ∈ ts, P a t := by
  rw [Catalog.tables, holdings] at h
  cases hheld : c.connections[a]? with
  | none => rw [hheld] at h; cases h
  | some k =>
    rw [hheld] at h
    cases h
    exact ⟨TreeMap.ordered_keys, fun t ht => hc a k hheld t (TreeMap.mem_keys.mp ht)⟩

end Catalog

/-! ### Snapshots -/

namespace Snapshot

theorem loadTable_spec {a : Alias} {database : String} {c c' : Catalog} {t : Snapshot.Table}
    (hc : c.Static ∧ c.Checked) (h : loadTable a database c t = .ok c') :
    c'.Static ∧ c'.Checked := by
  obtain ⟨_, hvalid, h⟩ := bind_eq_ok.mp h
  cases h
  exact ⟨hc.1.insertTable _ _, Catalog.All.insertTable hc.2 (ok_of_mapError hvalid) _⟩

theorem loadConnection_spec {c c' : Catalog} {entry : String × Connection}
    (hc : c.Static ∧ c.Checked) (h : loadConnection c entry = .ok c') :
    c'.Static ∧ c'.Checked := by
  obtain ⟨a, -, hrest⟩ := bind_eq_ok.mp h
  obtain ⟨c₁, htables, hlast⟩ := bind_eq_ok.mp hrest
  have hc₁ : c₁.Static ∧ c₁.Checked :=
    foldlM_invariant (fun _ _ _ _ hb hstep => loadTable_spec hb hstep)
      ⟨hc.1.addConnection a, Catalog.All.addConnection hc.2 a⟩ htables
  rw [← Except.ok.inj hlast]
  clear h hrest htables hlast
  -- procedures leave the tables as they are
  induction entry.2.procedures generalizing c₁ with
  | nil => exact hc₁
  | cons p ps ih => exact ih _ ⟨hc₁.1.insertProcedure _, Catalog.All.insertProcedure hc₁.2 _⟩

/-- A snapshot is loaded into a catalog that can be built, all of whose tables have names. -/
theorem load_spec {s : Snapshot} {c : Catalog} (h : s.load = .ok c) : c.Static ∧ c.Checked :=
  foldlM_invariant (fun _ _ _ _ hb hstep => loadConnection_spec hb hstep)
    ⟨.empty, Catalog.all_empty⟩ h

end Snapshot

/-! ### Connections -/

/-- The values of a map are those of its entries. -/
theorem values_eq {α β : Type} [Ord α] [TransOrd α] (m : TreeMap α β) :
    m.values = m.toList.map Prod.snd := by
  have hfold : m.values = m.foldr (fun _ v vs => v :: vs) [] := rfl
  rw [hfold, TreeMap.foldr_eq_foldr_toList]
  induction m.toList with
  | nil => rfl
  | cons e es ih => rw [List.foldr_cons, ih, List.map_cons]

namespace Registry

variable {r : Registry} {a : Alias} {tier : Tier}

/-- Whether every connection is registered under its own alias. -/
def Named (r : Registry) : Prop :=
  ∀ (name : String) (c : Connection), r.connections[name]? = some c → c.name.name = name

theorem Named.add (hr : r.Named) {c : Connection} {r' : Registry} (h : r.add c = .ok r') :
    r'.Named := by
  rw [Registry.add] at h
  split at h
  · cases h
  · cases h
    intro name k hk
    rw [getElem?_insert_eq] at hk
    split at hk
    · next hname =>
      cases hk
      exact hname.symm
    · exact hr name k hk

theorem named_of_ofList {cs : List Connection} (h : ofList cs = .ok r) : r.Named :=
  foldlM_invariant (I := Named) (fun _ _ _ _ hb hstep => Named.add hb hstep)
    (fun _ _ h => by cases h) h

/-- A connection is found under the alias that it has. -/
theorem resolve_name (hr : r.Named) {name : String} {c : Connection} (h : r.resolve name = .ok c) :
    r.resolve c.name.name = .ok c := by
  rw [resolve] at h
  split at h
  · next k hk =>
    cases h
    rw [hr name c hk, resolve, hk]
  · cases h

theorem mem_aliasesOf (hr : r.Named) :
    a ∈ r.aliasesOf tier ↔ ∃ c, r.resolve a.name = .ok c ∧ c.tier = tier := by
  have hresolve : ∀ c, r.resolve a.name = .ok c ↔ r.connections[a.name]? = some c := by
    intro c
    rw [resolve]
    cases r.connections[a.name]? <;> simp
  simp only [hresolve, aliasesOf, toList, values_eq, List.mem_map, List.mem_filter, Prod.exists,
    exists_eq_right, beq_iff_eq, Prod.exists]
  constructor
  · rintro ⟨c, ⟨⟨name, hmem⟩, htier⟩, rfl⟩
    have hc := TreeMap.mem_toList_iff_getElem?_eq_some.mp hmem
    exact ⟨c, (hr name c hc).symm ▸ hc, htier⟩
  · rintro ⟨c, hc, htier⟩
    refine ⟨c, ⟨⟨a.name, TreeMap.mem_toList_iff_getElem?_eq_some.mpr hc⟩, htier⟩, ?_⟩
    obtain ⟨name, _⟩ := a
    obtain ⟨⟨name', _⟩, _, _, _, _, _⟩ := c
    obtain rfl : name' = name := hr _ _ hc
    rfl

/-- The aliases of a tier are those of different connections. -/
theorem nodup_aliasesOf (hr : r.Named) (tier : Tier) : (r.aliasesOf tier).Nodup := by
  rw [aliasesOf, toList, values_eq]
  refine List.pairwise_map.mpr (List.Pairwise.filter _ (List.pairwise_map.mpr ?_))
  refine r.connections.ordered_keys_toList.imp_of_mem fun {d e} hd he hlt heq => ?_
  have hname : ∀ f ∈ r.connections.toList, f.2.name.name = f.1 := fun f hf =>
    hr f.1 f.2 (TreeMap.mem_toList_iff_getElem?_eq_some.mp hf)
  rw [← hname d hd, ← hname e he, heq] at hlt
  exact Std.OrientedCmp.not_lt_of_lt hlt hlt

end Registry

end TierLineage
