import Mathlib.Data.List.Nodup
import TierLineage.Proofs.Catalog.Placed
import TierLineage.Proofs.Service.Errand

/-!
# The sides of a hop

What the visits of errands find while nothing changes.  A connection that answers tells its tables
in order, each of them its own, and the columns of each.  So the two sides of a hop are drawn from
the listings of the connections of its tiers that answer, and no source table is among them twice.
-/

namespace TierLineage

open TierLineage.Mappings

/-- A service whose connections were registered and whose catalog was built. -/
structure World.Regular (w : World) : Prop where
  registry : ∃ cs, Registry.ofList cs = .ok w.registry
  catalog : w.surroundings.catalog.Static

namespace Mappings

variable {e : Engine} {r : Registry} {s : Surroundings} {a : Alias}

/-! ### Listings of one connection -/

theorem steady_listTables (e : Engine) (a : Alias) : (listTables e a).Steady :=
  Visit.steady_call e.catalogTimeout "list_tables" a _

theorem steady_listColumns (e : Engine) (a : Alias) (t : Table) : (listColumns e a t).Steady :=
  Visit.steady_call e.catalogTimeout "list_columns" a _

/-- A listing tells what the catalog holds. -/
theorem tables_of_listTables {ts : List Table} (h : (listTables e a).found s = .ok ts) :
    s.catalog.tables a = .ok ts :=
  Visit.ok_of_found_call h

/-- A table with its columns. -/
def withColumns (e : Engine) (a : Alias) (t : Table) : Visit Listed := do
  return ⟨t, ← listColumns e a t⟩

theorem steady_withColumns (e : Engine) (a : Alias) (t : Table) : (withColumns e a t).Steady :=
  (steady_listColumns e a t).bind fun _ => Visit.steady_pure _

theorem load_eq (e : Engine) (a : Alias) : load e a = listTables e a >>= fun ts =>
    Visit.allInWindow e.workerPoolSize (ts.map (withColumns e a)) := rfl

theorem steady_allWithColumns (e : Engine) (a : Alias) (ts : List Table) :
    ∀ v ∈ ts.map (withColumns e a), v.Steady := by
  intro v hv
  obtain ⟨t, -, rfl⟩ := List.mem_map.mp hv
  exact steady_withColumns e a t

theorem steady_load (e : Engine) (a : Alias) : (load e a).Steady := by
  rw [load_eq]
  exact (steady_listTables e a).bind fun ts =>
    Visit.steady_allInWindow (steady_allWithColumns e a ts) _

/-- What is loaded of a connection are the tables of its listing. -/
theorem listTables_of_load {ls : List Listed} (h : (load e a).found s = .ok ls) :
    (listTables e a).found s = .ok (ls.map (·.table)) := by
  rw [load_eq, (steady_listTables e a).found_bind fun ts =>
    Visit.steady_allInWindow (steady_allWithColumns e a ts) _] at h
  obtain ⟨ts, hts, h⟩ := bind_eq_ok.mp h
  rw [Visit.found_allInWindow (steady_allWithColumns e a ts), List.mapM_map] at h
  -- each table was listed with its columns, and nothing else
  have htable : ∀ (t : Table) (x : Listed), (withColumns e a t).found s = .ok x → t = x.table := by
    intro t x hx
    rw [withColumns, (steady_listColumns e a t).found_bind fun _ => Visit.steady_pure _] at hx
    obtain ⟨cs, -, hx⟩ := bind_eq_ok.mp hx
    cases hx
    rfl
  have hmap : List.Forall₂ (· = ·) ts (ls.map (·.table)) :=
    List.forall₂_map_right_iff.mpr ((forall₂_of_mapM h).imp htable)
  rw [List.forall₂_eq_eq_eq] at hmap
  rw [hts, hmap]

/-- The columns of a table that is listed can be listed. -/
theorem exists_columns_of_tables {c : Catalog} {ts : List Table} (h : c.tables a = .ok ts) {t : Table}
    (ht : t ∈ ts) : ∃ cs, c.columns a t = .ok cs := by
  obtain ⟨k, hk, h⟩ := bind_eq_ok.mp h
  cases h
  have hmem := Std.TreeMap.mem_keys.mp ht
  refine ⟨k.tables[t], ?_⟩
  rw [Catalog.columns]
  refine bind_eq_ok.mpr ⟨k, hk, ?_⟩
  rw [Std.TreeMap.getElem?_eq_some_getElem hmem]
  rfl

/-- A connection that lists its tables is loaded. -/
theorem exists_load_of_listTables {ts : List Table} (h : (listTables e a).found s = .ok ts) :
    ∃ ls, (load e a).found s = .ok ls := by
  obtain ⟨hanswers, htables⟩ := Visit.found_call_eq_ok_iff.mp h
  rw [load_eq, (steady_listTables e a).found_bind fun ts =>
    Visit.steady_allInWindow (steady_allWithColumns e a ts) _, h]
  change ∃ ls, (Visit.allInWindow e.workerPoolSize (ts.map (withColumns e a))).found s = .ok ls
  rw [Visit.found_allInWindow (steady_allWithColumns e a ts), List.mapM_map]
  refine exists_mapM_eq_ok fun t ht => ?_
  -- the connection answers a call for columns as it answered the one for tables
  obtain ⟨cs, hcs⟩ := exists_columns_of_tables htables ht
  have hcolumns : (listColumns e a t).found s = .ok cs :=
    Visit.found_call_eq_ok_iff.mpr ⟨hanswers, hcs⟩
  refine ⟨⟨t, cs⟩, ?_⟩
  change (withColumns e a t).found s = _
  rw [withColumns, (steady_listColumns e a t).found_bind fun _ => Visit.steady_pure _, hcolumns]
  rfl

/-! ### Both sides -/

/-- What is loaded of connections while nothing changes. -/
def loadedOf (e : Engine) (s : Surroundings) (as : List Alias) : List Loaded :=
  as.map fun a => (a, (load e a).found s)

/-- The two sides of a hop from what was loaded of the connections of both tiers. -/
def sidesOf (sources : Nat) (loaded : List Loaded) : Sides × List PartFailure :=
  (⟨answered (loaded.take sources), answered (loaded.drop sources)⟩, unanswered loaded)

theorem gather_eq (e : Engine) (r : Registry) (hop : Hop) : gather e r hop =
    Visit.window e.workerPoolSize
      ((r.aliasesOf hop.start ++ r.aliasesOf hop.target).map (load e)) >>= fun results =>
        pure (sidesOf (r.aliasesOf hop.start).length
          ((r.aliasesOf hop.start ++ r.aliasesOf hop.target).zip results)) := rfl

theorem steady_allLoads (e : Engine) (as : List Alias) : ∀ v ∈ as.map (load e), v.Steady := by
  intro v hv
  obtain ⟨a, -, rfl⟩ := List.mem_map.mp hv
  exact steady_load e a

theorem steady_gather (e : Engine) (r : Registry) (hop : Hop) : (gather e r hop).Steady := by
  rw [gather_eq]
  exact (Visit.steady_window (steady_allLoads e _) _).bind fun _ => Visit.steady_pure _

/-- The sides of a hop while nothing changes. -/
def sides (e : Engine) (r : Registry) (s : Surroundings) (hop : Hop) : Sides where
  sources := answered (loadedOf e s (r.aliasesOf hop.start))
  targets := answered (loadedOf e s (r.aliasesOf hop.target))

/-- Gathering always ends: connections that do not answer are reported. -/
theorem found_gather (e : Engine) (r : Registry) (hop : Hop) (s : Surroundings) :
    (gather e r hop).found s = .ok (sides e r s hop,
      unanswered (loadedOf e s (r.aliasesOf hop.start ++ r.aliasesOf hop.target))) := by
  rw [gather_eq, Visit.Steady.found_bind (Visit.steady_window (steady_allLoads e _) _)
    fun _ => Visit.steady_pure _, Visit.found_window (steady_allLoads e _), List.map_map]
  change Except.ok _ = _
  rw [← List.map_prod_left_eq_zip]
  simp only [sides, loadedOf, List.map_append, Function.comp_apply, sidesOf]
  rw [List.take_left' (List.length_map _), List.drop_left' (List.length_map _)]

theorem answered_cons (a : Alias) (as : List Alias) : answered (loadedOf e s (a :: as)) =
    answered (loadedOf e s [a]) ++ answered (loadedOf e s as) := by
  simp only [answered, loadedOf, List.map_cons, List.map_nil, List.flatMap_cons, List.flatMap_nil,
    List.append_nil]

theorem answered_ok {ls : List Listed} (h : (load e a).found s = .ok ls) :
    answered (loadedOf e s [a]) = ls := by
  simp only [answered, loadedOf, List.map_cons, List.map_nil, List.flatMap_cons, List.flatMap_nil,
    List.append_nil, h]

theorem answered_error {f : Failure} (h : (load e a).found s = .error f) :
    answered (loadedOf e s [a]) = [] := by
  simp only [answered, loadedOf, List.map_cons, List.map_nil, List.flatMap_cons, List.flatMap_nil,
    List.append_nil, h]

theorem mem_answered {as : List Alias} {x : Listed} : x ∈ answered (loadedOf e s as) ↔
    ∃ a ∈ as, ∃ ls, (load e a).found s = .ok ls ∧ x ∈ ls := by
  rw [answered, loadedOf, List.flatMap_map, List.mem_flatMap]
  refine exists_congr fun a => and_congr_right fun _ => ?_
  cases (load e a).found s <;> simp

/-! ### Two connections -/

/-- What two connections hold, and the hop between them. -/
def loadBoth (e : Engine) (source target : Connection) (hop : Hop) : Visit (Hop × Sides) := do
  let sources ← load e source.name
  let targets ← load e target.name
  return (hop, ⟨sources, targets⟩)

theorem between_eq (e : Engine) (r : Registry) (source target : String) :
    between e r source target =
      Visit.ofOutcome ((r.resolve source).mapError .refused) >>= fun s =>
        Visit.ofOutcome ((r.resolve target).mapError .refused) >>= fun t =>
          Visit.ofOutcome (hopBetween s t) >>= loadBoth e s t := rfl

theorem steady_loadBoth (e : Engine) (source target : Connection) (hop : Hop) :
    (loadBoth e source target hop).Steady :=
  (steady_load e source.name).bind fun _ => (steady_load e target.name).bind fun _ =>
    Visit.steady_pure _

theorem steady_between (e : Engine) (r : Registry) (source target : String) :
    (between e r source target).Steady := by
  rw [between_eq]
  exact (Visit.steady_ofOutcome _).bind fun s => (Visit.steady_ofOutcome _).bind fun t =>
    (Visit.steady_ofOutcome _).bind (steady_loadBoth e s t)

/-- What is found between two connections: they are registered, and loaded. -/
theorem between_spec {source target : String} {hop : Hop} {d : Sides}
    (h : (between e r source target).found s = .ok (hop, d)) : ∃ c k,
      r.resolve source = .ok c ∧ r.resolve target = .ok k ∧ hopBetween c k = .ok hop ∧
        (load e c.name).found s = .ok d.sources ∧ (load e k.name).found s = .ok d.targets := by
  rw [between_eq, (Visit.steady_ofOutcome _).found_bind fun c =>
    (Visit.steady_ofOutcome _).bind fun k => (Visit.steady_ofOutcome _).bind (steady_loadBoth e c k),
    Visit.found_ofOutcome] at h
  obtain ⟨c, hc, h⟩ := bind_eq_ok.mp h
  rw [(Visit.steady_ofOutcome _).found_bind fun k =>
    (Visit.steady_ofOutcome _).bind (steady_loadBoth e c k), Visit.found_ofOutcome] at h
  obtain ⟨k, hk, h⟩ := bind_eq_ok.mp h
  rw [(Visit.steady_ofOutcome _).found_bind (steady_loadBoth e c k), Visit.found_ofOutcome] at h
  obtain ⟨hop', hhop, h⟩ := bind_eq_ok.mp h
  rw [loadBoth, (steady_load e c.name).found_bind fun _ => (steady_load e k.name).bind fun _ =>
    Visit.steady_pure _] at h
  obtain ⟨sources, hsources, h⟩ := bind_eq_ok.mp h
  rw [(steady_load e k.name).found_bind fun _ => Visit.steady_pure _] at h
  obtain ⟨targets, htargets, h⟩ := bind_eq_ok.mp h
  cases h
  exact ⟨c, k, ok_of_mapError hc, ok_of_mapError hk, hhop, hsources, htargets⟩

/-- A hop between two connections leads from the tier of the one to that of the other. -/
theorem tiers_of_hopBetween {c k : Connection} {hop : Hop} (h : hopBetween c k = .ok hop) :
    c.tier = hop.start ∧ k.tier = hop.target := by
  rw [hopBetween] at h
  split at h
  · next heq =>
    cases h
    -- only neighbours in the flow have a hop between them
    cases hc : c.tier <;> cases hk : k.tier <;> rw [hc, hk] at heq <;> cases heq <;>
      exact ⟨rfl, rfl⟩
  · cases h

end Mappings

/-! ### What the sides are drawn from -/

/-- Whether a table is listed by a connection of a tier. -/
def World.Lists (w : World) (tier : Tier) (t : Table) : Prop :=
  t.connection ∈ w.registry.aliasesOf tier ∧
    ∃ ts, (listTables w.engine t.connection).found w.surroundings = .ok ts ∧ t ∈ ts

/-- Whether the sides of a hop consist of tables that the connections of its tiers list. -/
structure Sides.Drawn (d : Sides) (w : World) (hop : Hop) : Prop where
  sources : ∀ x ∈ d.sources, w.Lists hop.start x.table
  targets : ∀ x ∈ d.targets, w.Lists hop.target x.table

namespace World.Regular

variable {w : World}

theorem named (hw : w.Regular) : w.registry.Named := by
  obtain ⟨cs, hcs⟩ := hw.registry
  exact Registry.named_of_ofList hcs

/-- What is loaded of a connection are its own tables, in their order. -/
theorem load_spec (hw : w.Regular) {a : Alias} {ls : List Listed}
    (h : (load w.engine a).found w.surroundings = .ok ls) :
    (ls.map (·.table)).Pairwise (compare · · = .lt) ∧ ∀ x ∈ ls, x.table.connection = a := by
  have hlist := tables_of_listTables (listTables_of_load h)
  obtain ⟨hsorted, hown⟩ := Catalog.All.tables hw.catalog.placed hlist
  exact ⟨hsorted, fun x hx => hown _ (List.mem_map.mpr ⟨x, hx, rfl⟩)⟩

theorem lists_of_load (hw : w.Regular) {tier : Tier} {a : Alias} {ls : List Listed} {x : Listed}
    (ha : a ∈ w.registry.aliasesOf tier) (h : (load w.engine a).found w.surroundings = .ok ls)
    (hx : x ∈ ls) : w.Lists tier x.table := by
  have hlist := listTables_of_load h
  rw [← (hw.load_spec h).2 x hx] at ha hlist
  exact ⟨ha, _, hlist, List.mem_map_of_mem hx⟩

/-- The tables of connections that answer are different ones. -/
theorem nodup_answered (hw : w.Regular) {as : List Alias} (has : as.Nodup) :
    ((answered (loadedOf w.engine w.surroundings as)).map (·.table)).Nodup := by
  -- a table tells the connection that it was loaded of
  have hown : ∀ {as : List Alias} {t : Table},
      t ∈ (answered (loadedOf w.engine w.surroundings as)).map (·.table) → t.connection ∈ as := by
    intro as t ht
    obtain ⟨x, hx, rfl⟩ := List.mem_map.mp ht
    obtain ⟨a, ha, ls, hload, hx⟩ := mem_answered.mp hx
    exact (hw.load_spec hload).2 x hx ▸ ha
  induction as with
  | nil => exact List.nodup_nil
  | cons a as ih =>
    obtain ⟨ha, has⟩ := List.nodup_cons.mp has
    rw [answered_cons, List.map_append]
    refine List.Nodup.append ?_ (ih has) fun t hta htas => ?_
    · cases hload : (load w.engine a).found w.surroundings with
      | error f =>
        rw [answered_error hload]
        exact List.nodup_nil
      | ok ls =>
        rw [answered_ok hload]
        refine (hw.load_spec hload).1.imp fun {t u} hlt heq => ?_
        rw [heq] at hlt
        exact Std.OrientedCmp.not_lt_of_lt hlt hlt
    · exact ha (List.mem_singleton.mp (hown hta) ▸ hown htas)

/-- The sides of a hop are drawn from its connections. -/
theorem drawn_sides (hw : w.Regular) (hop : Hop) :
    (sides w.engine w.registry w.surroundings hop).Drawn w hop := by
  refine ⟨fun x hx => ?_, fun x hx => ?_⟩
  all_goals
    obtain ⟨a, ha, ls, hload, hx⟩ := mem_answered.mp hx
    exact hw.lists_of_load ha hload hx

/-- The tables of two connections are drawn from them. -/
theorem drawn_between (hw : w.Regular) {source target : String} {hop : Hop} {d : Sides}
    (h : (between w.engine w.registry source target).found w.surroundings = .ok (hop, d)) :
    d.Drawn w hop := by
  obtain ⟨c, k, hc, hk, hhop, hsources, htargets⟩ := between_spec h
  obtain ⟨hstart, htarget⟩ := tiers_of_hopBetween hhop
  have hlisted : ∀ {c : Connection} {name : String}, w.registry.resolve name = .ok c →
      c.name ∈ w.registry.aliasesOf c.tier := fun {c name} h =>
    (Registry.mem_aliasesOf hw.named).mpr ⟨c, Registry.resolve_name hw.named h, rfl⟩
  exact ⟨fun x hx => hw.lists_of_load (hstart ▸ hlisted hc) hsources hx,
    fun x hx => hw.lists_of_load (htarget ▸ hlisted hk) htargets hx⟩

/-- The source tables of a hop are different ones. -/
theorem nodup_sources (hw : w.Regular) (hop : Hop) :
    ((sides w.engine w.registry w.surroundings hop).sources.map (·.table)).Nodup :=
  hw.nodup_answered (Registry.nodup_aliasesOf hw.named hop.start)

end World.Regular

end TierLineage
