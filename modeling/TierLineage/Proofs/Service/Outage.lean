import TierLineage.Proofs.Config.LeftOut
import TierLineage.Proofs.Service.Current
import TierLineage.Proofs.Service.Gathering

/-!
# Outages

Connections fail when they are asked for their tables, or for the columns of one of them, maybe after
others were told.  What is gathered of a hop is then what is gathered without them: the connections
that answer are asked as before, in a window in which everyone waits for a turn, and the results are
told apart by their places.  What is done with the sides of a hop depends on the connections only by
how source tables name their targets, so it is the same with and without those that fail.
-/

namespace TierLineage

open TierLineage.Mappings

/-! ### Connections that answer, and others -/

namespace Mappings.Access

variable {c : Access} {e : Engine} {view : View} {k : Catalog} {a : Alias}

/-- Whether a connection fails: it never tells its tables and the columns of each of them. -/
def Down (c : Access) (view : View) (a : Alias) : Prop :=
  ∀ t ts, (c.tables a view t).1 = .ok ts → ∃ u ∈ ts, (c.columns a u).Fails view

/-- Whether a connection tells what it holds in a catalog. -/
structure Tells (c : Access) (view : View) (k : Catalog) (a : Alias) : Prop where
  tables : (c.tables a).Finds view (k.tables a)
  columns : ∀ t, (c.columns a t).Finds view (k.columns a t)

/-- What a connection holds in a catalog. -/
def held (k : Catalog) (a : Alias) : Outcome (List Listed) := do
  let ts ← k.tables a
  ts.mapM fun t => do return ⟨t, ← k.columns a t⟩

/-- A connection that fails is not loaded. -/
theorem Down.fails_load (h : c.Down view a) : (c.load e a).Fails view := by
  intro t
  rw [load_eq]
  change ∃ f, (Visit.bind (c.tables a) _ view t).1 = .error f
  rw [Visit.bind]
  have htables := h t
  cases hfound : c.tables a view t with
  | mk result t' =>
    rw [hfound] at htables
    cases result with
    | error f => exact ⟨f, rfl⟩
    | ok ts =>
      obtain ⟨u, hu, hcolumns⟩ := htables ts rfl
      refine Visit.fails_allInWindow (List.mem_map_of_mem hu) (fun t'' => ?_) e.workerPoolSize t'
      obtain ⟨f, hf⟩ := hcolumns t''
      refine ⟨f, ?_⟩
      change (Visit.bind (c.columns a u) _ view t'').1 = .error f
      rw [Visit.bind, ← Prod.eta (c.columns a u view t''), hf]

/-- A connection that answers is loaded with what it holds. -/
theorem Tells.finds_load (h : c.Tells view k a) : (c.load e a).Finds view (held k a) := by
  refine h.tables.bind fun ts => ?_
  have hvisits : List.Forall₂ (fun v o => v.Finds view o) (ts.map (c.withColumns a))
      (ts.map fun t => do return ⟨t, ← k.columns a t⟩) := by
    refine List.forall₂_map_left_iff.mpr (List.forall₂_map_right_iff.mpr (List.forall₂_same.mpr ?_))
    exact fun t _ => (h.columns t).bind fun _ _ => rfl
  have hfinds := Visit.finds_allInWindow hvisits e.workerPoolSize
  rw [List.mapM_map] at hfinds
  exact hfinds

/-- Calls tell what is held, while all connections answer. -/
theorem tells_calls (e : Engine) (k : Catalog) (a : Alias) :
    (calls e).Tells (fun _ => ⟨k, Faults.none⟩) k a := by
  have hcall : ∀ {α : Type} (operation : String) (ask : Catalog → Outcome α),
      (Visit.call e.catalogTimeout operation a ask).Finds (fun _ => ⟨k, Faults.none⟩) (ask k) := by
    intro α operation ask t
    rw [Visit.call_fst]
    rfl
  exact ⟨hcall _ _, fun _ => hcall _ _⟩

/-- What a connection holds is there if its tables are. -/
theorem exists_held {ts : List Table} (h : k.tables a = .ok ts) : ∃ ls, held k a = .ok ls := by
  rw [held, h]
  refine exists_mapM_eq_ok fun t ht => ?_
  obtain ⟨cs, hcs⟩ := exists_columns_of_tables h ht
  exact ⟨⟨t, cs⟩, by rw [hcs]; rfl⟩

/-! ### Sides of a hop -/

/-- Whether a connection that is down was not loaded, and another one with what it holds. -/
def Loads (down : Alias → Bool) (k : Catalog) (x : Loaded) : Prop :=
  if down x.1 then ∃ f, x.2 = .error f else ∃ ls, held k x.1 = .ok ls ∧ x.2 = .ok ls

/-- What the connections hold that are not down. -/
def heldBy (down : Alias → Bool) (k : Catalog) (as : List Alias) : List Listed :=
  answered ((as.filter fun a => !down a).map fun a => (a, held k a))

variable {down : Alias → Bool} {loaded : List Loaded}

/-- What is held of a connection that is not down are its tables. -/
theorem mem_heldBy {as : List Alias} {x : Listed} (h : x ∈ heldBy down k as) :
    ∃ a, down a = false ∧ ∃ ts, k.tables a = .ok ts ∧ x.table ∈ ts := by
  rw [heldBy, answered, List.flatMap_map, List.mem_flatMap] at h
  obtain ⟨a, ha, hx⟩ := h
  refine ⟨a, by simpa using (List.mem_filter.mp ha).2, ?_⟩
  cases hheld : held k a with
  | error f =>
    rw [hheld] at hx
    cases hx
  | ok ls =>
    rw [hheld] at hx
    obtain ⟨ts, hts, hls⟩ := bind_eq_ok.mp hheld
    obtain ⟨t, ht, hcolumns⟩ := (mem_of_mapM hls).mp hx
    obtain ⟨cs, -, hlisted⟩ := bind_eq_ok.mp hcolumns
    cases hlisted
    exact ⟨ts, hts, ht⟩

/-- What was loaded of a connection, if it is not down. -/
theorem Loads.toOption_eq {x : Loaded} (h : Loads down k x) :
    x.2.toOption = (if down x.1 then none else (held k x.1).toOption) ∧
      x.2.toOption.isNone = down x.1 := by
  rw [Loads] at h
  split at h
  · next hdown =>
    obtain ⟨f, hf⟩ := h
    rw [hf, if_pos hdown, hdown]
    exact ⟨rfl, rfl⟩
  · next hdown =>
    obtain ⟨ls, hls, hloaded⟩ := h
    rw [hloaded, if_neg hdown, hls, Bool.eq_false_iff.mpr hdown]
    exact ⟨rfl, rfl⟩

theorem heldBy_eq (down : Alias → Bool) (k : Catalog) (as : List Alias) : heldBy down k as =
    loadedWith (fun a => if down a then none else (held k a).toOption) as := by
  rw [heldBy, answered, loadedWith, List.flatMap_map]
  induction as with
  | nil => rfl
  | cons a as ih =>
    rw [List.filter_cons, List.flatMap_cons, ← ih]
    cases down a with
    | true => rfl
    | false =>
      rw [Bool.not_false, if_pos rfl, List.flatMap_cons]
      cases held k a <;> rfl

/-- What is gathered of a hop is what the connections hold that are not down. -/
theorem gather_spec {r : Registry} {hop : Hop}
    (hload : ∀ a ∈ r.aliasesOf hop.start ++ r.aliasesOf hop.target, ∀ t,
      Loads down k (a, (c.load e a view t).1)) (t : Nat) :
    ∃ failures, (c.gather e r hop view t).1 = .ok
        (⟨heldBy down k (r.aliasesOf hop.start), heldBy down k (r.aliasesOf hop.target)⟩, failures) ∧
      failures.map (·.target) =
        ((r.aliasesOf hop.start ++ r.aliasesOf hop.target).filter down).map (·.name) := by
  have hyields : ∀ a ∈ r.aliasesOf hop.start ++ r.aliasesOf hop.target, (c.load e a).Yields view
      ((fun a => if down a then none else (held k a).toOption) a) := fun a ha t =>
    (hload a ha t).toOption_eq.1
  obtain ⟨failures, hgather, hfailures⟩ := gather_of_load hyields t
  refine ⟨failures, ?_, ?_⟩
  · rw [heldBy_eq, heldBy_eq]
    exact hgather
  · rw [hfailures]
    refine congrArg _ (List.filter_congr fun a ha => ?_)
    obtain ⟨hload, hdown⟩ := (hload a ha t).toOption_eq
    rw [← hload, hdown]

/-- A connection is loaded as it answers. -/
theorem loads_of_tells {ts : List Table} (htells : c.Tells view k a) (h : k.tables a = .ok ts)
    (hdown : down a = false) (t : Nat) : Loads down k (a, (c.load e a view t).1) := by
  obtain ⟨ls, hls⟩ := exists_held h
  rw [Loads, hdown, if_neg Bool.false_ne_true]
  exact ⟨ls, hls, (htells.finds_load t).trans hls⟩

theorem loads_of_down (h : c.Down view a) (hdown : down a = true) (t : Nat) :
    Loads down k (a, (c.load e a view t).1) := by
  rw [Loads, hdown, if_pos rfl]
  exact h.fails_load t

/-- While all connections answer, calls tell what they hold. -/
theorem gather_calls {r : Registry} {hop : Hop}
    (h : ∀ a ∈ r.aliasesOf hop.start ++ r.aliasesOf hop.target, ∃ ts, k.tables a = .ok ts) (t : Nat) :
    ((calls e).gather e r hop (fun _ => ⟨k, Faults.none⟩) t).1 =
      .ok (⟨heldBy (fun _ => false) k (r.aliasesOf hop.start),
        heldBy (fun _ => false) k (r.aliasesOf hop.target)⟩, []) := by
  obtain ⟨failures, hgather, hfailures⟩ := gather_spec (c := calls e) (e := e) (r := r)
    (fun a ha t => by
      obtain ⟨ts, hts⟩ := h a ha
      exact loads_of_tells (tells_calls e k a) hts rfl t) t
  have hnone : failures = [] := by simpa using hfailures
  rw [hgather, hnone]

/-- Without the connections that are down the others hold what they held. -/
theorem heldBy_aliasesOf {r r' : Registry} (h : r.Leaves down r') (hr : r.Named) (hr' : r'.Named)
    (tier : Tier) :
    heldBy (fun _ => false) k (r'.aliasesOf tier) = heldBy down k (r.aliasesOf tier) := by
  rw [heldBy, heldBy, h.aliasesOf_eq hr hr', Bool.not_false, List.filter_true]

end Mappings.Access

/-! ### Steps by what the store answers -/

namespace Mappings

variable {w : World} {hop : Hop} {source target : Table} {score : Number.Single}
  {ranking : List Ranked} {tie : Bool}

/-- What a step tells of confirming; a conflict leaves everything as it is. -/
def AutoMapStep.ofConfirming : Outcome Confirmation → Outcome AutoMapStep
  | .ok c => .ok (.ofConfirmation c)
  | .error (.conflict _) => .ok .untouched
  | .error f => .error f

/-- What a step tells of recording. -/
def AutoMapStep.ofRecording (count : Nat) (tie : Bool) : Outcome Bool → Outcome AutoMapStep
  | .ok true => .ok (.recorded count tie)
  | .ok false => .ok .untouched
  | .error f => .error f

/-- Confirming automatically tells and leaves what the store does. -/
theorem autoConfirm_eq_map (w : World) (hop : Hop) (source target : Table) (score : Number.Single) :
    autoConfirm w hop source target score =
      (w.store.confirm (.decided w.supply.stamp hop source target score .auto none) .refreshAuto).map
        AutoMapStep.ofConfirming { w with supply := w.supply.advance 1 }.withStore := by
  cases hc : w.store.confirm (.decided w.supply.stamp hop source target score .auto none)
    .refreshAuto with
  | mk result s' =>
    have hc' : { w with supply := w.supply.advance 1 }.store.confirm
      (.decided w.supply.stamp hop source target score .auto none) .refreshAuto = (result, s') := hc
    rw [autoConfirm, hc']
    cases result with
    | ok c => cases c <;> rfl
    | error f => cases f <;> rfl

/-- Recording candidates tells and leaves what the store does. -/
theorem autoRecord_eq_map
    (h : ¬ (Proposal.candidates w.engine hop source ranking w.supply).isEmpty = true) :
    autoRecord w hop source ranking tie =
      (w.store.record ⟨hop, source⟩ (Proposal.candidates w.engine hop source ranking w.supply)).map
        (AutoMapStep.ofRecording (Proposal.candidates w.engine hop source ranking w.supply).length tie)
        { w with
          supply := w.supply.advance
            (Proposal.candidates w.engine hop source ranking w.supply).length }.withStore := by
  cases hc : w.store.record ⟨hop, source⟩
    (Proposal.candidates w.engine hop source ranking w.supply) with
  | mk result s' =>
    have hc' : ∀ n, { w with supply := w.supply.advance n }.store.record ⟨hop, source⟩
      (Proposal.candidates w.engine hop source ranking w.supply) = (result, s') := fun _ => hc
    rw [autoRecord, if_neg h, hc']
    rcases result with f | _ | _ <;> rfl

end Mappings

/-! ### Work elsewhere -/

/-- A service with other connections, in other surroundings. -/
def World.elsewhere (w : World) (r : Registry) (s : Surroundings) (clock : Nat) : World :=
  { w with registry := r, surroundings := s, clock := clock }

/-- A report with other failures. -/
def AutoMapReport.failing (failures : List PartFailure) (r : AutoMapReport) : AutoMapReport :=
  { r with failures := failures }

namespace Mappings

variable {w : World} {r : Registry} {s : Surroundings} {clock : Nat} {hop : Hop}
  {sources targets : List Listed} {x : Listed}

/-- How targets are named is told by the connection of their source table. -/
theorem convention_congr {r r' : Registry} {t : Table}
    (h : r'.resolve t.connection.name = r.resolve t.connection.name) :
    Proposal.convention r' hop t = Proposal.convention r hop t := by
  unfold Proposal.convention
  rw [h]

/-- The ranking of a source table depends on the connections by the names of its targets only. -/
theorem ranking_congr {e : Engine} {r r' : Registry}
    (h : Proposal.convention r hop x.table = Proposal.convention r' hop x.table) :
    Proposal.ranking e r hop targets x = Proposal.ranking e r' hop targets x := by
  rw [Proposal.ranking, Proposal.ranking, h]

/-- Automatic mapping of a source table is the same elsewhere, where its targets are named as here. -/
theorem autoMapOne_elsewhere
    (h : Proposal.convention r hop x.table = Proposal.convention w.registry hop x.table) :
    autoMapOne (w.elsewhere r s clock) hop targets x =
      (autoMapOne w hop targets x).map id (·.elsewhere r s clock) := by
  have hranking : Proposal.ranking (w.elsewhere r s clock).engine (w.elsewhere r s clock).registry hop
      targets x = Proposal.ranking w.engine w.registry hop targets x := ranking_congr h
  have hengine : (w.elsewhere r s clock).engine = w.engine := rfl
  rw [autoMapOne, autoMapOne, hranking, hengine]
  cases Proposal.decide w.engine (Proposal.ranking w.engine w.registry hop targets x) with
  | confirm target score =>
    dsimp only
    rw [autoConfirm_eq_map, autoConfirm_eq_map]
    rfl
  | record ranking tie =>
    dsimp only
    by_cases hempty : (Proposal.candidates w.engine hop x.table ranking w.supply).isEmpty = true
    · have helsewhere : (Proposal.candidates (w.elsewhere r s clock).engine hop x.table ranking
        (w.elsewhere r s clock).supply).isEmpty = true := hempty
      rw [autoRecord, if_pos helsewhere, autoRecord, if_pos hempty]
      rfl
    · rw [autoRecord_eq_map hempty]
      exact autoRecord_eq_map (w := w.elsewhere r s clock) hempty

/-- So is automatic mapping of source tables, whatever failures are reported. -/
theorem autoMapAll_elsewhere (targets : List Listed) (s : Surroundings) (clock : Nat)
    (h : ∀ x ∈ sources, Proposal.convention r hop x.table = Proposal.convention w.registry hop x.table)
    (failures : List PartFailure) (report : AutoMapReport) :
    autoMapAll hop targets (w.elsewhere r s clock) sources (report.failing failures) =
      (autoMapAll hop targets w sources report).map (Except.map (AutoMapReport.failing failures))
        (·.elsewhere r s clock) := by
  induction sources generalizing w report with
  | nil => rfl
  | cons x rest ih =>
    obtain ⟨hx, hrest⟩ := List.forall_mem_cons.mp h
    rw [autoMapAll, autoMapAll, autoMapOne_elsewhere hx]
    cases hone : autoMapOne w hop targets x with
    | mk result w' =>
      cases result with
      | error f => rfl
      | ok step =>
        have hregistry : w'.registry = w.registry := by
          have hperform : (Deed.auto hop targets x).perform w = w' := congrArg Prod.snd hone
          rw [← hperform, Deed.perform_eq]
          rfl
        have hadd : AutoMapReport.add (report.failing failures) step =
            (AutoMapReport.add report step).failing failures := by
          cases step <;> rfl
        change autoMapAll hop targets (w'.elsewhere r s clock) rest
          (AutoMapReport.add (report.failing failures) step) = _
        rw [hadd]
        exact ih (hregistry ▸ hrest) _

/-- Mapping source tables leaves the failures of a report as they are. -/
theorem failures_of_autoMapAll {report report' : AutoMapReport}
    (h : (autoMapAll hop targets w sources report).1 = .ok report') :
    report'.failures = report.failures := by
  induction sources generalizing w report with
  | nil =>
    cases h
    rfl
  | cons x rest ih =>
    rw [autoMapAll] at h
    cases hone : autoMapOne w hop targets x with
    | mk result w' =>
      rw [hone] at h
      cases result with
      | error f => cases h
      | ok step =>
        refine (ih h).trans ?_
        cases step <;> rfl

/-- What is proposed of the sides of a hop depends on the connections by the names of targets only. -/
theorem propose_congr {e : Engine} {r r' : Registry} {d : Sides}
    (h : ∀ x ∈ d.sources, Proposal.convention r hop x.table = Proposal.convention r' hop x.table)
    (supply : Supply) : Proposal.propose e r hop d supply = Proposal.propose e r' hop d supply := by
  rw [Proposal.propose, Proposal.propose]
  refine List.foldl_ext _ _ _ fun ms x hx => ?_
  rw [ranking_congr (h x hx)]

end Mappings

/-! ### Runs with an outage and without -/

namespace Errand

/-- Propose targets for all source tables of a hop, asking the connections in some way. -/
def suggestBy (c : Engine → Access) (hop : Hop) : Errand Suggestions where
  visit e r := (c e).gather e r hop
  act := (suggest hop).act

/-- Map all source tables of a hop, asking the connections in some way. -/
def autoMapBy (c : Engine → Access) (hop : Hop) : Errand AutoMapReport where
  visit e r := (c e).gather e r hop
  act := (autoMap hop).act

theorem suggest_eq (hop : Hop) : suggest hop = suggestBy calls hop := rfl

theorem autoMap_eq (hop : Hop) : autoMap hop = autoMapBy calls hop := rfl

end Errand

/-- Whether aliases are those of the connections of a tier that are down, in order. -/
structure Registry.DownOf (r : Registry) (down : Alias → Bool) (tier : Tier) (as : List Alias) :
    Prop where
  sorted : as.Pairwise (compare · · = .lt)
  mem_iff : ∀ a, a ∈ as ↔ down a = true ∧ ∃ c, r.resolve a.name = .ok c ∧ c.tier = tier

theorem Registry.Named.downOf {r : Registry} (hr : r.Named) (down : Alias → Bool) (tier : Tier) :
    r.DownOf down tier ((r.aliasesOf tier).filter down) where
  sorted := (sorted_aliasesOf hr tier).filter _
  mem_iff a := by rw [List.mem_filter, mem_aliasesOf hr, and_comm]

/-- **An outage stays where it is.**  Some connections of a hop are down, so that the listing of
their tables fails or that of the columns of one of them, and the others tell what the catalog holds.
Then proposing and automatic mapping do what they do in a service in which the connections that are
down are not registered and all others answer: the candidates are the same up to marks, and with the
same supply of marks so are the store and the report.  The failures name the connections of the hop
that are down, each of them once, those of its start first, and in the order of their aliases. -/
theorem Errand.outage_isolated {cs : List Connection} {w : World}
    (hregistry : Registry.ofList cs = .ok w.registry) (hcatalog : w.surroundings.catalog.Static)
    (c : Engine → Access) (down : Alias → Bool) (hop : Hop)
    (hdown : ∀ a ∈ w.registry.aliasesOf hop.start ++ w.registry.aliasesOf hop.target,
      down a = true → (c w.engine).Down (fun _ => w.surroundings) a)
    (hup : ∀ a ∈ w.registry.aliasesOf hop.start ++ w.registry.aliasesOf hop.target,
      down a = false → (c w.engine).Tells (fun _ => w.surroundings) w.surroundings.catalog a ∧
        ∃ ts, w.surroundings.catalog.tables a = .ok ts) :
    ∃ r as bs failures, Registry.ofList (cs.filter fun k => !down k.name) = .ok r ∧
      w.registry.DownOf down hop.start as ∧ w.registry.DownOf down hop.target bs ∧
      failures.map (·.target) = (as ++ bs).map (·.name) ∧
      ∀ clock,
        (∀ supply, ∃ ms ms' w₁ v₁, (suggestBy c hop).run w = (.ok ⟨ms, failures⟩, w₁) ∧
          (suggest hop).run { w.elsewhere r ⟨w.surroundings.catalog, Faults.none⟩ clock with
            supply := supply } = (.ok ⟨ms', []⟩, v₁) ∧
          ms.map Mapping.unmarked = ms'.map Mapping.unmarked) ∧
        ∃ o v₁ clock', (autoMapBy c hop).run w =
            (o.map (AutoMapReport.failing failures),
              v₁.elsewhere w.registry w.surroundings clock') ∧
          (autoMap hop).run (w.elsewhere r ⟨w.surroundings.catalog, Faults.none⟩ clock) = (o, v₁) ∧
          ∀ report, o = .ok report → report.failures = [] := by
  have hnamed := Registry.named_of_ofList hregistry
  obtain ⟨r, hr, hleaves⟩ := Registry.exists_leaves hregistry
  have hnamed' := Registry.named_of_ofList hr
  let k := w.surroundings.catalog
  -- with the outage, and without the connections that are down
  obtain ⟨failures, hgather, hfailures⟩ := Access.gather_spec (fun a ha t => by
    cases hd : down a with
    | true => exact Access.loads_of_down (e := w.engine) (k := k) (hdown a ha hd) hd t
    | false =>
      obtain ⟨htells, ts, hts⟩ := hup a ha hd
      exact Access.loads_of_tells htells hts hd t) w.clock
  have hhealthy : ∀ a ∈ r.aliasesOf hop.start ++ r.aliasesOf hop.target,
      ∃ ts, k.tables a = .ok ts := by
    intro a ha
    rw [hleaves.aliasesOf_eq hnamed hnamed', hleaves.aliasesOf_eq hnamed hnamed',
      ← List.filter_append] at ha
    obtain ⟨ha, hd⟩ := List.mem_filter.mp ha
    exact (hup a ha (by simpa using hd)).2
  have hgather' := Access.gather_calls (e := w.engine) hhealthy
  simp only [Access.heldBy_aliasesOf hleaves hnamed hnamed'] at hgather'
  let d : Sides := ⟨Access.heldBy down k (w.registry.aliasesOf hop.start),
    Access.heldBy down k (w.registry.aliasesOf hop.target)⟩
  have hconvention : ∀ x ∈ d.sources, Proposal.convention w.registry hop x.table =
      Proposal.convention r hop x.table := by
    intro x hx
    obtain ⟨a, hd, ts, hts, hx⟩ := Access.mem_heldBy hx
    obtain rfl := (Catalog.All.tables hcatalog.placed hts).2 _ hx
    exact convention_congr (hleaves.resolve_eq hnamed hd).symm
  refine ⟨r, _, _, failures, hr, hnamed.downOf down hop.start, hnamed.downOf down hop.target,
    by rw [hfailures, List.filter_append], fun clock => ⟨fun supply => ?_, ?_⟩⟩
  · obtain ⟨moment, hrun⟩ := Errand.exists_run_of_fst (q := .suggestBy c hop) hgather
    obtain ⟨moment', hrun'⟩ := Errand.exists_run_of_fst (q := .suggest hop)
      (w := { w.elsewhere r ⟨k, Faults.none⟩ clock with supply := supply }) (hgather' clock)
    refine ⟨_, _, _, _, hrun, hrun', ?_⟩
    have hmarks := Proposal.propose_unmarked w.engine r hop d
    have hsame := congrArg (fun p : List Mapping × Supply => p.1.map Mapping.unmarked)
      (propose_congr (e := w.engine) hconvention w.supply)
    exact hsame.trans ((hmarks w.supply supply).trans (hmarks supply supply).symm)
  · obtain ⟨moment, hrun⟩ := Errand.exists_run_of_fst (q := .autoMapBy c hop) hgather
    obtain ⟨moment', hrun'⟩ := Errand.exists_run_of_fst (q := .autoMap hop)
      (w := w.elsewhere r ⟨k, Faults.none⟩ clock) (hgather' clock)
    have hsame := autoMapAll_elsewhere (w := w.elsewhere r ⟨k, Faults.none⟩ moment') d.targets
      w.surroundings moment hconvention failures ⟨0, 0, d.sources.length, 0, 0, []⟩
    exact ⟨_, _, moment, hrun.trans hsame, hrun', fun report hreport =>
      failures_of_autoMapAll hreport⟩

/-! ### Samples -/

/-- Calls that tell the tables of one connection and fail when they are asked for the columns. -/
def brokenCalls (e : Engine) : Access where
  tables := listTables e
  columns a t :=
    if a = Warehouse.crm then
      Visit.fail (.catalog (.unreachable a.name "connection refused"))
    else listColumns e a t

/-- The connections of a service with two sources. -/
def outageConnections : List Connection :=
  [.plain Warehouse.crm .source, .plain Warehouse.erp .source, .plain Warehouse.stage .stage]

/-- A service with a table of each connection. -/
def outageShop : World :=
  let registry : Registry := ⟨(((∅ : Std.TreeMap String Connection).insert "crm"
    (.plain Warehouse.crm .source)).insert "erp" (.plain Warehouse.erp .source)).insert "stage"
      (.plain Warehouse.stage .stage)⟩
  let tables : List Table := [⟨Warehouse.crm, "", "dbo", "contacts"⟩,
    ⟨Warehouse.erp, "", "dbo", "orders"⟩, ⟨Warehouse.stage, "", "dbo", "orders"⟩]
  .idle registry Engine.standard (tables.foldl (fun c t => c.insertTable t []) .empty)
    (.empty .memory) .absent ⟨0, ⟨0, 0⟩⟩

/-- The connections of a hop from the sources. -/
theorem aliases_outageShop : outageShop.registry.aliasesOf Hop.sourceToStage.start ++
    outageShop.registry.aliasesOf Hop.sourceToStage.target =
      [Warehouse.crm, Warehouse.erp, Warehouse.stage] := by
  decide +kernel

theorem down_outageShop : (brokenCalls outageShop.engine).Down (fun _ => outageShop.surroundings)
    Warehouse.crm := by
  have hlisted : outageShop.surroundings.catalog.tables Warehouse.crm =
      .ok [⟨Warehouse.crm, "", "dbo", "contacts"⟩] := rfl
  intro t ts hts
  have htables := (Access.tells_calls outageShop.engine outageShop.surroundings.catalog
    Warehouse.crm).tables t
  obtain rfl := Except.ok.inj (hts.symm.trans (htables.trans hlisted))
  exact ⟨_, List.mem_singleton_self _, fun _ => ⟨_, rfl⟩⟩

theorem tells_outageShop {a : Alias} (ha : a ≠ Warehouse.crm) :
    (brokenCalls outageShop.engine).Tells (fun _ => outageShop.surroundings)
      outageShop.surroundings.catalog a := by
  obtain ⟨htables, hcolumns⟩ :=
    Access.tells_calls outageShop.engine outageShop.surroundings.catalog a
  refine ⟨htables, fun t => ?_⟩
  rw [brokenCalls]
  dsimp only
  rw [if_neg ha]
  exact hcolumns t

/-- The columns of the contacts cannot be listed, and the orders are mapped all the same. -/
theorem Errand.outage_isolated_sample :
    ∃ r as bs failures,
      Registry.ofList (outageConnections.filter fun k => !(k.name == Warehouse.crm)) = .ok r ∧
      outageShop.registry.DownOf (· == Warehouse.crm) Hop.sourceToStage.start as ∧
      outageShop.registry.DownOf (· == Warehouse.crm) Hop.sourceToStage.target bs ∧
      failures.map (·.target) = (as ++ bs).map (·.name) ∧
      ∀ clock,
        (∀ supply, ∃ ms ms' w₁ v₁, (suggestBy brokenCalls .sourceToStage).run outageShop =
            (.ok ⟨ms, failures⟩, w₁) ∧
          (suggest .sourceToStage).run { outageShop.elsewhere r
            ⟨outageShop.surroundings.catalog, Faults.none⟩ clock with supply := supply } =
              (.ok ⟨ms', []⟩, v₁) ∧
          ms.map Mapping.unmarked = ms'.map Mapping.unmarked) ∧
        ∃ o v₁ clock', (autoMapBy brokenCalls .sourceToStage).run outageShop =
            (o.map (AutoMapReport.failing failures),
              v₁.elsewhere outageShop.registry outageShop.surroundings clock') ∧
          (autoMap .sourceToStage).run (outageShop.elsewhere r
            ⟨outageShop.surroundings.catalog, Faults.none⟩ clock) = (o, v₁) ∧
          ∀ report, o = .ok report → report.failures = [] := by
  have hregistry : Registry.ofList outageConnections = .ok outageShop.registry := rfl
  have hcatalog : outageShop.surroundings.catalog.Static :=
    ((Catalog.Static.empty.insertTable _ _).insertTable _ _).insertTable _ _
  refine Errand.outage_isolated hregistry hcatalog brokenCalls (· == Warehouse.crm) .sourceToStage
    (fun a _ hd => ?_) fun a ha hd => ?_
  · rw [beq_iff_eq.mp hd]
    exact down_outageShop
  · have hne : a ≠ Warehouse.crm := beq_eq_false_iff_ne.mp hd
    refine ⟨tells_outageShop hne, ?_⟩
    rw [aliases_outageShop] at ha
    simp only [List.mem_cons, List.not_mem_nil, or_false] at ha
    rcases ha with rfl | rfl | rfl
    · exact absurd rfl hne
    · exact ⟨_, rfl⟩
    · exact ⟨_, rfl⟩

end TierLineage
