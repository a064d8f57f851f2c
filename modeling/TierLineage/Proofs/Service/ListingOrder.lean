import TierLineage.Proofs.Matching.AnyOrder
import TierLineage.Proofs.Service.Automatic
import TierLineage.Proofs.Service.Outage

/-!
# Listings in any order

Two ways of asking the connections of a hop may tell the target tables in different orders.  What is
gathered then differs in the order of the targets and in the wording of failures, and nothing else.  As
every source table has one ranking in whatever order its targets are listed, the same is proposed for it,
and automatic mapping does the same.
-/

namespace TierLineage

open TierLineage.Number TierLineage.Mappings

/-! ### Sides -/

/-- Whether two sides of a hop differ in the order of the targets only. -/
structure Sides.Reorders (d d' : Sides) : Prop where
  sources : d.sources = d'.sources
  targets : d.targets.Perm d'.targets

section Reordered

variable {w : World} {hop : Hop} {d d' : Sides}

/-- The same is proposed in whatever order the targets are listed. -/
theorem propose_of_reorders {e : Engine}
    (hepsilon : (Binary.ofNat 0 : Single).atMost e.tieEpsilon = true) (h : d.Reorders d')
    (r : Registry) (supply : Supply) :
    Proposal.propose e r hop d supply = Proposal.propose e r hop d' supply := by
  rw [Proposal.propose, Proposal.propose, ← h.sources]
  refine List.foldl_ext _ _ _ fun ms x _ => ?_
  rw [Proposal.ranking_perm hepsilon h.targets]

/-- Source tables are mapped alike in whatever order the targets are listed. -/
theorem autoMapAll_perm {sources targets targets' : List Listed}
    (hepsilon : (Binary.ofNat 0 : Single).atMost w.engine.tieEpsilon = true)
    (h : targets.Perm targets') (report : AutoMapReport) :
    autoMapAll hop targets w sources report = autoMapAll hop targets' w sources report := by
  induction sources generalizing w report with
  | nil => rfl
  | cons x rest ih =>
    have hone : autoMapOne w hop targets x = autoMapOne w hop targets' x := by
      rw [autoMapOne, autoMapOne, Proposal.ranking_perm hepsilon h]
    rw [autoMapAll, autoMapAll, hone]
    cases hstep : autoMapOne w hop targets' x with
    | mk result w' =>
      cases result with
      | error f => rfl
      | ok step =>
        have hengine : w'.engine = w.engine := by
          have hperform : (Deed.auto hop targets' x).perform w = w' := congrArg Prod.snd hstep
          rw [← hperform, Deed.perform_eq]
          rfl
        exact ih (hengine ▸ hepsilon) _

end Reordered

/-! ### Connections that are asked in two ways -/

/-- Results of the same list in another order are the same ones in another order, or neither are all
there. -/
theorem mapM_perm {α β : Type} {f : α → Option β} {as bs : List α} (h : as.Perm bs) :
    Option.Rel List.Perm (as.mapM f) (bs.mapM f) := by
  induction h with
  | nil => exact .some .nil
  | @cons a as bs _ ih =>
    rw [List.mapM_cons, List.mapM_cons]
    generalize as.mapM f = o, bs.mapM f = o' at ih ⊢
    cases f a with
    | none => exact .none
    | some b =>
      cases ih with
      | none => exact .none
      | some hbs => exact .some (hbs.cons b)
  | swap a b as =>
    simp only [List.mapM_cons]
    generalize as.mapM f = o
    cases f a with
    | none => cases f b <;> exact .none
    | some c =>
      cases f b with
      | none => exact .none
      | some d =>
        cases o with
        | none => exact .none
        | some cs => exact .some (.swap ..)
  | @trans as bs cs _ _ ih ih' =>
    generalize as.mapM f = o, bs.mapM f = o', cs.mapM f = o'' at ih ih' ⊢
    cases ih with
    | none => exact ih'
    | some hbs =>
      cases ih' with
      | some hcs => exact .some (hbs.trans hcs)

namespace Mappings.Access

variable {c c' : Access} {e : Engine} {r : Registry} {hop : Hop} {view : View} {a : Alias}
  {R : List Table → List Table → Prop}

/-- Whether two ways of asking a connection both fail or tell the same tables, in related orders, and
the same columns of each table, whenever they ask. -/
structure Retells (R : List Table → List Table → Prop) (c c' : Access) (view : View) (a : Alias) :
    Prop where
  tables : ∃ o o', (c.tables a).Yields view o ∧ (c'.tables a).Yields view o' ∧ Option.Rel R o o'
  columns : ∀ t, ∃ o, (c.columns a t).Yields view o ∧ (c'.columns a t).Yields view o

theorem Retells.exists_load (h : Retells R c c' view a) (e : Engine) : ∃ o o' columns,
    (c.load e a).Yields view (o >>= listedWith columns) ∧
      (c'.load e a).Yields view (o' >>= listedWith columns) ∧ Option.Rel R o o' := by
  obtain ⟨o, o', ho, ho', hrel⟩ := h.tables
  choose columns hcolumns hcolumns' using h.columns
  exact ⟨o, o', columns, yields_load ho hcolumns, yields_load ho' hcolumns', hrel⟩

/-- Two ways that tell the same load the same. -/
theorem Retells.exists_load_eq (h : Retells (· = ·) c c' view a) (e : Engine) :
    ∃ o, (c.load e a).Yields view o ∧ (c'.load e a).Yields view o := by
  obtain ⟨o, o', columns, hload, hload', hrel⟩ := h.exists_load e
  have heq : o = o' := by
    cases hrel with
    | none => rfl
    | some hts => rw [hts]
  exact ⟨_, hload, heq ▸ hload'⟩

/-- Two ways that tell the same in any orders load the same, in some orders. -/
theorem Retells.exists_load_perm (h : Retells List.Perm c c' view a) (e : Engine) :
    ∃ o o', (c.load e a).Yields view o ∧ (c'.load e a).Yields view o' ∧
      Option.Rel List.Perm o o' := by
  obtain ⟨o, o', columns, hload, hload', hrel⟩ := h.exists_load e
  refine ⟨_, _, hload, hload', ?_⟩
  cases hrel with
  | none => exact .none
  | some hts => exact mapM_perm hts

/-- What is gathered in two ways that tell the target tables in any orders: sides that differ in the order
of the targets only, and failures of the same connections. -/
theorem gather_of_retells
    (hstart : ∀ a ∈ r.aliasesOf hop.start, Retells (· = ·) c c' view a)
    (htarget : ∀ a ∈ r.aliasesOf hop.target, Retells List.Perm c c' view a) (t : Nat) :
    ∃ d d' failures failures', (c.gather e r hop view t).1 = .ok (d, failures) ∧
      (c'.gather e r hop view t).1 = .ok (d', failures') ∧ d.Reorders d' ∧
      failures.map (·.target) = failures'.map (·.target) := by
  have hloads : ∀ a ∈ r.aliasesOf hop.start ++ r.aliasesOf hop.target, ∃ o o',
      (c.load e a).Yields view o ∧ (c'.load e a).Yields view o' ∧ Option.Rel List.Perm o o' ∧
        (a ∈ r.aliasesOf hop.start → o = o') := by
    intro a ha
    by_cases hmem : a ∈ r.aliasesOf hop.start
    · obtain ⟨o, ho, ho'⟩ := (hstart a hmem).exists_load_eq e
      exact ⟨o, o, ho, ho', by cases o <;> constructor; rfl, fun _ => rfl⟩
    · obtain ⟨o, o', ho, ho', hrel⟩ :=
        (htarget a ((List.mem_append.mp ha).resolve_left hmem)).exists_load_perm e
      exact ⟨o, o', ho, ho', hrel, fun h => absurd h hmem⟩
  choose! load load' hload hload' hrel hsame using hloads
  obtain ⟨failures, hgather, hfailures⟩ := gather_of_load hload t
  obtain ⟨failures', hgather', hfailures'⟩ := gather_of_load hload' t
  refine ⟨_, _, failures, failures', hgather, hgather', ⟨?_, ?_⟩, ?_⟩
  · refine List.flatMap_congr fun a ha => ?_
    rw [hsame a (List.mem_append_left _ ha) ha]
  · refine List.Perm.flatMap_left _ fun a ha => ?_
    have hrel := hrel a (List.mem_append_right _ ha)
    generalize load a = o, load' a = o' at hrel ⊢
    cases hrel with
    | none => exact .nil
    | some hls => exact hls
  · rw [hfailures, hfailures']
    refine congrArg _ (List.filter_congr fun a ha => ?_)
    have hrel := hrel a ha
    generalize load a = o, load' a = o' at hrel ⊢
    cases hrel <;> rfl

/-- The tables of two connections that are asked in some way, and the hop between them. -/
def between (c : Access) (e : Engine) (r : Registry) (source target : String) :
    Visit (Hop × Sides) := do
  let s ← Visit.ofOutcome ((r.resolve source).mapError .refused)
  let t ← Visit.ofOutcome ((r.resolve target).mapError .refused)
  let hop ← Visit.ofOutcome (hopBetween s t)
  let sources ← c.load e s.name
  let targets ← c.load e t.name
  return (hop, ⟨sources, targets⟩)

/-- Between two connections are the tables that are loaded of both. -/
theorem yields_between {source target : String} {s t : Connection} {o o' : Option (List Listed)}
    (hs : r.resolve source = .ok s) (ht : r.resolve target = .ok t)
    (hhop : hopBetween s t = .ok hop) (ho : (c.load e s.name).Yields view o)
    (ho' : (c.load e t.name).Yields view o') : (c.between e r source target).Yields view
      (do return (hop, ⟨← o, ← o'⟩)) := by
  have hboth : (c.between e r source target) = (do
      let sources ← c.load e s.name
      let targets ← c.load e t.name
      return (hop, ⟨sources, targets⟩)) := by
    rw [between, hs, ht]
    change Visit.bind (Visit.ofOutcome (hopBetween s t)) _ = _
    rw [hhop]
    rfl
  rw [hboth]
  exact ho.bind fun _ => ho'.bind fun _ _ => rfl

end Mappings.Access

/-! ### Errands -/

namespace Errand

variable {w : World} {c c' : Engine → Access}

/-- Propose targets for the tables of one connection among those of another one, asking both in some
way. -/
def discoverBy (c : Engine → Access) (source target : String) : Errand (List Mapping) where
  visit e r := (c e).between e r source target
  act := (discover source target).act

theorem discover_eq (source target : String) : discover source target =
    discoverBy calls source target := rfl

/-- What is proposed between two connections depends on their tables only. -/
theorem toOption_run_discoverBy {source target : String} {o : Option (Hop × Sides)}
    (h : ((c w.engine).between w.engine w.registry source target).Yields (fun _ => w.surroundings) o) :
    ((discoverBy c source target).run w).1.toOption =
      o.map fun found => (Proposal.propose w.engine w.registry found.1 found.2 w.supply).1 := by
  rw [← h w.clock]
  cases hfound : ((c w.engine).between w.engine w.registry source target
    (fun _ => w.surroundings) w.clock).1 with
  | ok found =>
    obtain ⟨moment, hrun⟩ := exists_run_of_fst (q := discoverBy c source target) hfound
    rw [hrun]
    rfl
  | error f =>
    obtain ⟨moment, hrun⟩ := exists_run_of_fst_error (q := discoverBy c source target) hfound
    rw [hrun]
    rfl

/-- What is proposed between two connections of a hop is the same in whatever order the tables of the
second one are told. -/
theorem toOption_discoverBy_of_retells {hop : Hop} {source target : String} {s t : Connection}
    (hnamed : w.registry.Named)
    (hepsilon : (Binary.ofNat 0 : Single).atMost w.engine.tieEpsilon = true)
    (hstart : ∀ a ∈ w.registry.aliasesOf hop.start,
      Access.Retells (· = ·) (c w.engine) (c' w.engine) (fun _ => w.surroundings) a)
    (htarget : ∀ a ∈ w.registry.aliasesOf hop.target,
      Access.Retells List.Perm (c w.engine) (c' w.engine) (fun _ => w.surroundings) a)
    (hs : w.registry.resolve source = .ok s) (ht : w.registry.resolve target = .ok t)
    (hhop : hopBetween s t = .ok hop) :
    ((discoverBy c source target).run w).1.toOption =
      ((discoverBy c' source target).run w).1.toOption := by
  have hlisted : ∀ {name : String} {k : Connection}, w.registry.resolve name = .ok k →
      k.name ∈ w.registry.aliasesOf k.tier := fun h =>
    (Registry.mem_aliasesOf hnamed).mpr ⟨_, Registry.resolve_name hnamed h, rfl⟩
  obtain ⟨hsTier, htTier⟩ := tiers_of_hopBetween hhop
  obtain ⟨o, ho, ho'⟩ := (hstart s.name (hsTier ▸ hlisted hs)).exists_load_eq w.engine
  obtain ⟨p, p', hp, hp', hrel⟩ := (htarget t.name (htTier ▸ hlisted ht)).exists_load_perm w.engine
  rw [toOption_run_discoverBy (Access.yields_between hs ht hhop ho hp),
    toOption_run_discoverBy (Access.yields_between hs ht hhop ho' hp')]
  cases o with
  | none => rfl
  | some sources =>
    cases hrel with
    | none => rfl
    | @some targets targets' htargets =>
      have hreorders : (⟨sources, targets⟩ : Sides).Reorders ⟨sources, targets'⟩ := ⟨rfl, htargets⟩
      exact congrArg (fun p : List Mapping × Supply => some p.1)
        (propose_of_reorders hepsilon hreorders w.registry w.supply)

/-- **Targets are proposed in whatever order they are listed.**  A ranking of targets with finite scores
and different tables does not depend on the order in which they are given.  Let the connections of a hop
be asked in two ways that tell the tables of its target tier in any two orders, and everything else
alike.  Then the same is proposed between two of its connections and for all its source tables, and
automatic mapping leaves the same store and the same report; only failures may be worded differently, and
the clock may be later. -/
theorem proposes_in_any_order :
    (∀ (cs ds : List Ranked) (epsilon : Single), (∀ c ∈ cs, c.score.IsFinite) →
      (cs.map Ranked.table).Nodup → (Binary.ofNat 0 : Single).atMost epsilon = true → cs.Perm ds →
        Ranked.rank cs epsilon = Ranked.rank ds epsilon) ∧
    ∀ (cs : List Connection) (w : World) (c c' : Engine → Access) (hop : Hop),
      Registry.ofList cs = .ok w.registry →
      (Binary.ofNat 0 : Single).atMost w.engine.tieEpsilon = true →
      (∀ a ∈ w.registry.aliasesOf hop.start,
        Access.Retells (· = ·) (c w.engine) (c' w.engine) (fun _ => w.surroundings) a) →
      (∀ a ∈ w.registry.aliasesOf hop.target,
        Access.Retells List.Perm (c w.engine) (c' w.engine) (fun _ => w.surroundings) a) →
      (∀ source target s t, w.registry.resolve source = .ok s →
        w.registry.resolve target = .ok t → hopBetween s t = .ok hop →
          ((discoverBy c source target).run w).1.toOption =
            ((discoverBy c' source target).run w).1.toOption) ∧
      (∃ (ms : List Mapping) (failures failures' : List PartFailure),
        ((suggestBy c hop).run w).1 = .ok ⟨ms, failures⟩ ∧
        ((suggestBy c' hop).run w).1 = .ok ⟨ms, failures'⟩ ∧
        failures.map (·.target) = failures'.map (·.target)) ∧
      ∃ (o : Outcome AutoMapReport) (v : World) (failures failures' : List PartFailure)
        (clock clock' : Nat),
        (autoMapBy c hop).run w = (o.map (AutoMapReport.failing failures),
          v.elsewhere w.registry w.surroundings clock) ∧
        (autoMapBy c' hop).run w = (o.map (AutoMapReport.failing failures'),
          v.elsewhere w.registry w.surroundings clock') ∧
        failures.map (·.target) = failures'.map (·.target) := by
  refine ⟨fun cs ds epsilon hfinite hnodup hepsilon h =>
    Ranked.rank_perm hfinite (Ranked.strict_of_nodup hfinite hnodup) hepsilon h, ?_⟩
  intro cs w c c' hop hregistry hepsilon hstart htarget
  have hnamed := Registry.named_of_ofList hregistry
  obtain ⟨d, d', failures, failures', hgather, hgather', hreorders, hfailures⟩ :=
    Access.gather_of_retells (e := w.engine) hstart htarget w.clock
  refine ⟨fun source target s t => toOption_discoverBy_of_retells hnamed hepsilon hstart htarget,
    ?_, ?_⟩
  · obtain ⟨moment, hrun⟩ := exists_run_of_fst (q := suggestBy c hop) hgather
    obtain ⟨moment', hrun'⟩ := exists_run_of_fst (q := suggestBy c' hop) hgather'
    have hpropose : Proposal.propose w.engine w.registry hop d w.supply =
        Proposal.propose w.engine w.registry hop d' w.supply :=
      propose_of_reorders hepsilon hreorders w.registry w.supply
    refine ⟨(Proposal.propose w.engine w.registry hop d w.supply).1, failures, failures',
      congrArg Prod.fst hrun, (congrArg Prod.fst hrun').trans ?_, hfailures⟩
    rw [hpropose]
    rfl
  · obtain ⟨moment, hrun⟩ := exists_run_of_fst (q := autoMapBy c hop) hgather
    obtain ⟨moment', hrun'⟩ := exists_run_of_fst (q := autoMapBy c' hop) hgather'
    -- the run with no failures to report, which tells both others
    let report : AutoMapReport := ⟨0, 0, d.sources.length, 0, 0, []⟩
    have hsame : autoMapAll hop d'.targets w d'.sources report =
        autoMapAll hop d.targets w d.sources report := by
      rw [← hreorders.sources]
      exact (autoMapAll_perm hepsilon hreorders.targets _).symm
    have hconvention : ∀ d : Sides, ∀ x ∈ d.sources, Proposal.convention w.registry hop x.table =
        Proposal.convention w.registry hop x.table := fun _ _ _ => rfl
    have hdone := autoMapAll_elsewhere d.targets w.surroundings moment (hconvention d) failures report
    have hdone' := autoMapAll_elsewhere d'.targets w.surroundings moment' (hconvention d') failures'
      report
    rw [hsame] at hdone'
    refine ⟨_, _, failures, failures', moment, moment', hrun.trans hdone, hrun'.trans ?_, hfailures⟩
    refine Eq.trans ?_ hdone'
    change autoMapAll hop d'.targets _ d'.sources ⟨0, 0, d'.sources.length, 0, 0, failures'⟩ = _
    rw [← hreorders.sources]
    rfl

/-! ### Samples -/

/-- Calls that tell the tables of a connection from the last to the first. -/
def reversedCalls (e : Engine) : Access where
  tables a := do return (← listTables e a).reverse
  columns := listColumns e

theorem retells_reversedCalls {R : List Table → List Table → Prop} {k : Catalog} {a : Alias}
    (h : ∀ ts, k.tables a = .ok ts → R ts ts.reverse) (e : Engine) :
    Access.Retells R (calls e) (reversedCalls e) (fun _ => ⟨k, Faults.none⟩) a := by
  obtain ⟨htables, hcolumns⟩ := Access.tells_calls e k a
  have hreversed : ((reversedCalls e).tables a).Yields (fun _ => ⟨k, Faults.none⟩)
      ((k.tables a).toOption >>= fun ts => some ts.reverse) := htables.yields.bind fun _ _ => rfl
  refine ⟨⟨_, _, htables.yields, hreversed, ?_⟩,
    fun t => ⟨_, (hcolumns t).yields, (hcolumns t).yields⟩⟩
  cases hts : k.tables a with
  | error f => exact .none
  | ok ts => exact .some (h ts hts)

/-- A service with one table to map, and two tables of the staging area. -/
def orderShop : World :=
  sampleShop .memory (⟨Warehouse.stage, "", "dbo", "stores"⟩ :: sampleTables)

/-- The staging area tells its tables from the last to the first, and the same is proposed. -/
theorem proposes_in_any_order_sample :
    Ranked.rank Ranked.sampleTargets Ranked.sampleTolerance =
      Ranked.rank Ranked.sampleTargets.reverse Ranked.sampleTolerance ∧
    ((discoverBy calls "erp" "stage").run orderShop).1.toOption =
      ((discoverBy reversedCalls "erp" "stage").run orderShop).1.toOption ∧
    (∃ (ms : List Mapping) (failures failures' : List PartFailure),
      ((suggestBy calls .sourceToStage).run orderShop).1 = .ok ⟨ms, failures⟩ ∧
      ((suggestBy reversedCalls .sourceToStage).run orderShop).1 = .ok ⟨ms, failures'⟩ ∧
      failures.map (·.target) = failures'.map (·.target)) ∧
    ∃ (o : Outcome AutoMapReport) (v : World) (failures failures' : List PartFailure)
      (clock clock' : Nat),
      (autoMapBy calls .sourceToStage).run orderShop = (o.map (AutoMapReport.failing failures),
        v.elsewhere orderShop.registry orderShop.surroundings clock) ∧
      (autoMapBy reversedCalls .sourceToStage).run orderShop =
        (o.map (AutoMapReport.failing failures'),
          v.elsewhere orderShop.registry orderShop.surroundings clock') ∧
      failures.map (·.target) = failures'.map (·.target) := by
  obtain ⟨hrank, hservice⟩ := proposes_in_any_order
  have hregistry : Registry.ofList [.plain Warehouse.erp .source, .plain Warehouse.stage .stage] =
      .ok orderShop.registry := rfl
  have hstart : orderShop.registry.aliasesOf Hop.sourceToStage.start = [Warehouse.erp] := by
    decide +kernel
  have hlisted : orderShop.surroundings.catalog.tables Warehouse.erp =
      .ok [⟨Warehouse.erp, "", "dbo", "orders"⟩] := by
    decide +kernel
  -- the only table of the start is told in one order only
  have hsources : ∀ a ∈ orderShop.registry.aliasesOf Hop.sourceToStage.start,
      Access.Retells (· = ·) (calls orderShop.engine) (reversedCalls orderShop.engine)
        (fun _ => orderShop.surroundings) a := by
    intro a ha
    rw [hstart] at ha
    rw [List.mem_singleton.mp ha]
    refine retells_reversedCalls (fun ts hts => ?_) _
    rw [← Except.ok.inj (hlisted.symm.trans hts)]
    rfl
  obtain ⟨hdiscover, hsuggest, hautoMap⟩ := hservice _ orderShop calls reversedCalls .sourceToStage
    hregistry (by decide +kernel) hsources
    fun a _ => retells_reversedCalls (fun ts _ => (List.reverse_perm ts).symm) _
  exact ⟨hrank _ _ _ Ranked.finite_sampleTargets (by decide) (by decide +kernel)
      (List.reverse_perm _).symm,
    hdiscover "erp" "stage" (.plain Warehouse.erp .source) (.plain Warehouse.stage .stage) rfl rfl rfl,
    hsuggest, hautoMap⟩

end Errand

end TierLineage
