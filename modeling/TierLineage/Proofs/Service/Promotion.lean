import TierLineage.Proofs.Mapping.Proposals
import TierLineage.Proofs.Service.Batch
import TierLineage.Proofs.Service.Variants

/-!
# Promoting proposals

A proposal is promoted by a request to confirm its two tables.  Both are listed on connections of
the right tiers, so the request is accepted.  It looks the tables up again, up to letter case, so it
confirms the first variant of each: the proposal itself, exactly if no variant of its tables comes
before them in the listings.
-/

namespace TierLineage

open TierLineage.Number TierLineage.Mappings

/-! ### Proposals -/

namespace World

variable {w w' : World} {c : Mapping}

/-- Whether a mapping is proposed by an errand to discover or to suggest. -/
inductive Proposes (w : World) (c : Mapping) : Prop
  | discover {source target : String} {ms : List Mapping} {w' : World}
    (h : (Errand.discover source target).run w = (.ok ms, w')) (hc : c ∈ ms) : Proposes w c
  | suggest {hop : Hop} {found : Suggestions} {w' : World}
    (h : (Errand.suggest hop).run w = (.ok found, w')) (hc : c ∈ found.candidates) : Proposes w c

/-- What is proposed from drawn sides is listed on both sides. -/
theorem lists_of_mem_propose {hop : Hop} {d : Sides} (hd : d.Drawn w hop) {e : Engine} {r : Registry}
    {supply : Supply} (hc : c ∈ (Proposal.propose e r hop d supply).1) :
    w.Lists c.hop.start c.source ∧ w.Lists c.hop.target c.target := by
  obtain ⟨rfl, ⟨x, hx, hsource⟩, y, hy, htarget⟩ := Proposal.mem_propose hc
  exact ⟨hsource ▸ hd.sources x hx, htarget ▸ hd.targets y hy⟩

/-- The tables of a proposal are listed on connections of the tiers of its hop. -/
theorem Regular.lists_of_proposes (hw : w.Regular) (hc : w.Proposes c) :
    w.Lists c.hop.start c.source ∧ w.Lists c.hop.target c.target := by
  cases hc with
  | @discover source target ms w' h hc =>
    have hsteady := steady_between w.engine w.registry source target
    cases hfound : (between w.engine w.registry source target).found w.surroundings with
    | error f =>
      obtain ⟨clock, hrun⟩ := Errand.exists_run_eq_error (q := .discover source target) hsteady hfound
      cases congrArg Prod.fst (hrun.symm.trans h)
    | ok found =>
      obtain ⟨clock, hrun⟩ := Errand.exists_run_eq (q := .discover source target) hsteady hfound
      have hms := Except.ok.inj (congrArg Prod.fst (hrun.symm.trans h))
      exact lists_of_mem_propose (hw.drawn_between hfound) (hms ▸ hc)
  | @suggest hop found w' h hc =>
    obtain ⟨clock, hrun⟩ := Errand.exists_run_eq (q := .suggest hop)
      (steady_gather w.engine w.registry hop) (found_gather w.engine w.registry hop w.surroundings)
    have hfound := Except.ok.inj (congrArg Prod.fst (hrun.symm.trans h))
    exact lists_of_mem_propose (hw.drawn_sides hop) (hfound ▸ hc)

end World

/-! ### Filling a slot -/

namespace Store

variable {s : Store} {m : Mapping}

/-- A decision fills a slot in which nothing was confirmed, in whatever mode. -/
theorem confirm_created (hnone : s.confirmed? m.key = .ok none)
    (hkeeps : s.Keeps m.key (Slot.holding (Slot.asConfirmed m))) (mode : ConfirmMode) :
    ∃ s', s.confirm m mode = (.ok (.created (Slot.asConfirmed m)), s') ∧
      s'.confirmed? m.key = .ok (some (Slot.asConfirmed m)) := by
  rw [confirmed?_eq] at hnone
  cases hv : s.slot m.key with
  | error f => rw [hv] at hnone; cases hnone
  | ok v =>
    rw [hv] at hnone
    obtain ⟨s', hs', -, hslot⟩ := confirm_of_ok hv
      (Slot.confirm_of_none (Except.ok.inj hnone)) hkeeps
    refine ⟨s', hs', ?_⟩
    rw [confirmed?_eq, hslot]
    rfl

/-- In a batch of one a decision is confirmed as it is alone. -/
theorem upsertAll_singleton {s' : Store} {c : Confirmation}
    (h : s.confirm m .overwrite = (.ok c, s')) :
    s.upsertAll [m] = (.ok (BatchCount.zero.add c), s') := by
  cases s with
  | memory shelf =>
    rw [confirm, Shelf.confirm, Slot.confirm_overwrite] at h
    cases h
    rfl
  | ledger l =>
    rw [confirm, Ledger.confirm] at h
    cases hv : l.slot m.key with
    | error f => simp only [Ledger.update, hv, bind, Except.bind] at h; cases h
    | ok v =>
      cases hput : l.putSlot m.key (v.overwrite m).2 with
      | error f =>
        simp only [Ledger.update, hv, Slot.confirm_overwrite, hput, bind, Except.bind] at h
        cases h
      | ok l' =>
        rw [Ledger.update_of_ok hv (v.confirm_overwrite m) hput] at h
        cases h
        simp only [upsertAll, Ledger.upsertAll, List.foldlM_cons, List.foldlM_nil, Ledger.upsert, hv,
          hput, bind, Except.bind, pure, Except.pure]
        rfl

end Store

/-! ### Promotion -/

namespace Mapping

/-- The request to promote a proposal. -/
def promotion (c : Mapping) (confidence : Option Single) (notes : Option String)
    (overwrite : Bool) : ConfirmRequest :=
  ⟨c.hop, c.source, c.target, .promoted, confidence, notes, overwrite⟩

/-- The row that promotes a proposal. -/
def promotionRow (c : Mapping) (confidence : Option Single) (notes : Option String) : MappingRow :=
  ⟨c.hop, c.source, c.target, confidence, some .promoted, notes⟩

/-- The decision for two tables that a proposal is promoted to. -/
def promoted (c : Mapping) (stamp : Stamp) (source target : Table) (confidence : Option Single)
    (notes : Option String) : Mapping :=
  .decided stamp c.hop source target (confidence.getD (Binary.ofNat 1)) .promoted notes

end Mapping

/-- Whether a proposal is promoted to a decision for two tables, by a request and by a row of a
batch. -/
structure World.Promotes (w : World) (c : Mapping) (confidence : Option Single)
    (notes : Option String) (source target : Table) : Prop where
  confirm : ∀ overwrite, ∃ w',
    (Errand.confirm (c.promotion confidence notes overwrite)).run w =
      (.ok (.created (c.promoted w.supply.stamp source target confidence notes)), w') ∧
    w'.store.confirmed? ⟨c.hop, source⟩ =
      .ok (some (c.promoted w.supply.stamp source target confidence notes))
  upsert : ∃ w', (Errand.upsert [c.promotionRow confidence notes]).run w = (.ok ⟨1, 0, 0⟩, w') ∧
    w'.store.confirmed? ⟨c.hop, source⟩ =
      .ok (some (c.promoted w.supply.stamp source target confidence notes))

namespace World

variable {w : World} {c : Mapping} {confidence : Option Single} {notes : Option String}
  {s t : Table}

/-- A proposal is promoted to a decision for the tables that its tables mean. -/
theorem promotes_of_meant (hpair : checkPair w.registry c.hop c.source c.target = .ok ())
    (hconfidence : checkConfidence (confidence.getD (Binary.ofNat 1)) = .ok ())
    (hs : meant w.engine w.surroundings c.source = .ok s)
    (ht : meant w.engine w.surroundings c.target = .ok t)
    (hnone : w.store.confirmed? ⟨c.hop, s⟩ = .ok none)
    (hkeeps : w.store.Keeps ⟨c.hop, s⟩
      (Slot.holding (c.promoted w.supply.stamp s t confidence notes))) :
    w.Promotes c confidence notes s t := by
  constructor
  · intro overwrite
    have hchecked : checkedRequest w.engine w.registry w.surroundings
        (c.promotion confidence notes overwrite) =
          .ok { c.promotion confidence notes overwrite with source := s, target := t } := by
      simp only [checkedRequest, Mapping.promotion, hpair, hconfidence, hs, ht]
      rfl
    obtain ⟨clock, hrun⟩ := Errand.exists_run_eq (q := .confirm (c.promotion confidence notes overwrite))
      (steady_checkRequest w.engine w.registry _) ((found_checkRequest ..).trans hchecked)
    obtain ⟨s', hs', hconfirmed⟩ := Store.confirm_created
      (m := c.promoted w.supply.stamp s t confidence notes) hnone hkeeps
      (if overwrite then .overwrite else .ifAbsent)
    let after (s : Store) : World :=
      { w with supply := w.supply.advance 1, clock := clock }.withStore s
    exact ⟨after s', hrun.trans (congrArg (fun p => (p.1, after p.2)) hs'), hconfirmed⟩
  · have hrow : w.resolvedRow (c.promotionRow confidence notes) =
        { c.promotionRow confidence notes with source := s, target := t } := by
      rw [resolvedRow, resolved, resolved]
      simp only [Mapping.promotionRow, hs, ht]
    have hmade : w.made [c.promotionRow confidence notes] =
        [c.promoted w.supply.stamp s t confidence notes] := by
      rw [made, List.map_singleton, hrow, List.mapIdx_singleton]
      rfl
    have haccepts : w.Accepts [c.promotionRow confidence notes] := by
      refine ⟨List.forall_mem_singleton.mpr ⟨hpair, fun x hx => ?_, finds_of_meant hs,
        finds_of_meant ht⟩, List.nodup_singleton _⟩
      obtain rfl : confidence = some x := hx
      exact checkConfidence_eq_ok.mp hconfidence
    have hlist : w.Listing [c.promotionRow confidence notes] := by
      intro he row hrow _
      rw [List.mem_singleton.mp hrow]
      obtain ⟨ts, hts, -⟩ := finds_of_meant hs he
      obtain ⟨us, hus, -⟩ := finds_of_meant ht he
      exact ⟨⟨ts, hts⟩, us, hus⟩
    obtain ⟨clock, hrun⟩ := haccepts.run_eq hlist
    obtain ⟨s', hs', hconfirmed⟩ := Store.confirm_created
      (m := c.promoted w.supply.stamp s t confidence notes) hnone hkeeps .overwrite
    rw [hmade, Store.upsertAll_singleton hs'] at hrun
    exact ⟨_, hrun, hconfirmed⟩

/-- **A proposal is promoted to the first variants of its tables.**  In a service with registered
connections, whose catalog was loaded from a snapshot and which looks tables up, every proposal can
be promoted at any time, by a request or by a row of a batch, if nothing is confirmed for its hop; a
ledger has to be able to keep the decision.  What is confirmed are the first of the listed variants
of its tables, each of them the table of the proposal exactly if none of its variants comes before
it. -/
theorem promotes_first_variants {cs : List Connection} {snapshot : Snapshot}
    (hregistry : Registry.ofList cs = .ok w.registry)
    (hcatalog : snapshot.load = .ok w.surroundings.catalog)
    (hverify : w.engine.verifyConfirmedTables = true) (hc : w.Proposes c) (desk : Flight.Desk)
    (supply : Supply) (clock : Nat)
    (hconfidence : checkConfidence (confidence.getD (Binary.ofNat 1)) = .ok ())
    (hnone : ∀ t, desk.store.confirmed? ⟨c.hop, t⟩ = .ok none)
    (hkeeps : desk.store.Keeps c.key
      (Slot.holding (c.promoted supply.stamp c.source c.target confidence notes))) :
    ∃ s t, { w with desk := desk, supply := supply, clock := clock }.Promotes c confidence notes s t ∧
      w.First c.hop.start c.source s ∧ w.First c.hop.target c.target t ∧
      (s = c.source ↔
        ∀ v, w.Lists c.hop.start v → c.source.Variant v → compare v c.source ≠ .lt) ∧
      (t = c.target ↔
        ∀ v, w.Lists c.hop.target v → c.target.Variant v → compare v c.target ≠ .lt) := by
  obtain ⟨hstatic, hchecked⟩ := Snapshot.load_spec hcatalog
  have hw : w.Regular := ⟨⟨cs, hregistry⟩, hstatic⟩
  obtain ⟨hsource, htarget⟩ := hw.lists_of_proposes hc
  obtain ⟨s, hs, hfirst⟩ := hw.exists_meant hverify hsource
  obtain ⟨t, ht, hfirst'⟩ := hw.exists_meant hverify htarget
  refine ⟨s, t, ?_, hfirst, hfirst', hfirst.eq_iff hsource, hfirst'.eq_iff htarget⟩
  refine promotes_of_meant (hw.checkPair_eq_ok hchecked hsource htarget) hconfidence hs ht (hnone s)
    fun hledger => ?_
  -- the key of a variant is as long as that of the table, and its mapping as legible
  obtain ⟨hfits, hlegible⟩ := hkeeps hledger
  obtain ⟨hidentifier, hconfidence', hcreated⟩ := hlegible.confirmed _ rfl
  refine ⟨(Ledger.utf8ByteSize_slotKey hfirst.variant c.hop).trans_le hfits, ?_⟩
  exact Slot.legible_holding ⟨hidentifier, hconfidence', hcreated⟩

end World

/-! ### Samples -/

/-- Two tables that differ in letter case only, and their counterpart. -/
def variantSnapshot : Snapshot :=
  let erp : Snapshot.Connection :=
    ⟨"", [⟨none, "dbo", "orders", []⟩, ⟨none, "dbo", "Orders", []⟩], []⟩
  let stage : Snapshot.Connection := ⟨"", [⟨none, "dbo", "orders", []⟩], []⟩
  ⟨((∅ : Std.TreeMap String Snapshot.Connection).insert "erp" erp).insert "stage" stage⟩

/-- A service with the tables of the snapshot. -/
def variantShop : World :=
  (sampleShop .memory []).withCatalog fun c => variantSnapshot.load.toOption.getD c

theorem load_variantSnapshot : variantSnapshot.load = .ok variantShop.surroundings.catalog := by
  cases h : variantSnapshot.load with
  | error f =>
    have hok : variantSnapshot.load.isOk = true := by decide +kernel
    rw [h] at hok
    cases hok
  | ok c =>
    have hcatalog : variantShop.surroundings.catalog = variantSnapshot.load.toOption.getD
        (sampleShop .memory []).surroundings.catalog := rfl
    rw [hcatalog, h]
    rfl

/-- The proposal for one of the tables. -/
def variantProposal (name : String) (n : Nat) : Mapping :=
  .candidate ⟨⟨n⟩, ⟨0, 0⟩⟩ .sourceToStage ⟨Warehouse.erp, "", "dbo", name⟩
    ⟨Warehouse.stage, "", "dbo", "orders"⟩ (Binary.ofNat 1)

theorem registered_variantShop :
    Registry.ofList [.plain Warehouse.erp .source, .plain Warehouse.stage .stage] =
      .ok variantShop.registry := rfl

theorem proposes_variantShop {c : Mapping}
    (hc : c ∈ [variantProposal "Orders" 0, variantProposal "orders" 1]) :
    variantShop.Proposes c := by
  have hrun : ((Errand.discover "erp" "stage").run variantShop).1 =
      .ok [variantProposal "Orders" 0, variantProposal "orders" 1] := by
    decide +kernel
  exact .discover (Prod.ext hrun rfl) hc

/-- The first of two variants is promoted as it is. -/
theorem World.promotes_first_variants_sample :
    variantShop.Promotes (variantProposal "Orders" 0) none none
      (variantProposal "Orders" 0).source (variantProposal "Orders" 0).target := by
  have herp : (listTables variantShop.engine Warehouse.erp).found variantShop.surroundings =
      .ok [⟨Warehouse.erp, "", "dbo", "Orders"⟩, ⟨Warehouse.erp, "", "dbo", "orders"⟩] := by
    decide +kernel
  have hstage : (listTables variantShop.engine Warehouse.stage).found variantShop.surroundings =
      .ok [⟨Warehouse.stage, "", "dbo", "orders"⟩] := by
    decide +kernel
  obtain ⟨s, t, hpromotes, -, -, hs, ht⟩ := World.promotes_first_variants
    registered_variantShop load_variantSnapshot rfl
    (proposes_variantShop (List.mem_cons_self ..)) variantShop.desk variantShop.supply 0
    (by decide +kernel : checkConfidence ((none : Option Single).getD (Binary.ofNat 1)) = .ok ())
    (fun _ => rfl) (fun h => by cases h)
  obtain rfl := hs.mpr fun v ⟨_, ts, hts, hv⟩ hvariant => by
    rw [hvariant.connection_eq] at hts
    rw [Except.ok.inj (hts.symm.trans herp)] at hv
    rcases List.mem_pair.mp hv with rfl | rfl <;> decide
  obtain rfl := ht.mpr fun v ⟨_, ts, hts, hv⟩ hvariant => by
    rw [hvariant.connection_eq] at hts
    rw [Except.ok.inj (hts.symm.trans hstage), List.mem_singleton] at hv
    rw [hv]
    decide
  exact hpromotes

/-- The second of two variants is promoted to a decision for the first one. -/
theorem World.not_promotes_itself : ¬ ∀ (cs : List Connection) (snapshot : Snapshot) (w : World)
    (c : Mapping), Registry.ofList cs = .ok w.registry →
      snapshot.load = .ok w.surroundings.catalog → w.engine.verifyConfirmedTables = true →
        w.Proposes c → (∀ t, w.store.confirmed? ⟨c.hop, t⟩ = .ok none) →
          ∃ m w', (Errand.confirm (c.promotion none none false)).run w = (.ok (.created m), w') ∧
            m.source = c.source ∧ m.target = c.target := by
  intro h
  let c := variantProposal "orders" 1
  obtain ⟨m, w', hrun, hsource, -⟩ := h _ variantSnapshot variantShop c
    registered_variantShop load_variantSnapshot rfl
    (proposes_variantShop (List.mem_cons_of_mem _ (List.mem_cons_self ..))) (fun _ => rfl)
  have hmeant : meant variantShop.engine variantShop.surroundings c.source =
      .ok ⟨Warehouse.erp, "", "dbo", "Orders"⟩ := by
    decide +kernel
  have hpromotes : variantShop.Promotes c none none ⟨Warehouse.erp, "", "dbo", "Orders"⟩ c.target :=
    World.promotes_of_meant (by decide +kernel) (by decide +kernel) hmeant (by decide +kernel) rfl
      fun h => by cases h
  obtain ⟨w'', hrun', -⟩ := hpromotes.confirm false
  obtain ⟨hm, -⟩ := Prod.mk.inj (hrun.symm.trans hrun')
  cases hm
  exact absurd hsource (by decide)

end TierLineage
