import TierLineage.Proofs.Service.Report

/-!
# Recorded candidates are current

After a run of automatic mapping the candidates recorded for a source table that is left open are
those that would be proposed for it now, whatever was recorded for it before, as long as something is
proposed.  Where nothing is, the run asks nothing of the store, and what was recorded earlier stays.
The slots of the source tables carry this: the run leaves in each what the ranking asks for, and the
listing of candidates has for every table what its slot has.
-/

namespace TierLineage

open TierLineage.Number TierLineage.Mappings

/-! ### Mappings of one source table -/

/-- The mappings of a source table among others. -/
def mappingsOf (t : Table) (ms : List Mapping) : List Mapping :=
  ms.filter (·.source == t)

/-- Whether the candidates recorded for a source table are those proposed for it, up to marks. -/
def Current (recorded proposed : List Mapping) (t : Table) : Prop :=
  (mappingsOf t recorded).map Mapping.unmarked = (mappingsOf t proposed).map Mapping.unmarked

section Parts

variable {α : Type} {l : List α} {f : α → List Mapping} {t : Table}

theorem mappingsOf_eq_nil {ms : List Mapping} : mappingsOf t ms = [] ↔ ∀ m ∈ ms, m.source ≠ t := by
  simp [mappingsOf]

theorem map_unmarked_mappingsOf (t : Table) (ms : List Mapping) :
    (mappingsOf t ms).map Mapping.unmarked = mappingsOf t (ms.map Mapping.unmarked) := by
  rw [mappingsOf, mappingsOf, List.filter_map]
  rfl

/-- Lists that belong to other tables have nothing of a table. -/
theorem mappingsOf_flatMap_eq_nil (source : α → Table)
    (hown : ∀ a ∈ l, ∀ m ∈ f a, m.source = source a) (ht : ∀ a ∈ l, source a ≠ t) : mappingsOf t (l.flatMap f) = [] := by
  refine mappingsOf_eq_nil.mpr fun m hm => ?_
  obtain ⟨a, ha, hm⟩ := List.mem_flatMap.mp hm
  rw [hown a ha m hm]
  exact ht a ha

/-- Where every list belongs to a table of its own, that list is what its table has of all. -/
theorem mappingsOf_flatMap (source : α → Table) (hnodup : (l.map source).Nodup)
    (hown : ∀ a ∈ l, ∀ m ∈ f a, m.source = source a) {a : α} (ha : a ∈ l) :
    mappingsOf (source a) (l.flatMap f) = f a := by
  obtain ⟨before, later, rfl⟩ := List.append_of_mem ha
  rw [List.map_append, List.map_cons] at hnodup
  obtain ⟨-, hcons, hdisjoint⟩ := List.nodup_append.mp hnodup
  have hbefore : mappingsOf (source a) (before.flatMap f) = [] :=
    mappingsOf_flatMap_eq_nil source (fun b hb => hown b (List.mem_append_left _ hb)) fun b hb =>
      hdisjoint _ (List.mem_map_of_mem hb) _ (List.mem_cons_self ..)
  have hlater : mappingsOf (source a) (later.flatMap f) = [] :=
    mappingsOf_flatMap_eq_nil source
      (fun b hb => hown b (List.mem_append_right _ (List.mem_cons_of_mem a hb))) fun b hb heq =>
        (List.nodup_cons.mp hcons).1 (heq ▸ List.mem_map_of_mem hb)
  have hself : mappingsOf (source a) (f a) = f a :=
    List.filter_eq_self.mpr fun m hm => beq_iff_eq.mpr (hown a ha m hm)
  rw [List.flatMap_append, List.flatMap_cons, mappingsOf, List.filter_append, List.filter_append]
  change mappingsOf _ _ ++ (mappingsOf _ _ ++ mappingsOf _ _) = _
  rw [hbefore, hself, hlater, List.nil_append, List.append_nil]

end Parts

/-! ### Listings -/

namespace Shelf

variable {s : Shelf}

/-- The candidates of a source table are those of its slot. -/
theorem Lawful.mappingsOf_candidates (h : s.Lawful) (hop : Hop) (t : Table) :
    mappingsOf t (s.candidates hop) = (s.slot ⟨hop, t⟩).candidates := by
  let entries := s.slots.toList.filter fun e => e.1.hop == hop
  have hslot : ∀ e ∈ entries, e.1.hop = hop ∧ s.slot e.1 = e.2 := fun e he => by
    obtain ⟨hmem, hhop⟩ := List.mem_filter.mp he
    exact ⟨beq_iff_eq.mp hhop,
      slot_of_getElem? (Std.TreeMap.mem_toList_iff_getElem?_eq_some.mp hmem)⟩
  have hnodup : (entries.map (·.1.source)).Nodup := by
    refine List.pairwise_map.mpr ((s.slots.ordered_keys_toList.filter _).imp_of_mem ?_)
    intro d e hd he hlt heq
    have hless := SlotKey.compare_source hlt ((hslot d hd).1.trans (hslot e he).1.symm)
    rw [heq] at hless
    exact Std.OrientedCmp.not_lt_of_lt hless hless
  have hown : ∀ e ∈ entries, ∀ m ∈ e.2.candidates, m.source = e.1.source := fun e he m hm =>
    congrArg SlotKey.source ((h e.1).candidates m ((hslot e he).2 ▸ hm)).2
  have hlisting : s.candidates hop = entries.flatMap (·.2.candidates) := List.flatMap_map ..
  rw [hlisting]
  by_cases ht : ∃ e ∈ entries, e.1.source = t
  · obtain ⟨e, he, rfl⟩ := ht
    rw [mappingsOf_flatMap _ hnodup hown he, ← (hslot e he).2, ← (hslot e he).1]
  · rw [mappingsOf_flatMap_eq_nil _ hown fun e he heq => ht ⟨e, he, heq⟩]
    -- a slot that is not kept is empty
    by_contra hne
    have hkept := getElem?_of_slot_ne (s := s) (k := ⟨hop, t⟩) fun hempty => hne (hempty ▸ rfl)
    refine ht ⟨(⟨hop, t⟩, s.slot ⟨hop, t⟩), List.mem_filter.mpr ⟨?_, beq_self_eq_true hop⟩, rfl⟩
    exact Std.TreeMap.mem_toList_iff_getElem?_eq_some.mpr hkept

/-- A source table has nothing confirmed exactly if no confirmed mapping is its own. -/
theorem Lawful.confirmed_eq_none_iff (h : s.Lawful) {hop : Hop} {t : Table} :
    (s.slot ⟨hop, t⟩).confirmed = none ↔ ∀ m ∈ s.confirmed hop, m.source ≠ t := by
  constructor
  · intro hnone m hm heq
    obtain ⟨u, hu⟩ := mem_confirmed.mp hm
    obtain rfl : u = t := by
      rw [← heq]
      exact (congrArg SlotKey.source ((h _).confirmed m hu).2).symm
    cases hnone.symm.trans hu
  · intro hnone
    refine Option.eq_none_iff_forall_ne_some.mpr fun m hm => ?_
    exact hnone m (mem_confirmed.mpr ⟨t, hm⟩) (congrArg SlotKey.source ((h _).confirmed m hm).2)

end Shelf

/-- An orderly store shows a lawful shelf. -/
theorem Store.Orderly.lawful {s : Store} {h : Shelf} (hs : s.Orderly) (hshows : s.Shows h) :
    h.Lawful := by
  intro k
  obtain ⟨v, hv, -, hlawful⟩ := hs.slot_lawful k
  obtain rfl : h.slot k = v := Except.ok.inj ((hshows.slot_eq k).symm.trans hv)
  exact hlawful

/-! ### Proposals -/

namespace Proposal

variable {e : Engine} {r : Registry} {hop : Hop} {source : Table} {ranking : List Ranked}

theorem source_of_mem_candidates {supply : Supply} {m : Mapping}
    (h : m ∈ candidates e hop source ranking supply) : m.hop = hop ∧ m.source = source := by
  obtain ⟨i, hi, rfl⟩ := List.mem_mapIdx.mp h
  exact ⟨rfl, rfl⟩

theorem candidates_eq_nil_iff (htopK : e.topK ≠ 0) {supply : Supply} :
    candidates e hop source ranking supply = [] ↔ ranking = [] :=
  List.mapIdx_eq_nil_iff.trans (Ranked.selectTop_eq_nil_iff htopK)

/-- Up to marks, what is proposed of a hop are the candidates of its source tables. -/
theorem propose_unmarked (e : Engine) (r : Registry) (hop : Hop) (d : Sides) (supply supply' : Supply) :
    (propose e r hop d supply).1.map Mapping.unmarked = (d.sources.flatMap fun x =>
      candidates e hop x.table (Proposal.ranking e r hop d.targets x) supply').map
        Mapping.unmarked := by
  obtain ⟨sources, targets⟩ := d
  have hfold : ∀ (ms : List Mapping) (supply : Supply),
      (sources.foldl (fun (p : List Mapping × Supply) source =>
        let new := candidates e hop source.table (Proposal.ranking e r hop targets source) p.2
        (p.1 ++ new, p.2.advance new.length)) (ms, supply)).1.map Mapping.unmarked =
      (ms ++ sources.flatMap fun x =>
        candidates e hop x.table (Proposal.ranking e r hop targets x) supply').map
          Mapping.unmarked := by
    induction sources with
    | nil => intro ms supply; rw [List.flatMap_nil, List.append_nil]; rfl
    | cons x rest ih =>
      intro ms supply
      rw [List.foldl_cons, List.flatMap_cons]
      refine (ih _ _).trans ?_
      simp only [List.map_append, List.append_assoc, candidates_unmarked e hop x.table _ supply supply']
  exact (hfold [] supply).trans (by rw [List.nil_append])

/-- What is proposed for a source table of a hop are its candidates. -/
theorem mappingsOf_propose {d : Sides} (hnodup : (d.sources.map (·.table)).Nodup) {x : Listed}
    (hx : x ∈ d.sources) (supply supply' : Supply) :
    (mappingsOf x.table (propose e r hop d supply).1).map Mapping.unmarked =
      (candidates e hop x.table (Proposal.ranking e r hop d.targets x) supply').map
        Mapping.unmarked := by
  rw [map_unmarked_mappingsOf, propose_unmarked e r hop d supply supply', ← map_unmarked_mappingsOf,
    mappingsOf_flatMap (·.table) hnodup
      (fun y _ m hm => (source_of_mem_candidates hm).2) hx]

end Proposal

/-! ### Slots -/

namespace Deed

variable {e : Engine} {hop : Hop} {source : Table} {ranking : List Ranked} {supply : Supply}

/-- Without a ranking automatic mapping leaves a slot as it is. -/
theorem effect_of_unranked (e : Engine) (supply : Supply) (hop : Hop) (source : Table) (v : Slot) :
    effect e supply hop source v (Proposal.decide e []) = (.untouched, v) := by
  have hnone : Proposal.candidates e hop source [] supply = [] := by
    rw [Proposal.candidates, Ranked.selectTop, List.take_nil]
    rfl
  change (if (Proposal.candidates e hop source [] supply).isEmpty then _ else _) = _
  rw [hnone]
  rfl

/-- Where nothing is confirmed in the end, the candidates of the ranking were recorded. -/
theorem candidates_effect (hranking : Proposal.candidates e hop source ranking supply ≠ [])
    {v w : Slot} {step : AutoMapStep}
    (heffect : effect e supply hop source v (Proposal.decide e ranking) = (step, w))
    (hopen : w.confirmed = none) : w.candidates = Proposal.candidates e hop source ranking supply := by
  rcases Proposal.decide_cases e ranking with ⟨best, -, hdecide⟩ | ⟨-, hdecide⟩
  · -- confirming leaves a decision
    rw [hdecide, effect] at heffect
    cases hc : v.confirm (.decided supply.stamp hop source best.table best.score .auto none)
      .refreshAuto with
    | error f => cases (Slot.confirm_eq_error_iff.mp hc).1
    | ok cw =>
      obtain ⟨c, v'⟩ := cw
      rw [hc] at heffect
      cases heffect
      cases Slot.confirm_eq_ok_iff.mp hc with
      | created _ => cases hopen
      | replaced _ _ => cases hopen
      | unchanged hp _ _ => cases hp.symm.trans hopen
  · have hempty : (Proposal.candidates e hop source ranking supply).isEmpty ≠ true := fun hnone =>
      hranking (List.isEmpty_iff.mp hnone)
    rw [hdecide, effect, if_neg hempty] at heffect
    obtain ⟨-, rfl⟩ := Prod.mk.inj heffect
    have hv : v.confirmed.isSome = false := by
      rw [Slot.confirmed_record] at hopen
      rw [hopen]
      rfl
    rw [Slot.record_snd_of_none hv]
    -- candidates are in the state in which they are recorded
    refine (List.map_congr_left fun m hm => ?_).trans (List.map_id _)
    obtain ⟨i, hi, rfl⟩ := List.mem_mapIdx.mp hm
    rfl

/-- What automatic mapping asks records candidates under their own key. -/
theorem fair_of_mem_asks {w : World} {targets : List Listed} {x : Listed} {op : Operation}
    (h : op ∈ (auto hop targets x).asks w) : op.Fair := by
  rw [asks, asksOn.eq_def] at h
  split at h
  · rw [List.mem_singleton.mp h]
    trivial
  · dsimp only at h
    split at h
    · cases h
    · rw [List.mem_singleton.mp h]
      rintro m hm
      obtain ⟨hhop, hsource⟩ := Proposal.source_of_mem_candidates hm
      rw [Mapping.key, hhop, hsource]

end Deed

namespace World

variable {w : World} {hop : Hop} {targets sources : List Listed} {h h' : Shelf}
  {steps : List AutoMapStep} {x : Listed}

theorem fair_of_mem_asks {op : Operation} (h : op ∈ w.asks (sources.map (.auto hop targets))) :
    op.Fair := by
  induction sources generalizing w with
  | nil => cases h
  | cons x rest ih =>
    rcases List.mem_append.mp h with h | h
    · exact Deed.fair_of_mem_asks h
    · exact ih h

/-- What was made of the slot of a source table. -/
theorem Mapped.exists_effect (hmapped : w.Mapped hop targets h sources steps h') (hx : x ∈ sources) :
    ∃ supply step, Deed.effect w.engine supply hop x.table (h.slot ⟨hop, x.table⟩)
      (Proposal.decide w.engine (Proposal.ranking w.engine w.registry hop targets x)) =
        (step, h'.slot ⟨hop, x.table⟩) := by
  obtain ⟨heffects, -⟩ := hmapped
  induction heffects with
  | nil => cases hx
  | @cons y step _ _ hy _ ih =>
    rcases List.mem_cons.mp hx with rfl | hx
    · obtain ⟨supply, heffect⟩ := hy
      exact ⟨supply, step, heffect⟩
    · exact ih hx

/-- A source table left open has the candidates of its ranking, if there is one. -/
theorem Mapped.candidates_unmarked (hmapped : w.Mapped hop targets h sources steps h')
    (htopK : w.engine.topK ≠ 0) (hx : x ∈ sources)
    (hopen : (h'.slot ⟨hop, x.table⟩).confirmed = none)
    (hranking : Proposal.ranking w.engine w.registry hop targets x ≠ []) (supply : Supply) :
    (h'.slot ⟨hop, x.table⟩).candidates.map Mapping.unmarked = (Proposal.candidates w.engine hop
      x.table (Proposal.ranking w.engine w.registry hop targets x) supply).map Mapping.unmarked := by
  obtain ⟨supply', step, heffect⟩ := hmapped.exists_effect hx
  rw [Deed.candidates_effect (fun hnil => hranking ((Proposal.candidates_eq_nil_iff htopK).mp hnil))
    heffect hopen]
  exact Proposal.candidates_unmarked w.engine hop x.table _ supply' supply

/-- The slot of a source table without a ranking stays as it was. -/
theorem Mapped.slot_eq_of_unranked (hmapped : w.Mapped hop targets h sources steps h')
    (hx : x ∈ sources) (hranking : Proposal.ranking w.engine w.registry hop targets x = []) :
    h'.slot ⟨hop, x.table⟩ = h.slot ⟨hop, x.table⟩ := by
  obtain ⟨supply, step, heffect⟩ := hmapped.exists_effect hx
  rw [hranking, Deed.effect_of_unranked] at heffect
  exact (congrArg Prod.snd heffect).symm

/-- After a run over source tables the candidates of those for which something is proposed are
current, and so are all candidates exactly if there were none where nothing is proposed. -/
theorem Mapped.current {d : Sides} (hmapped : w.Mapped hop d.targets h d.sources steps h')
    (hnodup : (d.sources.map (·.table)).Nodup) (htopK : w.engine.topK ≠ 0) (hlawful : h.Lawful)
    (hlawful' : h'.Lawful) (supply : Supply) {proposed : List Mapping}
    (hproposed : (Proposal.propose w.engine w.registry hop d supply).1 = proposed) :
    (∀ t ∈ d.sources.map (·.table), (∀ m ∈ h'.confirmed hop, m.source ≠ t) →
      (∃ m ∈ proposed, m.source = t) → Current (h'.candidates hop) proposed t) ∧
    ((∀ t ∈ d.sources.map (·.table), (∀ m ∈ h'.confirmed hop, m.source ≠ t) →
        Current (h'.candidates hop) proposed t) ↔
      ∀ t ∈ d.sources.map (·.table), (∀ m ∈ proposed, m.source ≠ t) →
        ∀ m ∈ h.candidates hop, m.source ≠ t) := by
  have hpart : ∀ x ∈ d.sources, (mappingsOf x.table proposed).map Mapping.unmarked =
      (Proposal.candidates w.engine hop x.table (Proposal.ranking w.engine w.registry hop d.targets x)
        supply).map Mapping.unmarked := fun x hx =>
    hproposed ▸ Proposal.mappingsOf_propose hnodup hx supply supply
  have hnone : ∀ x ∈ d.sources, (∀ m ∈ proposed, m.source ≠ x.table) ↔
      Proposal.ranking w.engine w.registry hop d.targets x = [] := fun x hx => by
    rw [← mappingsOf_eq_nil, ← List.map_eq_nil_iff (f := Mapping.unmarked), hpart x hx,
      List.map_eq_nil_iff, Proposal.candidates_eq_nil_iff htopK]
  have hcurrent : ∀ x ∈ d.sources, (∀ m ∈ h'.confirmed hop, m.source ≠ x.table) →
      ¬ (∀ m ∈ proposed, m.source ≠ x.table) → Current (h'.candidates hop) proposed x.table := by
    intro x hx hopen hsome
    rw [Current, hlawful'.mappingsOf_candidates, hpart x hx]
    exact hmapped.candidates_unmarked htopK hx (hlawful'.confirmed_eq_none_iff.mpr hopen)
      (fun hranking => hsome ((hnone x hx).mpr hranking)) supply
  simp only [List.forall_mem_map]
  refine ⟨fun x hx hopen ⟨m, hm, hsource⟩ => hcurrent x hx hopen fun h => h m hm hsource,
    fun hall x hx hunproposed => ?_, fun hall x hx hopen => ?_⟩
  · rw [← mappingsOf_eq_nil, hlawful.mappingsOf_candidates]
    have hslot := hmapped.slot_eq_of_unranked hx ((hnone x hx).mp hunproposed)
    cases hv : (h.slot ⟨hop, x.table⟩).confirmed with
    | some p => exact (hlawful _).exclusive (hv ▸ rfl)
    | none =>
      -- the table is left open, so nothing is recorded for it, and nothing was
      have hrecorded := hall x hx (hlawful'.confirmed_eq_none_iff.mp (hslot ▸ hv))
      rw [Current, hlawful'.mappingsOf_candidates, hslot, mappingsOf_eq_nil.mpr hunproposed] at hrecorded
      exact List.map_eq_nil_iff.mp hrecorded
  · by_cases hunproposed : ∀ m ∈ proposed, m.source ≠ x.table
    · have hslot := hmapped.slot_eq_of_unranked hx ((hnone x hx).mp hunproposed)
      have hbefore := mappingsOf_eq_nil.mpr (hall x hx hunproposed)
      rw [hlawful.mappingsOf_candidates] at hbefore
      rw [Current, hlawful'.mappingsOf_candidates, hslot, hbefore, mappingsOf_eq_nil.mpr hunproposed]
    · exact hcurrent x hx hopen hunproposed

end World

/-! ### Runs -/

/-- **Recorded candidates are current where something is proposed.**  In a service with registered
connections, a built catalog and valid settings, whatever was asked of its store before, a run of
automatic mapping ends with a report, and candidates can be proposed afterwards.  For every source
table of the hop that has nothing confirmed then and something proposed, the candidates recorded are
those proposed.  So all of them are current exactly if no candidates were recorded earlier for a table
for which nothing is proposed.  A ledger has to be asked what it can keep. -/
theorem Errand.autoMap_current (b : Backend) {ops : List Operation} (hfair : ∀ op ∈ ops, op.Fair)
    {w : World} (hw : w.Regular) (hvalid : w.engine.validate = .ok ())
    (hstore : w.store = (Store.empty b).after ops) (hop : Hop)
    (hledger : b = .ledger → ∀ op ∈ ops ++ w.asks (w.autoDeeds hop), op.Proper) :
    ∃ r w₁ before confirmed recorded, (Errand.autoMap hop).run w = (.ok r, w₁) ∧
      w.store.candidates hop = .ok before ∧ w₁.store.confirmed hop = .ok confirmed ∧
      w₁.store.candidates hop = .ok recorded ∧
      ∀ supply clock, ∃ s w₂,
        (Errand.suggest hop).run { w₁ with supply := supply, clock := clock } = (.ok s, w₂) ∧
        s.failures = r.failures ∧
        (∀ t ∈ w.sourceTables hop, (∀ m ∈ confirmed, m.source ≠ t) →
          (∃ m ∈ s.candidates, m.source = t) → Current recorded s.candidates t) ∧
        ((∀ t ∈ w.sourceTables hop, (∀ m ∈ confirmed, m.source ≠ t) →
            Current recorded s.candidates t) ↔
          ∀ t ∈ w.sourceTables hop, (∀ m ∈ s.candidates, m.source ≠ t) →
            ∀ m ∈ before, m.source ≠ t) := by
  have htopK := (Engine.validate_eq_ok.mp hvalid).topK
  have hledger₀ : b = .ledger → ∀ op ∈ ops, op.Proper := fun hb op hmem =>
    hledger hb op (List.mem_append_left _ hmem)
  obtain ⟨h, hfollows, hbackend⟩ := Store.follows_after b hledger₀
  have hlawful := (Store.orderly_after b hfair hledger₀).lawful hfollows.shows
  rw [← hstore] at hfollows hbackend
  obtain ⟨moment, steps, h', hrun, hfollows', hmapped⟩ := hw.run_autoMap hfollows hop
    fun op hmem hb => hledger (hbackend.symm.trans hb) op (List.mem_append_right _ hmem)
  -- the run has changed nothing but the store, the supply and the time
  obtain ⟨n, hn⟩ := { w with clock := moment }.exists_after_eq (w.autoDeeds hop)
  have hasks : { w with clock := moment }.asks (w.autoDeeds hop) = w.asks (w.autoDeeds hop) :=
    World.asks_congr (v := { w with clock := moment }) (w := w) rfl rfl rfl _
  have hfair' : ∀ op ∈ ops ++ w.asks (w.autoDeeds hop), op.Fair := fun op hmem =>
    (List.mem_append.mp hmem).elim (hfair op) World.fair_of_mem_asks
  have hlawful' : h'.Lawful := by
    refine (Store.orderly_after b hfair' hledger).lawful ?_
    rw [Store.after_append, ← hstore, ← hasks]
    rw [World.store_after] at hfollows'
    exact hfollows'.shows
  rw [hn] at hrun hfollows'
  refine ⟨_, _, h.candidates hop, h'.confirmed hop, h'.candidates hop, hrun,
    hfollows.shows.candidates_eq hop, hfollows'.shows.confirmed_eq hop,
    hfollows'.shows.candidates_eq hop, fun supply clock => ?_⟩
  obtain ⟨moment', hsuggest⟩ := Errand.exists_run_eq (q := .suggest hop)
    (w := { Deed.outcome { w with clock := moment } n
      ({ w with clock := moment }.asks (w.autoDeeds hop)) with supply := supply, clock := clock })
    (steady_gather w.engine w.registry hop) (found_gather w.engine w.registry hop w.surroundings)
  rw [← w.map_table_sourcesOf]
  exact ⟨_, _, hsuggest, by rw [AutoMapStep.foldl_add],
    World.Mapped.current (w := w) hmapped (hw.nodup_sources hop) htopK hlawful hlawful' supply rfl⟩

/-! ### Samples -/

/-- A table, and one of the next tier whose name is hardly like its own. -/
def doubtfulTables : List Table :=
  [⟨Warehouse.erp, "", "dbo", "orders"⟩, ⟨Warehouse.stage, "", "dbo", "stores"⟩]

/-- A table, and one of the next tier that it has nothing in common with. -/
def strangeTables : List Table :=
  [⟨Warehouse.erp, "", "dbo", "orders"⟩, ⟨Warehouse.stage, "", "x", "y"⟩]

theorem Errand.autoMap_current_sample :
    (sampleShop .memory doubtfulTables).engine.validate = .ok () ∧
    ∃ r w₁ before confirmed recorded,
      (Errand.autoMap .sourceToStage).run (sampleShop .memory doubtfulTables) = (.ok r, w₁) ∧
      (sampleShop .memory doubtfulTables).store.candidates .sourceToStage = .ok before ∧
      w₁.store.confirmed .sourceToStage = .ok confirmed ∧
      w₁.store.candidates .sourceToStage = .ok recorded ∧
      ∀ supply clock, ∃ s w₂, (Errand.suggest .sourceToStage).run
          { w₁ with supply := supply, clock := clock } = (.ok s, w₂) ∧
        s.failures = r.failures ∧
        (∀ t ∈ (sampleShop .memory doubtfulTables).sourceTables .sourceToStage,
          (∀ m ∈ confirmed, m.source ≠ t) →
            (∃ m ∈ s.candidates, m.source = t) → Current recorded s.candidates t) ∧
        ((∀ t ∈ (sampleShop .memory doubtfulTables).sourceTables .sourceToStage,
            (∀ m ∈ confirmed, m.source ≠ t) → Current recorded s.candidates t) ↔
          ∀ t ∈ (sampleShop .memory doubtfulTables).sourceTables .sourceToStage,
            (∀ m ∈ s.candidates, m.source ≠ t) → ∀ m ∈ before, m.source ≠ t) := by
  have hvalid : (sampleShop .memory doubtfulTables).engine.validate = .ok () := by decide +kernel
  have hfair : ∀ op ∈ ([] : List Operation), op.Fair := List.forall_mem_nil _
  exact ⟨hvalid, Errand.autoMap_current .memory hfair (regular_sampleShop .memory doubtfulTables)
    hvalid rfl .sourceToStage fun hb => by cases hb⟩

/-! ### Candidates that nothing replaces -/

/-- A service whose store was left by a run over other tables. -/
def restockedShop : World :=
  { sampleShop .memory strangeTables with
    desk := ((Errand.autoMap .sourceToStage).run (sampleShop .memory doubtfulTables)).2.desk }

/-- Candidates of an earlier run over another catalog stay recorded for a table for which nothing is
proposed any more, although the run reports no failures. -/
theorem Errand.not_autoMap_current : ¬ ∀ (hop : Hop) (v w : World), v.Regular → w.Regular →
    v.engine.validate = .ok () → w.engine = v.engine → w.registry = v.registry →
      v.store = Store.empty .memory → w.store = ((Errand.autoMap hop).run v).2.store →
        ∃ r w₁ confirmed recorded s w₂, (Errand.autoMap hop).run w = (.ok r, w₁) ∧
          w₁.store.confirmed hop = .ok confirmed ∧ w₁.store.candidates hop = .ok recorded ∧
          (Errand.suggest hop).run w₁ = (.ok s, w₂) ∧
          (r.failures = [] → ∀ t ∈ w.sourceTables hop, (∀ m ∈ confirmed, m.source ≠ t) →
            Current recorded s.candidates t) := by
  intro h
  let t : Table := ⟨Warehouse.erp, "", "dbo", "orders"⟩
  have hvalid : (sampleShop .memory doubtfulTables).engine.validate = .ok () := by decide +kernel
  obtain ⟨r, w₁, confirmed, recorded, s, w₂, hrun, hconfirmed, hrecorded, hsuggest, hcurrent⟩ :=
    h .sourceToStage (sampleShop .memory doubtfulTables) restockedShop
      (regular_sampleShop .memory doubtfulTables)
      ⟨(regular_sampleShop .memory strangeTables).registry,
        (regular_sampleShop .memory strangeTables).catalog⟩ hvalid rfl rfl rfl rfl
  have hanswers : ((Errand.autoMap .sourceToStage).run restockedShop).1.toOption =
        some ⟨0, 0, 1, 0, 0, []⟩ ∧
      (((Errand.autoMap .sourceToStage).run restockedShop).2.store.confirmed
        .sourceToStage).toOption = some [] ∧
      ((((Errand.autoMap .sourceToStage).run restockedShop).2.store.candidates
        .sourceToStage).toOption.map fun cs => (mappingsOf t cs).length) = some 1 ∧
      ((Errand.suggest .sourceToStage).run
        ((Errand.autoMap .sourceToStage).run restockedShop).2).1.toOption = some ⟨[], []⟩ ∧
      t ∈ restockedShop.sourceTables .sourceToStage := by
    decide +kernel
  rw [hrun] at hanswers
  dsimp only at hanswers
  rw [hconfirmed, hrecorded, hsuggest] at hanswers
  obtain ⟨hr, hc, hlength, hs, ht⟩ := hanswers
  cases hr
  cases hc
  cases hs
  have hmappings := congrArg List.length (hcurrent rfl t ht (List.forall_mem_nil _))
  rw [List.length_map] at hmappings
  cases (Option.some.inj hlength).symm.trans hmappings

end TierLineage
