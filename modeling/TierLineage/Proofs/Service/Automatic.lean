import TierLineage.Proofs.Mapping.Marks
import TierLineage.Proofs.Service.Deeds
import TierLineage.Proofs.Service.Sides
import TierLineage.Sample.Warehouse

/-!
# Automatic mapping repeats itself

What automatic mapping does with a source table depends on its slot alone, and what it leaves there
is settled: done again, it confirms and updates nothing, and records the same candidates as before.
The source tables of a hop have different slots.  So a second run, with nothing changed in between,
reports what the first one did except that nothing is created or updated, and leaves all decisions
as they are, and all candidates up to their marks.
-/

namespace TierLineage

open TierLineage.Number TierLineage.Mappings

/-! ### What is done in a slot -/

/-- What confirming automatically did to a source table. -/
def Mappings.AutoMapStep.ofConfirmation : Confirmation → AutoMapStep
  | .created _ => .created
  | .replaced _ _ => .updated
  | .unchanged _ => .untouched

/-- What is done to a source table that was mapped before: nothing is created or updated. -/
def Mappings.AutoMapStep.again : AutoMapStep → AutoMapStep
  | .recorded count tie => .recorded count tie
  | _ => .untouched

namespace Deed

/-- What a decision on a source table does in its slot. -/
def effect (e : Engine) (supply : Supply) (hop : Hop) (source : Table) (v : Slot) :
    Proposal.Decision → AutoMapStep × Slot
  | .confirm target score =>
    match v.confirm (.decided supply.stamp hop source target score .auto none) .refreshAuto with
    | .ok (c, w) => (.ofConfirmation c, w)
    | .error _ => (.untouched, v)
  | .record ranking tie =>
    let ms := Proposal.candidates e hop source ranking supply
    if ms.isEmpty then (.untouched, v)
    else ((if v.confirmed.isSome then .untouched else .recorded ms.length tie), (v.record ms).2)

variable {w : World} {h : Shelf} {hop : Hop} {targets : List Listed} {x : Listed}

/-- Whether a step is what an effect says, and the store follows where it leads. -/
structure Effected (h : Shelf) (k : SlotKey) (made : AutoMapStep × Slot)
    (result : Outcome AutoMapStep × World) : Prop where
  step_eq : result.1 = .ok made.1
  follows : ∃ h', result.2.store.Follows h' ∧ h.Sets k made.2 h'

theorem autoConfirm_eq {source target : Table} {score : Single} {c : Confirmation} {s' : Store}
    (hs' : w.store.confirm (.decided w.supply.stamp hop source target score .auto none) .refreshAuto =
      (.ok c, s')) :
    autoConfirm w hop source target score =
      (.ok (.ofConfirmation c), { w with supply := w.supply.advance 1 }.withStore s') := by
  have hstore : { w with supply := w.supply.advance 1 }.store.confirm
      (.decided w.supply.stamp hop source target score .auto none) .refreshAuto = (.ok c, s') := hs'
  rw [autoConfirm, hstore]
  cases c <;> rfl

theorem autoConfirm_effected {source target : Table} {score : Single} (hw : w.store.Follows h)
    (htakes : ∀ op ∈ asksOn w hop source (.confirm target score), w.store.Takes op) :
    Effected h ⟨hop, source⟩
      (effect w.engine w.supply hop source (h.slot ⟨hop, source⟩) (.confirm target score))
      (autoConfirm w hop source target score) := by
  let m := Mapping.decided w.supply.stamp hop source target score .auto none
  obtain ⟨s', hs', hfollows, -⟩ := hw.confirm (htakes (.confirm m .refreshAuto)
    (List.mem_singleton_self _))
  cases hc : (h.slot m.key).confirm m .refreshAuto with
  | error e =>
    -- only the mode that may not replace ends in conflicts
    cases (Slot.confirm_eq_error_iff.mp hc).1
  | ok cv =>
    obtain ⟨c, v⟩ := cv
    have hshelf : h.confirm m .refreshAuto = (.ok c, h.putSlot m.key v) := by
      rw [Shelf.confirm, hc]
    rw [hshelf] at hs' hfollows
    have heffect : effect w.engine w.supply hop source (h.slot ⟨hop, source⟩)
        (.confirm target score) = (.ofConfirmation c, v) := by
      change (match (h.slot m.key).confirm m .refreshAuto with
        | .ok (c, w) => (AutoMapStep.ofConfirmation c, w)
        | .error _ => (.untouched, h.slot m.key)) = _
      rw [hc]
    rw [heffect, autoConfirm_eq hs']
    exact ⟨rfl, _, hfollows, h.sets_putSlot m.key v⟩

theorem autoRecord_effected {source : Table} {ranking : List Ranked} {tie : Bool}
    (hw : w.store.Follows h)
    (htakes : ∀ op ∈ asksOn w hop source (.record ranking tie), w.store.Takes op) :
    Effected h ⟨hop, source⟩
      (effect w.engine w.supply hop source (h.slot ⟨hop, source⟩) (.record ranking tie))
      (autoRecord w hop source ranking tie) := by
  rw [asksOn] at htakes
  rw [effect, autoRecord]
  split
  · refine ⟨rfl, h, hw, fun j => ?_, fun _ => rfl⟩
    split
    · next hj => rw [hj]
    · rfl
  · next hempty =>
    rw [if_neg hempty] at htakes
    obtain ⟨s', hs', hfollows, -⟩ := hw.record (htakes _ (List.mem_singleton_self _))
    have hsets := h.sets_putSlot ⟨hop, source⟩ ((h.slot ⟨hop, source⟩).record
      (Proposal.candidates w.engine hop source ranking w.supply)).2
    have hstore : ∀ n, { w with supply := w.supply.advance n }.store = w.store := fun _ => rfl
    rw [hstore, hs']
    -- the slot tells whether it took the candidates
    cases hv : (h.slot ⟨hop, source⟩).confirmed.isSome with
    | true =>
      have htaken : (h.record ⟨hop, source⟩
          (Proposal.candidates w.engine hop source ranking w.supply)).1 = false := by
        simp only [Shelf.record, Slot.record, hv, if_true]
      rw [htaken]
      exact ⟨rfl, _, hfollows, hsets⟩
    | false =>
      have htaken : (h.record ⟨hop, source⟩
          (Proposal.candidates w.engine hop source ranking w.supply)).1 = true := by
        simp only [Shelf.record, Slot.record, hv, Bool.false_eq_true, if_false]
      rw [htaken]
      exact ⟨rfl, _, hfollows, hsets⟩

/-- Automatic mapping of a source table does to its slot what its decision does there. -/
theorem autoMapOne_effected (hw : w.store.Follows h)
    (htakes : ∀ op ∈ (auto hop targets x).asks w, w.store.Takes op) :
    Effected h ⟨hop, x.table⟩
      (effect w.engine w.supply hop x.table (h.slot ⟨hop, x.table⟩) (decision w hop targets x))
      (autoMapOne w hop targets x) := by
  rw [autoMapOne]
  rw [asks] at htakes
  rw [decision] at htakes ⊢
  cases hdecide : Proposal.decide w.engine (Proposal.ranking w.engine w.registry hop targets x) with
  | confirm target score => exact autoConfirm_effected hw (hdecide ▸ htakes)
  | record ranking tie => exact autoRecord_effected hw (hdecide ▸ htakes)

/-! ### What is settled -/

/-- Whether a decision does nothing new in a slot: it repeats a step, and leaves the slot up to
marks. -/
structure Settled (e : Engine) (hop : Hop) (source : Table) (d : Proposal.Decision) (v : Slot)
    (step : AutoMapStep) : Prop where
  step_eq : ∀ supply, (effect e supply hop source v d).1 = step.again
  alike : ∀ supply, (effect e supply hop source v d).2.Alike v

/-- Where an automatic mapping would bring no news, it is settled. -/
theorem settled_of_not_refreshes {e : Engine} {source target : Table} {score : Single} {v : Slot}
    {p : Mapping} {step : AutoMapStep} (hp : v.confirmed = some p) (hstep : step.again = .untouched)
    (hkeeps : ∀ supply : Supply, Slot.refreshes p (Slot.asConfirmed
      (.decided supply.stamp hop source target score .auto none)) = false) :
    Settled e hop source (.confirm target score) v step := by
  have heffect : ∀ supply, effect e supply hop source v (.confirm target score) = (.untouched, v) := by
    intro supply
    have hmode : ConfirmMode.refreshAuto.replaces p _ = false := hkeeps supply
    rw [effect, Slot.confirm_eq_ok_iff.mpr (.unchanged hp hmode fun h => by cases h)]
    rfl
  exact ⟨fun supply => by rw [heffect, hstep], fun supply => by rw [heffect]; exact v.alike_refl⟩

/-- What confirming automatically leaves is settled. -/
theorem settled_confirm {e : Engine} {source target : Table} {score : Single} (hscore : score ≠ .nan)
    (supply : Supply) (v : Slot) :
    Settled e hop source (.confirm target score)
      (effect e supply hop source v (.confirm target score)).2
      (effect e supply hop source v (.confirm target score)).1 := by
  let m (supply : Supply) := Mapping.decided supply.stamp hop source target score .auto none
  obtain ⟨negative, units, hconfidence⟩ := Binary.exists_clamp_eq hscore
  have hm : ∀ supply supply' : Supply,
      (Slot.asConfirmed (m supply)).unmarked = (Slot.asConfirmed (m supply')).unmarked :=
    fun _ _ => rfl
  cases hc : v.confirm (m supply) .refreshAuto with
  | error e => cases (Slot.confirm_eq_error_iff.mp hc).1
  | ok cw =>
    obtain ⟨c, w⟩ := cw
    have heffect : effect e supply hop source v (.confirm target score) = (.ofConfirmation c, w) := by
      rw [effect, hc]
    rw [heffect]
    cases Slot.confirm_eq_ok_iff.mp hc with
    | created _ =>
      exact settled_of_not_refreshes rfl rfl fun supply' =>
        Slot.refreshes_eq_false (hm supply supply') hconfidence
    | @replaced p hp _ =>
      -- the successor has the identity of another mapping, which is only a mark
      have hsuccessor := Mapping.successor_unmarked p (Slot.asConfirmed (m supply))
      exact settled_of_not_refreshes rfl rfl fun supply' =>
        Slot.refreshes_eq_false (hsuccessor.trans (hm supply supply'))
          ((congrArg Mapping.confidence hsuccessor).trans hconfidence)
    | unchanged hp hkeeps _ =>
      exact settled_of_not_refreshes hp rfl fun supply' =>
        (Slot.refreshes_congr (hm supply' supply)).trans hkeeps

/-- What recording leaves is settled. -/
theorem settled_record (e : Engine) (source : Table) (ranking : List Ranked) (tie : Bool)
    (supply : Supply) (v : Slot) :
    Settled e hop source (.record ranking tie)
      (effect e supply hop source v (.record ranking tie)).2
      (effect e supply hop source v (.record ranking tie)).1 := by
  have hms := Proposal.candidates_unmarked e hop source ranking
  have hlength : ∀ supply supply', (Proposal.candidates e hop source ranking supply).length =
      (Proposal.candidates e hop source ranking supply').length := fun supply supply' => by
    simpa using congrArg List.length (hms supply supply')
  have hempty : ∀ supply', (Proposal.candidates e hop source ranking supply').isEmpty =
      (Proposal.candidates e hop source ranking supply).isEmpty := fun supply' => by
    rw [Bool.eq_iff_iff, List.isEmpty_iff_length_eq_zero, List.isEmpty_iff_length_eq_zero,
      hlength supply' supply]
  simp only [effect]
  split
  · next hnone =>
    constructor <;> intro supply'
    · simp only [effect, hempty, hnone, if_true]
      rfl
    · simp only [effect, hempty, hnone, if_true]
      exact v.alike_refl
  · next hsome =>
    cases hv : v.confirmed.isSome with
    | true =>
      -- a slot with a decision stays as it is
      have hslot : ∀ ms, (v.record ms).2 = v := fun ms => by rw [Slot.record, if_pos hv]
      rw [hslot]
      constructor <;> intro supply'
      · simp only [effect, hempty, hsome, hv]
        rfl
      · simp only [effect, hempty, hsome, hslot]
        exact v.alike_refl
    | false =>
      rw [Slot.record_snd_of_none hv]
      constructor <;> intro supply'
      · simp only [effect, hempty, hsome, hv, hlength supply' supply]
        rfl
      · simp only [effect, hempty, hsome]
        have hagain := fun cs => Slot.record_snd_of_none (v := ⟨v.confirmed, cs⟩) hv
        rw [if_neg Bool.false_ne_true, hagain]
        have hmarks := congrArg (List.map Slot.asCandidate) (hms supply' supply)
        rw [List.map_map, List.map_map] at hmarks
        exact ⟨rfl, by rw [List.map_map, List.map_map]; exact hmarks⟩

/-- A target that is confirmed scored high enough, and so has a score. -/
theorem ne_nan_of_decision {target : Table} {score : Single}
    (hd : decision w hop targets x = .confirm target score) : score ≠ .nan := by
  rw [decision, Proposal.decide] at hd
  split at hd
  · cases hd
  · next best others _ =>
    dsimp only at hd
    split at hd
    · next haccepted =>
      cases hd
      intro hnan
      rw [hnan, Bool.and_eq_true] at haccepted
      cases hthreshold : w.engine.acceptanceThreshold <;>
        rw [hthreshold] at haccepted <;> cases haccepted.1
    · cases hd

/-- What automatic mapping leaves of a source table is settled. -/
theorem settled_effect (w : World) (hop : Hop) (targets : List Listed) (x : Listed) (supply : Supply)
    (v : Slot) : Settled w.engine hop x.table (decision w hop targets x)
      (effect w.engine supply hop x.table v (decision w hop targets x)).2
      (effect w.engine supply hop x.table v (decision w hop targets x)).1 := by
  cases hd : decision w hop targets x with
  | confirm target score => exact settled_confirm (ne_nan_of_decision hd) supply v
  | record ranking tie => exact settled_record w.engine x.table ranking tie supply v

end Deed

/-! ### Runs -/

namespace World

variable {w : World} {h : Shelf} {hop : Hop} {targets sources : List Listed}

/-- Whether automatic mapping took steps with source tables, each in its slot, and left everything
under other keys. -/
structure Mapped (w : World) (hop : Hop) (targets : List Listed) (h : Shelf) (sources : List Listed)
    (steps : List AutoMapStep) (h' : Shelf) : Prop where
  effects : List.Forall₂ (fun x step => ∃ supply,
    Deed.effect w.engine supply hop x.table (h.slot ⟨hop, x.table⟩) (Deed.decision w hop targets x) =
      (step, h'.slot ⟨hop, x.table⟩)) sources steps
  other : ∀ k, (∀ x ∈ sources, k ≠ ⟨hop, x.table⟩) → h'.slot k = h.slot k

theorem autoMapAll_cons {w' : World} {x : Listed} {step : AutoMapStep}
    (hone : autoMapOne w hop targets x = (.ok step, w')) (rest : List Listed)
    (report : AutoMapReport) : autoMapAll hop targets w (x :: rest) report =
      autoMapAll hop targets w' rest (AutoMapReport.add report step) := by
  rw [autoMapAll, hone]

/-- Mapping source tables of different slots one after the other takes a step with each of them. -/
theorem autoMapAll_spec (hnodup : (sources.map (·.table)).Nodup) (hw : w.store.Follows h)
    (htakes : ∀ op ∈ w.asks (sources.map (.auto hop targets)), w.store.Takes op)
    (report : AutoMapReport) :
    ∃ steps h', autoMapAll hop targets w sources report =
        (.ok (steps.foldl AutoMapReport.add report), w.after (sources.map (.auto hop targets))) ∧
      (w.after (sources.map (.auto hop targets))).store.Follows h' ∧
        w.Mapped hop targets h sources steps h' := by
  -- each step changes the slot of its own source table, and finds it as it was before the run
  induction sources generalizing w h report with
  | nil => exact ⟨[], h, rfl, hw, .nil, fun _ _ => rfl⟩
  | cons x rest ih =>
    obtain ⟨hx, hrest⟩ := List.nodup_cons.mp hnodup
    let d : Deed := .auto hop targets x
    have htakes' : ∀ op ∈ d.asks w, w.store.Takes op := fun op hop =>
      htakes op (List.mem_append_left _ hop)
    obtain ⟨hstep, h₁, hfollows, hsets⟩ := Deed.autoMapOne_effected (x := x) hw htakes'
    obtain ⟨-, -, -, hbackend⟩ := hw.after htakes'
    rw [← Deed.store_perform] at hbackend
    generalize hmade : Deed.effect w.engine w.supply hop x.table (h.slot ⟨hop, x.table⟩)
      (Deed.decision w hop targets x) = made at hstep hsets
    obtain ⟨step, v⟩ := made
    obtain ⟨steps, h', hrun, hfollows', heffects, hother⟩ := ih hrest (w := d.perform w) hfollows
      (fun op hop hb => htakes op (List.mem_append_right _ hop) (hbackend ▸ hb))
      (AutoMapReport.add report step)
    have hengine : (d.perform w).engine = w.engine := by rw [Deed.perform_eq]; rfl
    have hdecision : Deed.decision (d.perform w) hop targets = Deed.decision w hop targets := by
      rw [Deed.perform_eq]; rfl
    have hne : ∀ y ∈ rest, (⟨hop, y.table⟩ : SlotKey) ≠ ⟨hop, x.table⟩ := by
      rintro y hy heq
      exact hx (List.mem_map.mpr ⟨y, hy, congrArg SlotKey.source heq⟩)
    refine ⟨step :: steps, h', ?_, hfollows', .cons ⟨w.supply, ?_⟩ ?_, fun k hk => ?_⟩
    · have hone : autoMapOne w hop targets x = (.ok step, d.perform w) := Prod.ext hstep rfl
      exact (autoMapAll_cons hone rest report).trans hrun
    · -- the other source tables leave the slot of this one
      rw [hmade, hother _ fun y hy => (hne y hy).symm, hsets.slot_eq, if_pos rfl]
    · rw [hengine, hdecision] at heffects
      refine ((List.forall₂_and_left (p := (· ∈ rest)) rest steps).mpr
        ⟨fun _ => id, heffects⟩).imp ?_
      rintro y step' ⟨hy, supply, heffect⟩
      rw [hsets.slot_eq, if_neg (hne y hy)] at heffect
      exact ⟨supply, heffect⟩
    · rw [hother k fun y hy => hk y (List.mem_cons_of_mem x hy), hsets.slot_eq,
        if_neg (hk x (List.mem_cons_self ..))]

/-- Source tables that were mapped before take the same steps again, and their slots stay alike. -/
theorem Mapped.again {v : World} {h h' h'' : Shelf} {steps steps' : List AutoMapStep}
    (hfirst : w.Mapped hop targets h sources steps h')
    (hsecond : v.Mapped hop targets h' sources steps' h'') (hengine : v.engine = w.engine)
    (hregistry : v.registry = w.registry) :
    steps' = steps.map AutoMapStep.again ∧ ∀ k, (h''.slot k).Alike (h'.slot k) := by
  have hdecision : Deed.decision v hop targets = Deed.decision w hop targets := by
    funext x
    rw [Deed.decision, Deed.decision, hengine, hregistry]
  obtain ⟨hbefore, -⟩ := hfirst
  obtain ⟨heffects, hother⟩ := hsecond
  rw [hengine, hdecision] at heffects
  have hboth : steps' = steps.map AutoMapStep.again ∧
      ∀ x ∈ sources, (h''.slot ⟨hop, x.table⟩).Alike (h'.slot ⟨hop, x.table⟩) := by
    clear hother
    -- both runs took one step with each source table, the second one where the first one left it
    induction hbefore generalizing steps' with
    | nil =>
      cases heffects
      exact ⟨rfl, List.forall_mem_nil _⟩
    | @cons x step rest steps hx _ ih =>
      cases heffects with
      | @cons _ step' _ steps' hx' hrest' =>
        obtain ⟨supply, heffect⟩ := hx
        obtain ⟨supply', heffect'⟩ := hx'
        have hsettled := Deed.settled_effect w hop targets x supply (h.slot ⟨hop, x.table⟩)
        rw [heffect] at hsettled
        have hstep := hsettled.step_eq supply'
        have halike := hsettled.alike supply'
        rw [heffect'] at hstep halike
        obtain ⟨hsteps, hslots⟩ := ih hrest'
        exact ⟨by rw [List.map_cons, hsteps, ← hstep], List.forall_mem_cons.mpr ⟨halike, hslots⟩⟩
  refine ⟨hboth.1, fun k => ?_⟩
  by_cases hk : ∃ x ∈ sources, k = ⟨hop, x.table⟩
  · obtain ⟨x, hx, rfl⟩ := hk
    exact hboth.2 x hx
  · rw [hother k fun x hx heq => hk ⟨x, hx, heq⟩]
    exact Slot.alike_refl _

end World

/-- Steps that are taken again leave what a report says but for what was created and updated. -/
theorem Mappings.foldl_add_again (steps : List AutoMapStep) {r r' : AutoMapReport}
    (h : r' = { r with created := 0, updated := 0 }) :
    (steps.map AutoMapStep.again).foldl AutoMapReport.add r' =
      { steps.foldl AutoMapReport.add r with created := 0, updated := 0 } := by
  induction steps generalizing r r' with
  | nil => exact h
  | cons step steps ih =>
    rw [List.map_cons, List.foldl_cons, List.foldl_cons]
    refine ih ?_
    cases step <;> rw [h] <;> rfl

/-! ### Two runs -/

/-- The deeds of a run of automatic mapping, one for each source table. -/
def World.autoDeeds (w : World) (hop : Hop) : List Deed :=
  (sides w.engine w.registry w.surroundings hop).sources.map
    (.auto hop (sides w.engine w.registry w.surroundings hop).targets)

/-- Whether two stores hold the same decisions, and candidates that differ in their marks only. -/
structure Store.Alike (s t : Store) : Prop where
  confirmed?_eq : ∀ k, ∃ m, s.confirmed? k = .ok m ∧ t.confirmed? k = .ok m
  confirmed_eq : ∀ hop, ∃ ms, s.confirmed hop = .ok ms ∧ t.confirmed hop = .ok ms
  candidates_eq : ∀ hop, ∃ cs ds, s.candidates hop = .ok cs ∧ t.candidates hop = .ok ds ∧
    cs.map Mapping.unmarked = ds.map Mapping.unmarked

theorem Store.Follows.alike {s t : Store} {h h' : Shelf} (hs : s.Follows h) (ht : t.Follows h')
    (hslots : ∀ k, (h.slot k).Alike (h'.slot k)) : s.Alike t where
  confirmed?_eq k := ⟨_, hs.shows.confirmed?_eq k, by
    rw [ht.shows.confirmed?_eq, (hslots k).confirmed_eq]⟩
  confirmed_eq hop := ⟨_, hs.shows.confirmed_eq hop, by
    rw [ht.shows.confirmed_eq, (Shelf.listings_alike hslots hop).1]⟩
  candidates_eq hop := ⟨_, _, hs.shows.candidates_eq hop, ht.shows.candidates_eq hop,
    (Shelf.listings_alike hslots hop).2⟩

/-- A run of automatic mapping of a service takes a step with every source table of the hop. -/
theorem World.Regular.run_autoMap {w : World} (hw : w.Regular) {h : Shelf}
    (hfollows : w.store.Follows h) (hop : Hop)
    (htakes : ∀ op ∈ w.asks (w.autoDeeds hop), w.store.Takes op) :
    ∃ moment steps h', (Errand.autoMap hop).run w =
        (.ok (steps.foldl AutoMapReport.add
          ⟨0, 0, (sides w.engine w.registry w.surroundings hop).sources.length, 0, 0,
            unanswered (loadedOf w.engine w.surroundings
              (w.registry.aliasesOf hop.start ++ w.registry.aliasesOf hop.target))⟩),
          { w with clock := moment }.after (w.autoDeeds hop)) ∧
      ({ w with clock := moment }.after (w.autoDeeds hop)).store.Follows h' ∧
      w.Mapped hop (sides w.engine w.registry w.surroundings hop).targets h
        (sides w.engine w.registry w.surroundings hop).sources steps h' := by
  obtain ⟨moment, hrun⟩ := Errand.exists_run_eq (q := .autoMap hop) (w := w)
    (steady_gather w.engine w.registry hop) (found_gather w.engine w.registry hop w.surroundings)
  have hasks : { w with clock := moment }.asks (w.autoDeeds hop) = w.asks (w.autoDeeds hop) :=
    World.asks_congr (v := { w with clock := moment }) (w := w) rfl rfl rfl _
  obtain ⟨steps, h', hsteps, hfollows', hmapped⟩ := World.autoMapAll_spec
    (w := { w with clock := moment }) (hw.nodup_sources hop) hfollows
    (fun op hmem => htakes op (hasks ▸ hmem)) _
  exact ⟨moment, steps, h', hrun.trans hsteps, hfollows', hmapped.effects, hmapped.other⟩

/-- **Automatic mapping repeats itself.**  In a service with registered connections and a built
catalog, whose store started empty, a run of automatic mapping ends with a report; a second run, with
nothing changed in between but time and the supply of marks, creates and updates nothing, reports
everything else as the first one did, and leaves the same decisions, and candidates that differ in
their marks only.  A ledger has to be asked what it can keep. -/
theorem Errand.autoMap_again (b : Backend) {ops : List Operation} {w : World} (hw : w.Regular)
    (hstore : w.store = (Store.empty b).after ops) (hop : Hop) (supply : Supply)
    (hledger : b = .ledger → ∀ op ∈ ops ++ w.asks (w.autoDeeds hop) ++
      { w with supply := supply }.asks (w.autoDeeds hop), op.Proper) :
    ∃ r w₁, (Errand.autoMap hop).run w = (.ok r, w₁) ∧
      ∀ clock, ∃ w₂, (Errand.autoMap hop).run { w₁ with supply := supply, clock := clock } =
          (.ok { r with created := 0, updated := 0 }, w₂) ∧
        w₁.store.Alike w₂.store := by
  simp only [List.mem_append, or_imp, forall_and] at hledger
  obtain ⟨⟨hops, hfirst⟩, hsecond⟩ := hledger
  obtain ⟨h, hfollows, hbackend⟩ := Store.follows_after b hops
  rw [← hstore] at hfollows hbackend
  have htakes : ∀ op ∈ w.asks (w.autoDeeds hop), w.store.Takes op := fun op hmem hb =>
    hfirst (hbackend.symm.trans hb) op hmem
  obtain ⟨moment, steps, h', hrun, hfollows', hmapped⟩ := hw.run_autoMap hfollows hop htakes
  refine ⟨_, _, hrun, fun clock => ?_⟩
  -- the first run has changed nothing but the store, the supply and the time
  obtain ⟨n, hn⟩ := { w with clock := moment }.exists_after_eq (w.autoDeeds hop)
  have hasks : { w with clock := moment }.asks (w.autoDeeds hop) = w.asks (w.autoDeeds hop) :=
    World.asks_congr (v := { w with clock := moment }) (w := w) rfl rfl rfl _
  rw [hn, hasks] at hfollows' ⊢
  let v : World := { Deed.outcome { w with clock := moment } n (w.asks (w.autoDeeds hop)) with
    supply := supply, clock := clock }
  obtain ⟨-, -, -, hbackend'⟩ := hfollows.after htakes
  have htakes' : ∀ op ∈ v.asks (v.autoDeeds hop), v.store.Takes op := by
    intro op hmem hb
    have hsupply : v.asks (v.autoDeeds hop) = { w with supply := supply }.asks (w.autoDeeds hop) :=
      World.asks_congr (v := v) (w := { w with supply := supply }) rfl rfl rfl _
    exact hsecond (hbackend.symm.trans (hbackend'.symm.trans hb)) op (hsupply ▸ hmem)
  obtain ⟨moment', steps', h'', hrun', hfollows'', hmapped'⟩ :=
    World.Regular.run_autoMap (w := v) ⟨hw.registry, hw.catalog⟩ hfollows' hop htakes'
  obtain ⟨rfl, halike⟩ := hmapped.again hmapped' rfl rfl
  exact ⟨_, hrun'.trans (Prod.ext (congrArg Except.ok (foldl_add_again steps rfl)) rfl),
    hfollows'.alike hfollows'' fun k => (halike k).symm⟩

/-! ### Samples -/

/-- A service with a source connection, a staging area, and tables to map between them. -/
def sampleShop (b : Backend) (tables : List Table) : World :=
  let registry : Registry := ⟨((∅ : Std.TreeMap String Connection).insert "erp"
    (.plain Warehouse.erp .source)).insert "stage" (.plain Warehouse.stage .stage)⟩
  let engine : Engine := { Engine.standard with acceptanceThreshold := Binary.ofRatio 1 4 }
  .idle registry engine (tables.foldl (fun c t => c.insertTable t []) .empty) (.empty b) .absent
    ⟨0, ⟨0, 0⟩⟩

theorem regular_sampleShop (b : Backend) (tables : List Table) : (sampleShop b tables).Regular where
  registry := ⟨[.plain Warehouse.erp .source, .plain Warehouse.stage .stage], rfl⟩
  catalog := by
    have hfold : ∀ {c : Catalog}, c.Static →
        (tables.foldl (fun c t => c.insertTable t []) c).Static := by
      induction tables with
      | nil => exact fun hc => hc
      | cons t ts ih => exact fun hc => ih (hc.insertTable t [])
    exact hfold .empty

/-- A table to map, and the table that it is mapped to. -/
def sampleTables : List Table :=
  [⟨Warehouse.erp, "", "dbo", "orders"⟩, ⟨Warehouse.stage, "", "dbo", "orders"⟩]

theorem Errand.autoMap_again_sample :
    ∃ r w₁, (Errand.autoMap .sourceToStage).run (sampleShop .ledger sampleTables) = (.ok r, w₁) ∧
      ∀ clock, ∃ w₂, (Errand.autoMap .sourceToStage).run
          { w₁ with supply := ⟨7, ⟨0, 0⟩⟩, clock := clock } =
            (.ok { r with created := 0, updated := 0 }, w₂) ∧
        w₁.store.Alike w₂.store := by
  let source : Table := ⟨Warehouse.erp, "", "dbo", "orders"⟩
  let target : Table := ⟨Warehouse.stage, "", "dbo", "orders"⟩
  have hsides : sides (sampleShop .ledger sampleTables).engine
      (sampleShop .ledger sampleTables).registry (sampleShop .ledger sampleTables).surroundings
      .sourceToStage = ⟨[⟨source, []⟩], [⟨target, []⟩]⟩ := by
    decide +kernel
  have hdecision : Deed.decision (sampleShop .ledger sampleTables) .sourceToStage [⟨target, []⟩]
      ⟨source, []⟩ = .confirm target (Binary.ofNat 1) := by
    decide +kernel
  have hkey : (⟨.sourceToStage, source⟩ : SlotKey).Proper :=
    ⟨⟨by unfold Plain; decide, by unfold Plain; decide, by unfold Plain; decide⟩, by decide⟩
  -- with either supply one confirmation is asked
  have hproper : ∀ n, n < 2 ^ 128 → ∀ op ∈ { sampleShop .ledger sampleTables with
      supply := ⟨n, ⟨0, 0⟩⟩ }.asks ((sampleShop .ledger sampleTables).autoDeeds .sourceToStage),
        op.Proper := by
    intro n hn op hop
    have hdecision' : Deed.decision { sampleShop .ledger sampleTables with supply := ⟨n, ⟨0, 0⟩⟩ }
      .sourceToStage [⟨target, []⟩] ⟨source, []⟩ = .confirm target (Binary.ofNat 1) := hdecision
    rw [World.autoDeeds, hsides, List.map_singleton, World.asks, Deed.asks, hdecision'] at hop
    rw [List.mem_singleton.mp hop]
    exact ⟨hkey, legible_decided_one hn ..⟩
  have hempty : (sampleShop .ledger sampleTables).store = (Store.empty .ledger).after [] := rfl
  refine Errand.autoMap_again .ledger (regular_sampleShop .ledger sampleTables) hempty _ _
    fun _ op hop => ?_
  rcases List.mem_append.mp hop with hop | hop
  · exact hproper 0 (by decide) op hop
  · exact hproper 7 (by decide) op hop

/-! ### Source tables that share a key -/

/-- Whether a ledger holds an automatic mapping of a source table under a key. -/
structure Ledger.HoldsAuto (l : Ledger) (key : String) (source target : Table) : Prop where
  slot_eq : ∃ p, (∀ k, slotKey k = key → l.slot k = .ok (Slot.holding p)) ∧
    p.provenance = .auto ∧ p.source = source ∧ p.target = target ∧ p.Legible

/-- A source table that shares its key with another one which was mapped automatically to the same
target takes the place of the other one. -/
theorem Deed.autoMapOne_of_shared {w : World} {l : Ledger} {hop : Hop} {targets : List Listed}
    {x : Listed} {other target : Table} {score : Single} (hl : w.store = .ledger l)
    (hheld : l.HoldsAuto (Ledger.slotKey ⟨hop, x.table⟩) other target) (hne : other ≠ x.table)
    (hd : decision w hop targets x = .confirm target score)
    (hfits : (Ledger.slotKey ⟨hop, x.table⟩).utf8ByteSize ≤ Ledger.keyLimit)
    (hm : (Mapping.decided w.supply.stamp hop x.table target score .auto none).Legible) :
    ∃ l', autoMapOne w hop targets x =
        (.ok .updated, { w with supply := w.supply.advance 1 }.withStore (.ledger l')) ∧
      l'.HoldsAuto (Ledger.slotKey ⟨hop, x.table⟩) x.table target := by
  obtain ⟨p, hslot, hauto, hsource, htarget, hp⟩ := hheld
  let m := Mapping.decided w.supply.stamp hop x.table target score .auto none
  have hcontent : p.sameContent (Slot.asConfirmed m) = false := by
    have hbeq : (p.source == (Slot.asConfirmed m).source) = false :=
      beq_eq_false_iff_ne.mpr (hsource ▸ hne)
    simp only [Mapping.sameContent, hbeq, Bool.and_false, Bool.false_and]
  have hrefreshes : ConfirmMode.refreshAuto.replaces p (Slot.asConfirmed m) = true := by
    have hboth : (p.target == (Slot.asConfirmed m).target) = true := beq_iff_eq.mpr htarget
    have hprovenance : (Slot.asConfirmed m).provenance = .auto := rfl
    simp only [ConfirmMode.replaces, Slot.refreshes, hauto, hprovenance, hboth, hcontent]
    rfl
  have hq : (Slot.successor p (Slot.asConfirmed m)).Legible := by
    rw [Slot.successor]
    split
    · exact ⟨hp.identifier_lt, hm.confidence_eq, hm.createdAt_valid⟩
    · exact hm.asConfirmed
  have hlegible : (Slot.holding (Slot.successor p (Slot.asConfirmed m))).Legible :=
    ⟨fun n hn => Option.some.inj hn ▸ hq, fun n hn => by cases hn⟩
  have hheld : w.store.slot m.key = .ok (Slot.holding p) := by
    rw [hl]
    exact hslot _ rfl
  have hconfirms : (Slot.holding p).Confirms m .refreshAuto _ _ := .replaced rfl hrefreshes
  obtain ⟨s', hs', hbackend, hslot'⟩ := Store.confirm_of_ok hheld
    (Slot.confirm_eq_ok_iff.mpr hconfirms) fun _ => ⟨hfits, hlegible⟩
  cases s' with
  | memory h => rw [hl] at hbackend; cases hbackend
  | ledger l' =>
    refine ⟨l', ?_, _, fun k hk => (Ledger.slot_eq_of_slotKey_eq hk l').trans hslot', ?_, ?_, ?_, hq⟩
    · rw [decision] at hd
      rw [autoMapOne, hd]
      exact Deed.autoConfirm_eq hs'
    · rw [Slot.successor]
      split <;> rfl
    · rw [Slot.successor]
      split <;> rfl
    · exact Slot.successor_target _ _

/-- Two tables with one key, and the table that both are mapped to. -/
def sharingTables : List Table :=
  [⟨Warehouse.erp, "", "dbo", "a\x00b"⟩, ⟨Warehouse.erp, "", "dbo\x00a", "b"⟩,
    ⟨Warehouse.stage, "", "dbo", "b"⟩]

/-- A service with two source tables that share a key, at any time. -/
def sharingShop (desk : Flight.Desk) (used clock : Nat) : World :=
  { sampleShop .ledger sharingTables with
    desk := desk, supply := ⟨used, ⟨0, 0⟩⟩, clock := clock }

/-- A run puts both tables in the place of each other. -/
theorem run_sharingShop {desk : Flight.Desk} {l : Ledger} {used : Nat} (hl : desk.store = .ledger l)
    (hused : used + 1 < 2 ^ 128) (clock : Nat)
    (hheld : l.HoldsAuto (Ledger.slotKey ⟨.sourceToStage, ⟨Warehouse.erp, "", "dbo\x00a", "b"⟩⟩)
      ⟨Warehouse.erp, "", "dbo\x00a", "b"⟩ ⟨Warehouse.stage, "", "dbo", "b"⟩) :
    ∃ r desk' l' clock', (Errand.autoMap .sourceToStage).run (sharingShop desk used clock) =
        (.ok r, sharingShop desk' (used + 2) clock') ∧ r.updated = 2 ∧ desk'.store = .ledger l' ∧
      l'.HoldsAuto (Ledger.slotKey ⟨.sourceToStage, ⟨Warehouse.erp, "", "dbo\x00a", "b"⟩⟩)
        ⟨Warehouse.erp, "", "dbo\x00a", "b"⟩ ⟨Warehouse.stage, "", "dbo", "b"⟩ := by
  let x : Table := ⟨Warehouse.erp, "", "dbo", "a\x00b"⟩
  let y : Table := ⟨Warehouse.erp, "", "dbo\x00a", "b"⟩
  let target : Table := ⟨Warehouse.stage, "", "dbo", "b"⟩
  let score : Single := .finite false (0x733333 * 2 ^ 125)
  have hsides : sides (sampleShop .ledger sharingTables).engine
      (sampleShop .ledger sharingTables).registry (sampleShop .ledger sharingTables).surroundings
      .sourceToStage = ⟨[⟨x, []⟩, ⟨y, []⟩], [⟨target, []⟩]⟩ := by
    decide +kernel
  have hx : Deed.decision (sampleShop .ledger sharingTables) .sourceToStage [⟨target, []⟩] ⟨x, []⟩ =
      .confirm target score := by
    decide +kernel
  have hy : Deed.decision (sampleShop .ledger sharingTables) .sourceToStage [⟨target, []⟩] ⟨y, []⟩ =
      .confirm target (Binary.ofNat 1) := by
    decide +kernel
  have hunit : score.InUnit := by decide +kernel
  have hscore : score.IsRounded := .finite (by decide)
  have hkey : Ledger.slotKey ⟨.sourceToStage, y⟩ = Ledger.slotKey ⟨.sourceToStage, x⟩ := by decide
  obtain ⟨moment, hrun⟩ := Errand.exists_run_eq (q := .autoMap .sourceToStage)
    (w := sharingShop desk used clock) (steady_gather _ _ _) (found_gather _ _ _ _)
  -- the first table takes the place of the second one, and the second one that of the first
  obtain ⟨l₁, hone, hheld₁⟩ := Deed.autoMapOne_of_shared (w := sharingShop desk used moment)
    (x := ⟨x, []⟩) hl (hkey ▸ hheld) (by decide) hx (by decide)
    (Mapping.legible_decided (Nat.lt_of_succ_lt hused) Instant.valid_zero hunit.ne_nan hscore ..)
  obtain ⟨l₂, htwo, hheld₂⟩ := Deed.autoMapOne_of_shared
    (w := sharingShop { desk with store := .ledger l₁ } (used + 1) moment) (x := ⟨y, []⟩) rfl
    (hkey ▸ hheld₁) (by decide) hy (by decide) (legible_decided_one hused ..)
  have hautoMap : ∀ failures, autoMap (sharingShop desk used moment) .sourceToStage
      ⟨[⟨x, []⟩, ⟨y, []⟩], [⟨target, []⟩]⟩ failures = (.ok ⟨0, 2, 2, 0, 0, failures⟩,
        sharingShop { desk with store := .ledger l₂ } (used + 2) moment) := by
    intro failures
    exact (World.autoMapAll_cons hone _ _).trans (World.autoMapAll_cons htwo _ _)
  exact ⟨_, _, l₂, moment, hrun.trans ((congrArg (fun s => autoMap _ _ s _) hsides).trans
    (hautoMap _)), rfl, rfl, hheld₂⟩

/-- Two source tables of a ledger that share a key never settle: each run puts the one in place of
the other and back. -/
theorem Errand.not_autoMap_again_of_shared_key : ¬ ∀ (ops : List Operation) (w : World) (hop : Hop),
    w.Regular → w.store = (Store.empty .ledger).after ops →
      ∃ r w₁, (Errand.autoMap hop).run w = (.ok r, w₁) ∧
        ∃ w₂, (Errand.autoMap hop).run w₁ = (.ok { r with created := 0, updated := 0 }, w₂) := by
  intro h
  let m : Mapping := .decided ⟨⟨0⟩, ⟨0, 0⟩⟩ .sourceToStage ⟨Warehouse.erp, "", "dbo\x00a", "b"⟩
    ⟨Warehouse.stage, "", "dbo", "b"⟩ (Binary.ofNat 1) .auto none
  have hm : m.Legible := legible_decided_one (by decide) ..
  obtain ⟨l, hl, hslot⟩ := Ledger.exists_after_decision (m := m) (by decide) hm
  let w := sharingShop (.empty .wait (.ledger l)) 1 0
  have hheld : l.HoldsAuto (Ledger.slotKey m.key) m.source m.target :=
    ⟨Slot.asConfirmed m, fun k hk => (Ledger.slot_eq_of_slotKey_eq hk l).trans hslot, rfl, rfl, rfl,
      hm.asConfirmed⟩
  obtain ⟨r, w₁, hfirst, w₂, hsecond⟩ := h _ w .sourceToStage
    ⟨(regular_sampleShop .ledger sharingTables).registry,
      (regular_sampleShop .ledger sharingTables).catalog⟩ hl.symm
  obtain ⟨r₁, desk₁, l₁, clock₁, hrun₁, -, hl₁, hheld₁⟩ :=
    run_sharingShop (rfl : (Flight.Desk.empty .wait (.ledger l)).store = .ledger l)
      (by decide : 1 + 1 < 2 ^ 128) 0 hheld
  obtain ⟨-, rfl⟩ := Prod.mk.inj (hfirst.symm.trans hrun₁)
  obtain ⟨r₂, desk₂, l₂, clock₂, hrun₂, hupdated, -, -⟩ :=
    run_sharingShop hl₁ (by decide : 3 + 1 < 2 ^ 128) clock₁ hheld₁
  obtain ⟨hr, -⟩ := Prod.mk.inj (hsecond.symm.trans hrun₂)
  -- the second run updates both tables once more
  rw [← Except.ok.inj hr] at hupdated
  cases hupdated

end TierLineage