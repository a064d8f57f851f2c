import TierLineage.Proofs.Config.Bounds
import TierLineage.Proofs.Mapping.Rankings
import TierLineage.Proofs.Service.Automatic

/-!
# What automatic mapping reports

What a step of automatic mapping does to the slot of its source table is told by the ranking of the
targets and by what was confirmed there, and so is what the step reports of it.  No two source tables
share a slot, so the counts of a report are numbers of keys and of candidates on the shelf: it makes
no difference in which order the source tables take their turns, and under all other keys nothing
changes.
-/

namespace TierLineage

open TierLineage.Number TierLineage.Mappings

/-! ### Decisions -/

namespace Proposal

variable {e : Engine} {ranking : List Ranked} {best : Ranked}

/-- Whether a target is the only best one, and scores high enough to be confirmed. -/
def Accepts (e : Engine) (ranking : List Ranked) (best : Ranked) : Prop :=
  Ranked.selectTop ranking 1 e.tieEpsilon = [best] ∧ e.acceptanceThreshold.atMost best.score = true

/-- Whether the first target of a ranking scores high enough to be confirmed. -/
def reaches (e : Engine) (ranking : List Ranked) : Bool :=
  ranking.head?.any fun best => e.acceptanceThreshold.atMost best.score

theorem Accepts.mem (h : Accepts e ranking best) : best ∈ ranking :=
  Ranked.mem_of_mem_selectTop (h.1 ▸ List.mem_singleton_self best)

theorem ne_nil_of_reaches (h : reaches e ranking = true) : ranking ≠ [] := by
  rintro rfl
  cases h

/-- The only best target is confirmed if it scores high enough, and otherwise candidates are
recorded. -/
theorem decide_cases (e : Engine) (ranking : List Ranked) :
    (∃ best, Accepts e ranking best ∧ decide e ranking = .confirm best.table best.score) ∨
      (∀ best, ¬ Accepts e ranking best) ∧ decide e ranking = .record ranking (reaches e ranking) := by
  have hhead : (Ranked.selectTop ranking 1 e.tieEpsilon).head? = ranking.head? :=
    Ranked.head?_selectTop Nat.one_ne_zero
  rw [decide, reaches, ← hhead]
  cases htop : Ranked.selectTop ranking 1 e.tieEpsilon with
  | nil =>
    refine .inr ⟨fun best hbest => ?_, rfl⟩
    cases htop.symm.trans hbest.1
  | cons best others =>
    dsimp only [List.head?_cons, Option.any_some]
    split
    · next haccepted =>
      obtain ⟨hscore, halone⟩ := Bool.and_eq_true_iff.mp haccepted
      rw [List.isEmpty_iff.mp halone] at htop
      exact .inl ⟨best, ⟨htop, hscore⟩, rfl⟩
    · next hrefused =>
      refine .inr ⟨fun other hother => hrefused ?_, rfl⟩
      obtain ⟨rfl, rfl⟩ := List.cons.inj (htop.symm.trans hother.1)
      rw [hother.2]
      rfl

end Proposal

/-! ### Steps -/

namespace Mappings.AutoMapStep

/-- How many candidates a step recorded. -/
def taken : AutoMapStep → Nat
  | recorded count _ => count
  | _ => 0

/-- Whether a step recorded candidates of which the first one scored high enough. -/
def tied : AutoMapStep → Bool
  | recorded _ tie => tie
  | _ => false

/-- A report adds up its steps. -/
theorem foldl_add (steps : List AutoMapStep) (r : AutoMapReport) :
    steps.foldl AutoMapReport.add r =
      { r with
        created := r.created + steps.count created
        updated := r.updated + steps.count updated
        recorded := r.recorded + (steps.map taken).sum
        ambiguous := r.ambiguous + steps.countP tied } := by
  induction steps generalizing r with
  | nil => rfl
  | cons step steps ih =>
    rw [List.foldl_cons, ih]
    simp only [List.count_cons, List.map_cons, List.sum_cons, List.countP_cons]
    rcases step with _ | _ | _ | ⟨count, _ | _⟩ <;> simp [AutoMapReport.add, taken, tied] <;> omega

/-- Two steps add up to the same in either order. -/
theorem add_comm (r : AutoMapReport) (x y : AutoMapStep) :
    AutoMapReport.add (AutoMapReport.add r x) y = AutoMapReport.add (AutoMapReport.add r y) x := by
  cases x <;> cases y <;> simp only [AutoMapReport.add, Nat.add_right_comm]

/-- The order of the steps makes no difference to a report. -/
theorem foldl_add_of_perm {steps steps' : List AutoMapStep} (h : steps.Perm steps')
    (r : AutoMapReport) : steps.foldl AutoMapReport.add r = steps'.foldl AutoMapReport.add r :=
  h.foldl_eq' (fun x _ y _ r => add_comm r x y) r

end Mappings.AutoMapStep

namespace Deed

variable {e : Engine} {hop : Hop} {source : Table} {ranking : List Ranked} {v w : Slot}
  {step : AutoMapStep}

/-- What automatic mapping makes of a slot by the ranking of the targets of its source table, and
what it tells of that. -/
inductive Makes (e : Engine) (ranking : List Ranked) (v : Slot) : Slot → AutoMapStep → Prop
  | created {best : Ranked} {m : Mapping} (hv : v.confirmed = none)
    (hbest : Proposal.Accepts e ranking best) (htarget : m.target = best.table)
    (hconfidence : m.confidence = best.score) (hprovenance : m.provenance = .auto) :
    Makes e ranking v (Slot.holding m) .created
  | updated {p m : Mapping} (hp : v.confirmed = some p) (hne : m ≠ p) :
    Makes e ranking v (Slot.holding m) .updated
  | kept {p : Mapping} (hp : v.confirmed = some p) : Makes e ranking v v .untouched
  | recorded {cs : List Mapping} (hv : v.confirmed = none)
    (hrefused : ∀ best, ¬ Proposal.Accepts e ranking best) (hranking : ranking ≠ [])
    (hcs : cs.map (fun c => (c.target, c.confidence)) =
      (Ranked.selectTop ranking e.topK e.tieEpsilon).map fun k => (k.table, k.score)) :
    Makes e ranking v ⟨none, cs⟩ (.recorded cs.length (Proposal.reaches e ranking))
  | unranked (hv : v.confirmed = none) (hranking : ranking = []) : Makes e ranking v v .untouched

/-- Confirming an accepted target makes what its ranking asks for. -/
theorem makes_confirm {best : Ranked} (hbest : Proposal.Accepts e ranking best)
    (hscore : best.score.clamp (Binary.ofNat 0) (Binary.ofNat 1) = best.score)
    (hnan : best.score ≠ .nan) (supply : Supply) (v : Slot) :
    Makes e ranking v (effect e supply hop source v (.confirm best.table best.score)).2
      (effect e supply hop source v (.confirm best.table best.score)).1 := by
  let m := Mapping.decided supply.stamp hop source best.table best.score .auto none
  cases hc : v.confirm m .refreshAuto with
  | error f => cases (Slot.confirm_eq_error_iff.mp hc).1
  | ok cw =>
    obtain ⟨c, w⟩ := cw
    have heffect : effect e supply hop source v (.confirm best.table best.score) =
        (.ofConfirmation c, w) := by
      rw [effect, hc]
    rw [heffect]
    cases Slot.confirm_eq_ok_iff.mp hc with
    | created hnone => exact .created hnone hbest rfl hscore rfl
    | @replaced p hp hreplaces =>
      refine .updated hp fun heq => ?_
      -- the same mapping would be no news
      obtain ⟨negative, units, hconfidence⟩ := Binary.exists_clamp_eq hnan
      have hmarks : p.unmarked = (Slot.asConfirmed m).unmarked := by
        rw [← heq, Mapping.successor_unmarked]
      have hnews := Slot.refreshes_eq_false hmarks
        ((congrArg Mapping.confidence hmarks).trans hconfidence)
      exact Bool.false_ne_true (hnews.symm.trans hreplaces)
    | unchanged hp _ _ => exact .kept hp

/-- Recording the candidates of a ranking makes what the ranking asks for. -/
theorem makes_record (htopK : e.topK ≠ 0) (hrefused : ∀ best, ¬ Proposal.Accepts e ranking best)
    (hscores : ∀ k ∈ ranking, k.score.clamp (Binary.ofNat 0) (Binary.ofNat 1) = k.score)
    (supply : Supply) (v : Slot) :
    Makes e ranking v
      (effect e supply hop source v (.record ranking (Proposal.reaches e ranking))).2
      (effect e supply hop source v (.record ranking (Proposal.reaches e ranking))).1 := by
  let ms := Proposal.candidates e hop source ranking supply
  have htop : Ranked.selectTop ranking e.topK e.tieEpsilon = [] ↔ ranking = [] :=
    Ranked.selectTop_eq_nil_iff htopK
  have hempty : ms.isEmpty = true ↔ ranking = [] := by
    rw [List.isEmpty_iff, ← htop]
    exact List.mapIdx_eq_nil_iff
  have hcandidates : (ms.map Slot.asCandidate).map (fun c => (c.target, c.confidence)) =
      (Ranked.selectTop ranking e.topK e.tieEpsilon).map fun k => (k.table, k.score) := by
    refine List.ext_getElem (by simp [ms, Proposal.candidates]) fun i hi hi' => ?_
    simp only [ms, Proposal.candidates, List.getElem_map, List.getElem_mapIdx, Slot.asCandidate,
      Mapping.candidate, Prod.mk.injEq, true_and]
    exact hscores _ (Ranked.mem_of_mem_selectTop (List.getElem_mem _))
  rw [effect]
  split
  · next hms =>
    cases hv : v.confirmed with
    | none => exact .unranked hv (hempty.mp hms)
    | some p => exact .kept hv
  · next hms =>
    have hranking : ranking ≠ [] := fun h => hms (hempty.mpr h)
    cases hv : v.confirmed with
    | none =>
      rw [Slot.record_snd_of_none (by rw [hv]; rfl), hv]
      have := Makes.recorded (e := e) (v := v) hv hrefused hranking hcandidates
      rw [List.length_map] at this
      exact this
    | some p =>
      -- candidates are not recorded beside a decision
      have hslot : (v.record ms).2 = v := by rw [Slot.record, hv]; rfl
      rw [hslot]
      exact .kept hv

/-- What automatic mapping does with a source table is what the ranking of its targets asks for. -/
theorem makes_effect (htopK : e.topK ≠ 0)
    (hscores : ∀ k ∈ ranking, k.score.clamp (Binary.ofNat 0) (Binary.ofNat 1) = k.score)
    (hnan : ∀ k ∈ ranking, k.score ≠ .nan) (supply : Supply) (v : Slot) :
    Makes e ranking v (effect e supply hop source v (Proposal.decide e ranking)).2
      (effect e supply hop source v (Proposal.decide e ranking)).1 := by
  rcases Proposal.decide_cases e ranking with ⟨best, hbest, hdecide⟩ | ⟨hrefused, hdecide⟩
  · rw [hdecide]
    exact makes_confirm hbest (hscores best hbest.mem) (hnan best hbest.mem) supply v
  · rw [hdecide]
    exact makes_record htopK hrefused hscores supply v

/-- What a step reports does not depend on the marks of the mappings that it makes. -/
theorem effect_fst_congr (e : Engine) (hop : Hop) (source : Table) (v : Slot)
    (d : Proposal.Decision) (supply supply' : Supply) :
    (effect e supply hop source v d).1 = (effect e supply' hop source v d).1 := by
  cases d with
  | confirm target score =>
    let m (supply : Supply) := Mapping.decided supply.stamp hop source target score .auto none
    cases hv : v.confirmed with
    | none => simp only [effect, Slot.confirm_of_none hv, AutoMapStep.ofConfirmation]
    | some p =>
      have hstep : ∀ supply, (effect e supply hop source v (.confirm target score)).1 =
          if Slot.refreshes p (Slot.asConfirmed (m supply)) = true then .updated else .untouched := by
        intro supply
        rw [effect, Slot.confirm_of_some hv]
        cases hnews : Slot.refreshes p (Slot.asConfirmed (m supply)) <;>
          simp [ConfirmMode.replaces, hnews, m, AutoMapStep.ofConfirmation]
      have hmarks : Slot.refreshes p (Slot.asConfirmed (m supply)) =
          Slot.refreshes p (Slot.asConfirmed (m supply')) := Slot.refreshes_congr rfl
      rw [hstep, hstep, hmarks]
  | record ranking tie =>
    have hlength : ∀ supply, (Proposal.candidates e hop source ranking supply).length =
        (Ranked.selectTop ranking e.topK e.tieEpsilon).length := fun _ => List.length_mapIdx
    simp only [effect, List.isEmpty_iff_length_eq_zero, hlength]
    split <;> rfl

namespace Makes

variable (h : Makes e ranking v w step)

include h

theorem created_iff : step = .created ↔ v.confirmed = none ∧ w.confirmed.isSome = true := by
  cases h <;> simp_all [Slot.holding]

theorem updated_iff : step = .updated ↔
    v.confirmed.isSome = true ∧ w.confirmed.isSome = true ∧ w.confirmed ≠ v.confirmed := by
  cases h <;> simp_all [Slot.holding]

theorem taken_eq :
    step.taken = if w.confirmed = none ∧ ranking ≠ [] then w.candidates.length else 0 := by
  cases h <;> simp_all [Slot.holding, AutoMapStep.taken]

theorem tied_eq : step.tied = (w.confirmed.isNone && Proposal.reaches e ranking) := by
  cases h <;> simp_all [Slot.holding, AutoMapStep.tied, Proposal.reaches]

/-- A target is confirmed for the first time exactly if it is accepted. -/
theorem confirmed_iff (hv : v.confirmed = none) :
    w.confirmed.isSome = true ↔ ∃ best, Proposal.Accepts e ranking best := by
  cases h with
  | created _ hbest _ _ _ => exact iff_of_true rfl ⟨_, hbest⟩
  | updated hp _ => rw [hp] at hv; cases hv
  | kept hp => rw [hp] at hv; cases hv
  | recorded _ hrefused _ _ =>
    exact iff_of_false Bool.false_ne_true fun ⟨best, hbest⟩ => hrefused best hbest
  | unranked _ hranking =>
    refine iff_of_false (by simp [hv]) fun ⟨best, hbest⟩ => ?_
    have hmem := hbest.mem
    rw [hranking] at hmem
    cases hmem

/-- What is confirmed for the first time is an accepted target, with its score. -/
theorem confirmed_eq (hv : v.confirmed = none) {m : Mapping} (hm : w.confirmed = some m) :
    ∃ best, Proposal.Accepts e ranking best ∧ m.target = best.table ∧ m.confidence = best.score ∧
      m.provenance = .auto := by
  cases h with
  | created _ hbest htarget hconfidence hprovenance =>
    cases hm
    exact ⟨_, hbest, htarget, hconfidence, hprovenance⟩
  | updated hp _ => rw [hp] at hv; cases hv
  | kept hp => rw [hp] at hv; cases hv
  | recorded _ _ _ _ => cases hm
  | unranked _ _ => rw [hv] at hm; cases hm

/-- The candidates of a ranking are recorded where nothing is confirmed. -/
theorem candidates_eq (hw : w.confirmed = none) (hranking : ranking ≠ []) :
    w.candidates.map (fun c => (c.target, c.confidence)) =
      (Ranked.selectTop ranking e.topK e.tieEpsilon).map fun k => (k.table, k.score) := by
  cases h with
  | created _ _ _ _ _ => cases hw
  | updated _ _ => cases hw
  | kept hp => rw [hp] at hw; cases hw
  | recorded _ _ _ hcs => exact hcs
  | unranked _ hnone => exact absurd hnone hranking

/-- A slot that was not left alone has a new decision, or candidates of a ranking. -/
theorem changed (hne : w ≠ v) :
    w.confirmed.isSome = true ∧ w.confirmed ≠ v.confirmed ∨ w.confirmed = none ∧ ranking ≠ [] := by
  cases h <;> simp_all [Slot.holding]

/-- What is confirmed stays confirmed. -/
theorem keeps (hv : v.confirmed.isSome = true) : w.confirmed.isSome = true := by
  cases h <;> simp_all [Slot.holding]

end Makes

end Deed

/-! ### Source tables -/

namespace World

/-- The tables that a connection lists; none where it does not answer. -/
def listing (w : World) (a : Alias) : List Table :=
  match (listTables w.engine a).found w.surroundings with
  | .ok ts => ts
  | .error _ => []

/-- The tables that the source connections of a hop list. -/
def sourceTables (w : World) (hop : Hop) : List Table :=
  (w.registry.aliasesOf hop.start).flatMap w.listing

/-- The source tables of a hop with their columns. -/
def sourcesOf (w : World) (hop : Hop) : List Listed :=
  (sides w.engine w.registry w.surroundings hop).sources

/-- The targets of a source table, best first. -/
def rankingOf (w : World) (hop : Hop) (x : Listed) : List Ranked :=
  Proposal.ranking w.engine w.registry hop
    (sides w.engine w.registry w.surroundings hop).targets x

/-- A hop has the source tables that its connections list. -/
theorem map_table_sourcesOf (w : World) (hop : Hop) :
    (w.sourcesOf hop).map (·.table) = w.sourceTables hop := by
  change (answered (loadedOf w.engine w.surroundings (w.registry.aliasesOf hop.start))).map _ =
    (w.registry.aliasesOf hop.start).flatMap w.listing
  rw [answered, loadedOf, List.flatMap_map, List.map_flatMap]
  refine List.flatMap_congr fun a _ => ?_
  -- a connection is loaded if it lists its tables
  cases hload : (load w.engine a).found w.surroundings with
  | ok ls => rw [listing, listTables_of_load hload]
  | error f =>
    rw [listing]
    cases hlist : (listTables w.engine a).found w.surroundings with
    | error _ => rfl
    | ok ts =>
      obtain ⟨ls, hls⟩ := exists_load_of_listTables hlist
      cases hls.symm.trans hload

/-! ### Reports -/

/-- Whether a source table has nothing confirmed although targets are ranked for it. -/
def leavesOpen (w : World) (hop : Hop) (h : Shelf) (x : Listed) : Bool :=
  (h.slot ⟨hop, x.table⟩).confirmed.isNone && !(w.rankingOf hop x).isEmpty

theorem leavesOpen_iff {w : World} {hop : Hop} {h : Shelf} {x : Listed} :
    w.leavesOpen hop h x = true ↔
      (h.slot ⟨hop, x.table⟩).confirmed = none ∧ w.rankingOf hop x ≠ [] := by
  simp [leavesOpen]

/-- Whether a report tells what automatic mapping of a hop did to a shelf. -/
structure Reports (w : World) (hop : Hop) (h h' : Shelf) (r : AutoMapReport) : Prop where
  /-- Considered are the source tables that the connections of the hop list. -/
  considered_eq : r.considered = (w.sourceTables hop).length
  /-- Created are the decisions under keys that had none before. -/
  created_eq : r.created = h'.decided.countP fun k => k.hop = hop ∧ k ∉ h.decided
  /-- Updated are the decisions that are not the same as before. -/
  updated_eq : r.updated = h'.decided.countP fun k =>
    k.hop = hop ∧ k ∈ h.decided ∧ (h'.slot k).confirmed ≠ (h.slot k).confirmed
  /-- A source table is decided on exactly if its ranking has a single best target that scores high
  enough. -/
  confirmed_iff : ∀ x ∈ w.sourcesOf hop, (h.slot ⟨hop, x.table⟩).confirmed = none →
    ((h'.slot ⟨hop, x.table⟩).confirmed.isSome = true ↔
      ∃ best, Proposal.Accepts w.engine (w.rankingOf hop x) best)
  /-- Then it is mapped to this target, with its score as confidence. -/
  confirmed_eq : ∀ x ∈ w.sourcesOf hop, (h.slot ⟨hop, x.table⟩).confirmed = none →
    ∀ m, (h'.slot ⟨hop, x.table⟩).confirmed = some m →
      ∃ best, Proposal.Accepts w.engine (w.rankingOf hop x) best ∧
        m.target = best.table ∧ m.confidence = best.score ∧ m.provenance = .auto
  /-- Recorded are the candidates of all source tables that are left open. -/
  recorded_eq : r.recorded = (((w.sourcesOf hop).filter (w.leavesOpen hop h')).flatMap fun x =>
    (h'.slot ⟨hop, x.table⟩).candidates).length
  /-- They are the first few of the ranking. -/
  candidates_eq : ∀ x ∈ w.sourcesOf hop, w.leavesOpen hop h' x = true →
    (h'.slot ⟨hop, x.table⟩).candidates.map (fun c => (c.target, c.confidence)) =
      (Ranked.selectTop (w.rankingOf hop x) w.engine.topK w.engine.tieEpsilon).map fun k =>
        (k.table, k.score)
  /-- Ambiguous are the source tables left open whose first target scores high enough. -/
  ambiguous_eq : r.ambiguous = ((w.sourcesOf hop).filter (w.leavesOpen hop h')).countP fun x =>
    Proposal.reaches w.engine (w.rankingOf hop x)
  /-- No decision is lost. -/
  decided_subset : h.decided ⊆ h'.decided
  /-- Nothing else changes, under keys of either hop. -/
  changed : ∀ k, h'.slot k ≠ h.slot k → ∃ x ∈ w.sourcesOf hop, k = ⟨hop, x.table⟩ ∧
    (k ∈ h'.decided ∧ (h'.slot k).confirmed ≠ (h.slot k).confirmed ∨
      w.leavesOpen hop h' x = true)

/-- Keys with a decision are counted by their source tables. -/
theorem countP_decided {h : Shelf} {hop : Hop} {sources : List Listed}
    (hnodup : (sources.map (·.table)).Nodup) {P : SlotKey → Bool}
    (hP : ∀ k ∈ h.decided, P k = true → ∃ x ∈ sources, k = ⟨hop, x.table⟩) :
    h.decided.countP P = sources.countP fun x =>
      (h.slot ⟨hop, x.table⟩).confirmed.isSome && P ⟨hop, x.table⟩ := by
  rw [List.countP_eq_length_filter, List.countP_eq_length_filter,
    ← List.length_map (fun x : Listed => (⟨hop, x.table⟩ : SlotKey))]
  have hkeys : ((sources.filter fun x => (h.slot ⟨hop, x.table⟩).confirmed.isSome &&
      P ⟨hop, x.table⟩).map fun x => (⟨hop, x.table⟩ : SlotKey)).Nodup := by
    refine List.pairwise_map.mpr (((List.pairwise_map.mp hnodup).filter _).imp fun hne heq => ?_)
    exact hne (congrArg SlotKey.source heq)
  refine ((List.perm_ext_iff_of_nodup (h.decided_nodup.filter _) hkeys).mpr fun k => ?_).length_eq
  simp only [List.mem_filter, List.mem_map, Bool.and_eq_true]
  constructor
  · rintro ⟨hk, hPk⟩
    obtain ⟨x, hx, rfl⟩ := hP k hk hPk
    exact ⟨x, ⟨hx, Shelf.mem_decided.mp hk, hPk⟩, rfl⟩
  · rintro ⟨x, ⟨-, hsome, hPk⟩, rfl⟩
    exact ⟨Shelf.mem_decided.mpr hsome, hPk⟩

variable {w : World} {hop : Hop} {h h' : Shelf} {order : List Listed} {steps : List AutoMapStep}

/-- Whether every step tells what was made of the slot of its source table. -/
def MadeBy (w : World) (hop : Hop) (h h' : Shelf) : List Listed → List AutoMapStep → Prop :=
  List.Forall₂ fun x step => Deed.Makes w.engine (w.rankingOf hop x) (h.slot ⟨hop, x.table⟩)
    (h'.slot ⟨hop, x.table⟩) step

theorem Mapped.madeBy (htopK : w.engine.topK ≠ 0)
    (hmapped : w.Mapped hop (sides w.engine w.registry w.surroundings hop).targets h order steps h') :
    w.MadeBy hop h h' order steps := by
  refine hmapped.effects.imp ?_
  rintro x step ⟨supply, heffect⟩
  have hmakes : ∀ v, Deed.Makes w.engine (w.rankingOf hop x) v
      (Deed.effect w.engine supply hop x.table v (Proposal.decide w.engine (w.rankingOf hop x))).2
      (Deed.effect w.engine supply hop x.table v
        (Proposal.decide w.engine (w.rankingOf hop x))).1 :=
    Deed.makes_effect htopK (fun _ => Proposal.clamp_score_of_mem_ranking)
      (fun _ => Proposal.ne_nan_of_mem_ranking) supply
  have hslot := hmakes (h.slot ⟨hop, x.table⟩)
  rw [← show Deed.decision w hop _ x = Proposal.decide w.engine (w.rankingOf hop x) from rfl,
    heffect] at hslot
  exact hslot

namespace MadeBy

variable (hmade : w.MadeBy hop h h' order steps)

include hmade

/-- Steps of a kind are counted by the source tables that they were taken with. -/
theorem countP_eq {p : Listed → Bool} {q : AutoMapStep → Bool}
    (hpq : ∀ x step, Deed.Makes w.engine (w.rankingOf hop x) (h.slot ⟨hop, x.table⟩)
      (h'.slot ⟨hop, x.table⟩) step → q step = p x) : steps.countP q = order.countP p := by
  induction hmade with
  | nil => rfl
  | cons hx _ ih => rw [List.countP_cons, List.countP_cons, ih, hpq _ _ hx]

theorem sum_taken : (steps.map AutoMapStep.taken).sum =
    ((order.filter (w.leavesOpen hop h')).flatMap fun x =>
      (h'.slot ⟨hop, x.table⟩).candidates).length := by
  induction hmade with
  | nil => rfl
  | @cons x step _ _ hx _ ih =>
    rw [List.map_cons, List.sum_cons, ih, hx.taken_eq, List.filter_cons]
    cases hopen : w.leavesOpen hop h' x with
    | true =>
      rw [if_pos (leavesOpen_iff.mp hopen), if_pos rfl, List.flatMap_cons, List.length_append]
    | false =>
      rw [if_neg fun hx => Bool.eq_false_iff.mp hopen (leavesOpen_iff.mpr hx),
        if_neg Bool.false_ne_true, Nat.zero_add]

theorem exists_makes {x : Listed} (hx : x ∈ order) : ∃ step,
    Deed.Makes w.engine (w.rankingOf hop x) (h.slot ⟨hop, x.table⟩) (h'.slot ⟨hop, x.table⟩) step := by
  induction hmade with
  | nil => cases hx
  | @cons y step _ _ hy _ ih =>
    rcases List.mem_cons.mp hx with rfl | hx
    · exact ⟨step, hy⟩
    · exact ih hx

/-- The first decisions are those of source tables with nothing confirmed before. -/
theorem count_created : steps.count .created = order.countP fun x =>
    (h'.slot ⟨hop, x.table⟩).confirmed.isSome &&
      decide ((⟨hop, x.table⟩ : SlotKey).hop = hop ∧ (⟨hop, x.table⟩ : SlotKey) ∉ h.decided) := by
  refine hmade.countP_eq fun x step hx => ?_
  rw [Bool.eq_iff_iff, beq_iff_eq, hx.created_iff]
  simp [Shelf.mem_decided, and_comm]

/-- The decisions that are not the same as before are those of source tables with another one. -/
theorem count_updated : steps.count .updated = order.countP fun x =>
    (h'.slot ⟨hop, x.table⟩).confirmed.isSome &&
      decide ((⟨hop, x.table⟩ : SlotKey).hop = hop ∧ (⟨hop, x.table⟩ : SlotKey) ∈ h.decided ∧
        (h'.slot ⟨hop, x.table⟩).confirmed ≠ (h.slot ⟨hop, x.table⟩).confirmed) := by
  refine hmade.countP_eq fun x step hx => ?_
  rw [Bool.eq_iff_iff, beq_iff_eq, hx.updated_iff]
  simp [Shelf.mem_decided, and_left_comm]

/-- The ambiguous steps are those of source tables left open whose first target scores high enough. -/
theorem countP_tied : steps.countP AutoMapStep.tied =
    (order.filter (w.leavesOpen hop h')).countP fun x =>
      Proposal.reaches w.engine (w.rankingOf hop x) := by
  rw [List.countP_filter]
  refine hmade.countP_eq fun x step hx => ?_
  rw [hx.tied_eq, Bool.eq_iff_iff, Bool.and_eq_true, Bool.and_eq_true, leavesOpen_iff,
    Option.isNone_iff_eq_none]
  exact ⟨fun ⟨hnone, hreaches⟩ => ⟨hreaches, hnone, Proposal.ne_nil_of_reaches hreaches⟩,
    fun ⟨hreaches, hnone, _⟩ => ⟨hnone, hreaches⟩⟩

end MadeBy

/-- What automatic mapping does with the source tables in any order is what its report tells. -/
theorem Mapped.reports (hnodup : ((w.sourcesOf hop).map (·.table)).Nodup)
    (htopK : w.engine.topK ≠ 0) (hperm : order.Perm (w.sourcesOf hop))
    (hmapped : w.Mapped hop (sides w.engine w.registry w.surroundings hop).targets h order steps h')
    (failures : List PartFailure) :
    w.Reports hop h h' (steps.foldl AutoMapReport.add
      ⟨0, 0, (w.sourcesOf hop).length, 0, 0, failures⟩) := by
  have hmade := hmapped.madeBy htopK
  have hmakes : ∀ x ∈ w.sourcesOf hop, ∃ step, Deed.Makes w.engine (w.rankingOf hop x)
      (h.slot ⟨hop, x.table⟩) (h'.slot ⟨hop, x.table⟩) step := fun x hx =>
    hmade.exists_makes (hperm.mem_iff.mpr hx)
  have hother : ∀ k, h'.slot k ≠ h.slot k → ∃ x ∈ w.sourcesOf hop, k = ⟨hop, x.table⟩ := by
    intro k hk
    by_contra hnone
    exact hk (hmapped.other k fun x hx heq => hnone ⟨x, hperm.mem_iff.mp hx, heq⟩)
  have hconfirmed : ∀ k, (h'.slot k).confirmed ≠ (h.slot k).confirmed →
      ∃ x ∈ w.sourcesOf hop, k = ⟨hop, x.table⟩ := fun k hk =>
    hother k fun heq => hk (congrArg Slot.confirmed heq)
  rw [AutoMapStep.foldl_add]
  exact {
    considered_eq := by rw [← w.map_table_sourcesOf, List.length_map]
    created_eq := by
      refine (Nat.zero_add _).trans ?_
      rw [hmade.count_created, hperm.countP_eq, countP_decided hnodup]
      intro k hk hnew
      refine hconfirmed k fun heq => (of_decide_eq_true hnew).2 ?_
      rw [Shelf.mem_decided, ← heq]
      exact Shelf.mem_decided.mp hk
    updated_eq := by
      refine (Nat.zero_add _).trans ?_
      rw [hmade.count_updated, hperm.countP_eq, countP_decided hnodup]
      exact fun k _ hnew => hconfirmed k (of_decide_eq_true hnew).2.2
    confirmed_iff := fun x hx hv => by
      obtain ⟨step, hstep⟩ := hmakes x hx
      exact hstep.confirmed_iff hv
    confirmed_eq := fun x hx hv m hm => by
      obtain ⟨step, hstep⟩ := hmakes x hx
      exact hstep.confirmed_eq hv hm
    recorded_eq := by
      refine (Nat.zero_add _).trans ?_
      rw [hmade.sum_taken]
      exact ((hperm.filter _).flatMap_right _).length_eq
    candidates_eq := fun x hx hopen => by
      obtain ⟨step, hstep⟩ := hmakes x hx
      obtain ⟨hnone, hranking⟩ := leavesOpen_iff.mp hopen
      exact hstep.candidates_eq hnone hranking
    ambiguous_eq := by
      refine (Nat.zero_add _).trans ?_
      rw [hmade.countP_tied, (hperm.filter _).countP_eq]
    decided_subset := fun k hk => by
      rw [Shelf.mem_decided] at hk ⊢
      by_cases hslot : h'.slot k = h.slot k
      · rwa [hslot]
      · obtain ⟨x, hx, rfl⟩ := hother k hslot
        obtain ⟨step, hstep⟩ := hmakes x hx
        exact hstep.keeps hk
    changed := fun k hk => by
      obtain ⟨x, hx, rfl⟩ := hother k hk
      obtain ⟨step, hstep⟩ := hmakes x hx
      refine ⟨x, hx, rfl, ?_⟩
      rw [Shelf.mem_decided, leavesOpen_iff]
      exact hstep.changed hk }

/-! ### Runs -/

/-- What is reported of a source table, which is the same at every turn. -/
def foreseen (w : World) (hop : Hop) (h : Shelf) (x : Listed) : AutoMapStep :=
  (Deed.effect w.engine w.supply hop x.table (h.slot ⟨hop, x.table⟩) (Deed.decision w hop
    (sides w.engine w.registry w.surroundings hop).targets x)).1

theorem Mapped.steps_eq
    (hmapped : w.Mapped hop (sides w.engine w.registry w.surroundings hop).targets h order steps h') :
    steps = order.map (w.foreseen hop h) := by
  obtain ⟨heffects, -⟩ := hmapped
  induction heffects with
  | nil => rfl
  | cons hx _ ih =>
    obtain ⟨supply, heffect⟩ := hx
    rw [List.map_cons, ← ih, foreseen, Deed.effect_fst_congr w.engine hop _ _ _ w.supply supply,
      heffect]

/-- The report of a run, whose steps are foreseen. -/
def report (w : World) (hop : Hop) (h : Shelf) (failures : List PartFailure) : AutoMapReport :=
  ((w.sourcesOf hop).map (w.foreseen hop h)).foldl AutoMapReport.add
    ⟨0, 0, (w.sourcesOf hop).length, 0, 0, failures⟩

/-- In whatever order the source tables take their turns, their run ends with one report. -/
theorem Regular.exists_autoMapAll (hw : w.Regular) (htopK : w.engine.topK ≠ 0)
    (hstore : w.store = .memory h) (hperm : order.Perm (w.sourcesOf hop)) (clock : Nat)
    (failures : List PartFailure) : ∃ w' h',
      autoMapAll hop (sides w.engine w.registry w.surroundings hop).targets { w with clock := clock }
          order ⟨0, 0, order.length, 0, 0, failures⟩ = (.ok (w.report hop h failures), w') ∧
        w'.store = .memory h' ∧ w.Reports hop h h' (w.report hop h failures) := by
  let v : World := { w with clock := clock }
  let deeds : List Deed := order.map (.auto hop (sides w.engine w.registry w.surroundings hop).targets)
  have hv : v.store = .memory h := hstore
  have hnodup := hw.nodup_sources hop
  obtain ⟨steps, h', hrun, hfollows, hmapped⟩ := autoMapAll_spec (w := v) (h := h)
    ((hperm.map _).nodup_iff.mpr hnodup) (hv ▸ .shelf h)
    (fun op _ hledger => by rw [hv] at hledger; cases hledger)
    ⟨0, 0, order.length, 0, 0, failures⟩
  have hmapped : w.Mapped hop (sides w.engine w.registry w.surroundings hop).targets h order steps h' :=
    ⟨hmapped.effects, hmapped.other⟩
  have hreport : steps.foldl AutoMapReport.add ⟨0, 0, (w.sourcesOf hop).length, 0, 0, failures⟩ =
      w.report hop h failures := by
    rw [hmapped.steps_eq, report]
    exact AutoMapStep.foldl_add_of_perm (hperm.map _) _
  have hend : (v.after deeds).store = .memory h' := by
    obtain ⟨h'', hh''⟩ := Store.after_memory h (v.asks deeds)
    have hafter : (v.after deeds).store = .memory h'' := by rw [World.store_after, hv, hh'']
    change (v.after deeds).store.Follows h' at hfollows
    rw [hafter] at hfollows ⊢
    cases hfollows
    rfl
  refine ⟨v.after deeds, h', hrun.trans ?_, hend, hreport ▸ hmapped.reports hnodup htopK hperm failures⟩
  rw [hperm.length_eq, hreport]

end World

/-- **Automatic mapping reports what it did.**  In a service with registered connections, a built
catalog and valid settings, whose store is in memory, a run of automatic mapping of a hop ends with a
report, which tells what was created, updated, recorded and left open on the shelf, and nothing else
is changed there.  The report is the same in whatever order the source tables take their turns. -/
theorem Errand.autoMap_reports {w : World} (hw : w.Regular) (hvalid : w.engine.validate = .ok ())
    {h : Shelf} (hstore : w.store = .memory h) (hop : Hop) :
    ∃ r, (∃ w' h', (Errand.autoMap hop).run w = (.ok r, w') ∧ w'.store = .memory h' ∧
        w.Reports hop h h' r) ∧
      ∀ (clock : Nat) (order : List Listed), order.Perm (w.sourcesOf hop) → ∃ w' h',
        autoMapAll hop (sides w.engine w.registry w.surroundings hop).targets
            { w with clock := clock } order ⟨0, 0, order.length, 0, 0, r.failures⟩ = (.ok r, w') ∧
          w'.store = .memory h' ∧ w.Reports hop h h' r := by
  have htopK := (Engine.validate_eq_ok.mp hvalid).topK
  obtain ⟨moment, hrun⟩ := Errand.exists_run_eq (q := .autoMap hop) (w := w)
    (steady_gather w.engine w.registry hop) (found_gather w.engine w.registry hop w.surroundings)
  refine ⟨w.report hop h (unanswered (loadedOf w.engine w.surroundings
    (w.registry.aliasesOf hop.start ++ w.registry.aliasesOf hop.target))), ?_, fun clock order hperm => ?_⟩
  · rw [hrun]
    exact hw.exists_autoMapAll htopK hstore (.refl _) moment _
  · have hfailures : ∀ failures, (w.report hop h failures).failures = failures := fun failures => by
      rw [World.report, AutoMapStep.foldl_add]
    rw [hfailures]
    exact hw.exists_autoMapAll htopK hstore hperm clock _

/-! ### Samples -/

/-- One source table is considered, and mapped for the first time. -/
theorem Errand.autoMap_reports_sample : ∃ w' h',
    (Errand.autoMap .sourceToStage).run (sampleShop .memory sampleTables) =
        (.ok ⟨1, 0, 1, 0, 0, []⟩, w') ∧
      w'.store = .memory h' ∧
        (sampleShop .memory sampleTables).Reports .sourceToStage .empty h' ⟨1, 0, 1, 0, 0, []⟩ := by
  have hvalid : (sampleShop .memory sampleTables).engine.validate = .ok () := by decide +kernel
  have hanswer : ((Errand.autoMap .sourceToStage).run (sampleShop .memory sampleTables)).1.toOption =
      some ⟨1, 0, 1, 0, 0, []⟩ := by
    decide +kernel
  obtain ⟨r, ⟨w', h', hrun, hstore, hreports⟩, -⟩ := Errand.autoMap_reports
    (regular_sampleShop .memory sampleTables) hvalid (h := .empty) rfl .sourceToStage
  rw [hrun] at hanswer
  obtain rfl : r = _ := Option.some.inj hanswer
  exact ⟨w', h', hrun, hstore, hreports⟩

end TierLineage
