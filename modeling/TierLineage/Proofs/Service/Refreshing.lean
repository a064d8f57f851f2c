import TierLineage.Proofs.Service.Current
import TierLineage.Proofs.Service.Legal

/-!
# Refreshed mappings

Automatic mapping puts another mapping in the place of a confirmed one only if both are automatic and
lead to one target, and if the confirmed one is no longer what it would make: its confidence is not the
score of the target, or it has notes.  A person may have written them, as automatic mappings can be
confirmed and imported like others; they are lost then, although nothing has changed that the run
could have found out.
-/

namespace TierLineage

open TierLineage.Number TierLineage.Mappings

/-! ### What is no news -/

namespace Mapping

variable {p q m : Mapping} {best : Ranked} {hop : Hop} {source : Table} {stamp : Stamp}

/-- Whether a mapping has a score as its confidence, up to the tolerance, and no notes. -/
def Fresh (p : Mapping) (score : Single) : Prop :=
  (p.confidence.sub score).abs.less contentTolerance = true ∧ p.notes = none

/-- Whether a mapping is an automatic one to a target, but not what is made of its score. -/
structure Outdated (p : Mapping) (best : Ranked) : Prop where
  provenance : p.provenance = .auto
  target : p.target = best.table
  stale : ¬ p.Fresh best.score

/-- Whether a mapping is the one that comes in the place of another when its score is taken over. -/
structure Refreshed (p : Mapping) (best : Ranked) (q : Mapping) : Prop where
  key_eq : q.key = p.key
  identifier_eq : q.identifier = p.identifier
  target_eq : q.target = p.target
  provenance_eq : q.provenance = .auto
  confidence_eq : q.confidence = best.score
  notes_eq : q.notes = none

/-- An automatic mapping to a target brings news exactly for a mapping that is outdated. -/
theorem refreshes_iff_outdated (hkey : p.key = ⟨hop, source⟩)
    (hscore : best.score.clamp (Binary.ofNat 0) (Binary.ofNat 1) = best.score) :
    Slot.refreshes p (Slot.asConfirmed (.decided stamp hop source best.table best.score .auto none)) =
      true ↔ p.Outdated best := by
  obtain ⟨rfl, rfl⟩ := SlotKey.mk.inj hkey
  have hcontent : p.sameContent (Slot.asConfirmed
      (.decided stamp p.hop p.source best.table best.score .auto none)) = true ↔
        p.target = best.table ∧ p.provenance = .auto ∧ p.Fresh best.score := by
    simp [sameContent, Slot.asConfirmed, decided, candidate, hscore, Fresh, and_assoc]
  rw [Slot.refreshes]
  simp only [Bool.and_eq_true, beq_iff_eq, Bool.not_eq_true', Bool.eq_false_iff, ne_eq, hcontent]
  constructor
  · rintro ⟨⟨⟨hprovenance, -⟩, htarget⟩, hstale⟩
    exact ⟨hprovenance, htarget, fun hfresh => hstale ⟨htarget, hprovenance, hfresh⟩⟩
  · rintro ⟨hprovenance, htarget, hstale⟩
    exact ⟨⟨⟨hprovenance, rfl⟩, htarget⟩, fun h => hstale h.2.2⟩

theorem refreshed_successor (stamp : Stamp) (hkey : p.key = ⟨hop, source⟩) (htarget : p.target = best.table)
    (hscore : best.score.clamp (Binary.ofNat 0) (Binary.ofNat 1) = best.score) :
    p.Refreshed best (Slot.successor p
      (Slot.asConfirmed (.decided stamp hop source best.table best.score .auto none))) := by
  have htarget' : p.target = (Slot.asConfirmed
      (.decided stamp hop source best.table best.score .auto none)).target := htarget
  rw [Slot.successor, if_pos htarget']
  exact ⟨hkey.symm, rfl, htarget.symm, rfl, hscore, rfl⟩

/-- A mapping that is outdated is not what it is refreshed to. -/
theorem Refreshed.ne (h : p.Refreshed best q) (hold : p.Outdated best) (hnan : best.score ≠ .nan)
    (hscore : best.score.clamp (Binary.ofNat 0) (Binary.ofNat 1) = best.score) : q ≠ p := by
  rintro rfl
  obtain ⟨negative, units, hfinite⟩ := Binary.exists_clamp_eq hnan
  rw [hscore] at hfinite
  refine hold.stale ⟨?_, h.notes_eq⟩
  rw [h.confidence_eq, hfinite]
  exact Binary.sub_self_less negative units

end Mapping

/-! ### Slots -/

namespace Deed

variable {e : Engine} {hop : Hop} {source : Table} {ranking : List Ranked} {v w : Slot}
  {p : Mapping} {step : AutoMapStep}

/-- What automatic mapping makes of a confirmed mapping: it is refreshed if the target that is accepted
is its own and it is outdated, and else it stays. -/
inductive Renews (e : Engine) (ranking : List Ranked) (p q : Mapping) : Prop
  | refreshed {best : Ranked} (hbest : Proposal.Accepts e ranking best) (hold : p.Outdated best)
    (hrefreshed : p.Refreshed best q) (hne : q ≠ p)
  | kept (hkept : ∀ best, Proposal.Accepts e ranking best → ¬ p.Outdated best) (heq : q = p)

theorem renews_effect (hp : v.confirmed = some p) (hkey : p.key = ⟨hop, source⟩)
    (hscores : ∀ k ∈ ranking, k.score.clamp (Binary.ofNat 0) (Binary.ofNat 1) = k.score)
    (hnan : ∀ k ∈ ranking, k.score ≠ .nan) {supply : Supply}
    (heffect : effect e supply hop source v (Proposal.decide e ranking) = (step, w)) :
    ∃ q, w.confirmed = some q ∧ Renews e ranking p q := by
  rcases Proposal.decide_cases e ranking with ⟨best, hbest, hdecide⟩ | ⟨hrefused, hdecide⟩
  · have hscore := hscores best hbest.mem
    rw [hdecide, effect] at heffect
    cases hc : v.confirm (.decided supply.stamp hop source best.table best.score .auto none)
      .refreshAuto with
    | error f => cases (Slot.confirm_eq_error_iff.mp hc).1
    | ok cw =>
      obtain ⟨c, v'⟩ := cw
      rw [hc] at heffect
      obtain ⟨-, rfl⟩ := Prod.mk.inj heffect
      cases Slot.confirm_eq_ok_iff.mp hc with
      | created hnone => cases hp.symm.trans hnone
      | replaced hp' hreplaces =>
        obtain rfl := Option.some.inj (hp.symm.trans hp')
        have hold := (Mapping.refreshes_iff_outdated hkey hscore).mp hreplaces
        have hrefreshed := Mapping.refreshed_successor supply.stamp hkey hold.target hscore
        exact ⟨_, rfl, .refreshed hbest hold hrefreshed
          (hrefreshed.ne hold (hnan best hbest.mem) hscore)⟩
      | unchanged hp' hkeeps _ =>
        obtain rfl := Option.some.inj (hp.symm.trans hp')
        refine ⟨p, hp, .kept (fun best' hbest' hold => ?_) rfl⟩
        -- only one target is accepted
        obtain rfl : best = best' := by
          simpa using hbest.1.symm.trans hbest'.1
        exact Bool.false_ne_true
          (hkeeps.symm.trans ((Mapping.refreshes_iff_outdated hkey hscore).mpr hold))
  · have hconfirmed : w.confirmed = v.confirmed := by
      rw [hdecide, effect] at heffect
      split at heffect <;> obtain ⟨-, rfl⟩ := Prod.mk.inj heffect
      · rfl
      · exact Slot.confirmed_record v _
    exact ⟨p, hconfirmed.trans hp, .kept (fun best hbest => absurd hbest (hrefused best)) rfl⟩

end Deed

/-! ### Runs -/

namespace World

variable {w : World} {hop : Hop} {h h' : Shelf} {steps : List AutoMapStep} {k : SlotKey}
  {p q : Mapping}

/-- Whether a run of automatic mapping renews what is confirmed for a source table by the ranking of its
targets, and leaves what is confirmed for any other. -/
structure Renews (w : World) (hop : Hop) (k : SlotKey) (p q : Mapping) : Prop where
  source : ∀ x ∈ w.sourcesOf hop, k = ⟨hop, x.table⟩ →
    Deed.Renews w.engine (w.rankingOf hop x) p q
  other : (∀ x ∈ w.sourcesOf hop, k ≠ ⟨hop, x.table⟩) → q = p

theorem Mapped.renews
    (hmapped : w.Mapped hop (sides w.engine w.registry w.surroundings hop).targets h
      (w.sourcesOf hop) steps h') (hlawful : h.Lawful) (hp : (h.slot k).confirmed = some p) :
    ∃ q, (h'.slot k).confirmed = some q ∧ w.Renews hop k p q := by
  have hsource : ∀ x ∈ w.sourcesOf hop, k = ⟨hop, x.table⟩ →
      ∃ q, (h'.slot k).confirmed = some q ∧ Deed.Renews w.engine (w.rankingOf hop x) p q := by
    rintro x hx rfl
    obtain ⟨supply, step, heffect⟩ := hmapped.exists_effect hx
    exact Deed.renews_effect hp ((hlawful _).confirmed p hp).2
      (fun _ => Proposal.clamp_score_of_mem_ranking) (fun _ => Proposal.ne_nan_of_mem_ranking) heffect
  by_cases hk : ∃ x ∈ w.sourcesOf hop, k = ⟨hop, x.table⟩
  · obtain ⟨x, hx, hxk⟩ := hk
    obtain ⟨q, hq, -⟩ := hsource x hx hxk
    refine ⟨q, hq, fun y hy hyk => ?_, fun hother => absurd hxk (hother x hx)⟩
    obtain ⟨q', hq', hrenews⟩ := hsource y hy hyk
    rwa [Option.some.inj (hq.symm.trans hq')]
  · have hother : ∀ x ∈ w.sourcesOf hop, k ≠ ⟨hop, x.table⟩ := fun x hx heq => hk ⟨x, hx, heq⟩
    exact ⟨p, by rw [hmapped.other k hother, hp], fun x hx heq => absurd heq (hother x hx),
      fun _ => rfl⟩

end World

/-- **Automatic mapping refreshes what is outdated.**  In a service with registered connections and a
built catalog, whatever was asked of its store before, a run of automatic mapping ends with a report.
Every mapping that was confirmed is still there, or was refreshed: exactly if it is an automatic one to
the target that is accepted for its source table, and has notes, or a confidence other than the score.
A ledger has to be asked what it can keep. -/
theorem Errand.autoMap_refreshes (b : Backend) {ops : List Operation} (hfair : ∀ op ∈ ops, op.Fair)
    {w : World} (hw : w.Regular) (hstore : w.store = (Store.empty b).after ops) (hop : Hop)
    (hledger : b = .ledger → ∀ op ∈ ops ++ w.asks (w.autoDeeds hop), op.Proper) :
    ∃ r w₁, (Errand.autoMap hop).run w = (.ok r, w₁) ∧
      ∀ {k : SlotKey} {p : Mapping}, w.store.confirmed? k = .ok (some p) →
        ∃ q, w₁.store.confirmed? k = .ok (some q) ∧ w.Renews hop k p q := by
  have hledger₀ : b = .ledger → ∀ op ∈ ops, op.Proper := fun hb op hmem =>
    hledger hb op (List.mem_append_left _ hmem)
  obtain ⟨h, hfollows, hbackend⟩ := Store.follows_after b hledger₀
  have hlawful := (Store.orderly_after b hfair hledger₀).lawful hfollows.shows
  rw [← hstore] at hfollows hbackend
  obtain ⟨moment, steps, h', hrun, hfollows', hmapped⟩ := hw.run_autoMap hfollows hop
    fun op hmem hb => hledger (hbackend.symm.trans hb) op (List.mem_append_right _ hmem)
  refine ⟨_, _, hrun, fun {k p} hp => ?_⟩
  rw [hfollows.shows.confirmed?_eq] at hp
  obtain ⟨q, hq, hrenews⟩ := hmapped.renews hlawful (Except.ok.inj hp)
  exact ⟨q, by rw [hfollows'.shows.confirmed?_eq, hq], hrenews⟩

/-! ### Samples -/

/-- A request to confirm an automatic mapping with notes. -/
def notedRequest : ConfirmRequest where
  hop := .sourceToStage
  source := ⟨Warehouse.erp, "", "dbo", "orders"⟩
  target := ⟨Warehouse.stage, "", "dbo", "orders"⟩
  provenance := .auto
  confidence := some (Binary.ofNat 1)
  notes := some "checked by hand"
  overwrite := false

/-- The mapping that it is about. -/
def notedMapping : Mapping :=
  Deed.decided (sampleShop .memory sampleTables) notedRequest

/-- A service whose store holds it. -/
def notedShop : World :=
  { sampleShop .memory sampleTables with
    desk := .empty .wait ((Store.empty .memory).after [.confirm notedMapping .ifAbsent]) }

theorem Errand.autoMap_refreshes_sample :
    ∃ r w₁ q, (Errand.autoMap .sourceToStage).run notedShop = (.ok r, w₁) ∧
      notedShop.store.confirmed? notedMapping.key = .ok (some notedMapping) ∧
      w₁.store.confirmed? notedMapping.key = .ok (some q) ∧
      notedShop.Renews .sourceToStage notedMapping.key notedMapping q := by
  have hfair : ∀ op ∈ [Operation.confirm notedMapping .ifAbsent], op.Fair := by
    intro op hop
    rw [List.mem_singleton.mp hop]
    trivial
  have hregular := regular_sampleShop .memory sampleTables
  obtain ⟨r, w₁, hrun, hrenews⟩ := Errand.autoMap_refreshes .memory hfair (w := notedShop)
    ⟨hregular.registry, hregular.catalog⟩ rfl .sourceToStage fun hb => by cases hb
  have hconfirmed : notedShop.store.confirmed? notedMapping.key = .ok (some notedMapping) := by
    decide +kernel
  obtain ⟨q, hq, hnews⟩ := hrenews hconfirmed
  exact ⟨r, w₁, q, hrun, hconfirmed, hq, hnews⟩

/-! ### Notes that are lost -/

theorem exists_of_map_join {α : Type} {r : Outcome (Option Mapping)} {f : Mapping → α} {a : α}
    (h : r.toOption.join.map f = some a) : ∃ m, r = .ok (some m) ∧ f m = a := by
  obtain ⟨m, hm, hf⟩ := Option.map_eq_some_iff.mp h
  rcases r with e | _ | m'
  · cases hm
  · cases hm
  · cases hm
    exact ⟨m, rfl, hf⟩

/-- A mapping that was confirmed with the confidence that automatic mapping finds is replaced all the
same, as it has notes. -/
theorem Errand.not_autoMap_refreshes_scores : ¬ ∀ (v w : World) (hop : Hop) (k : SlotKey)
    (p q : Mapping), v.Regular → v.engine.validate = .ok () → v.store = Store.empty .memory →
      v.Reaches w → w.store.confirmed? k = .ok (some p) →
        ((Errand.autoMap hop).run w).2.store.confirmed? k = .ok (some q) → q ≠ p →
          q.confidence ≠ p.confidence := by
  intro h
  let v := sampleShop .memory sampleTables
  let w := (Call.confirm notedRequest).perform v
  have hvalid : v.engine.validate = .ok () := by decide +kernel
  have hbefore : ((w.store.confirmed? notedMapping.key).toOption.join.map fun m =>
      (m.confidence, m.notes)) = some (Binary.ofNat 1, some "checked by hand") := by
    decide +kernel
  have hafter : ((((Errand.autoMap .sourceToStage).run w).2.store.confirmed?
      notedMapping.key).toOption.join.map fun m => (m.confidence, m.notes)) =
        some (Binary.ofNat 1, none) := by
    decide +kernel
  obtain ⟨p, hp, hpeq⟩ := exists_of_map_join hbefore
  obtain ⟨q, hq, hqeq⟩ := exists_of_map_join hafter
  obtain ⟨hpscore, hpnotes⟩ := Prod.mk.inj hpeq
  obtain ⟨hqscore, hqnotes⟩ := Prod.mk.inj hqeq
  have hne : q ≠ p := by
    rintro rfl
    cases hqnotes.symm.trans hpnotes
  exact h v w .sourceToStage notedMapping.key p q (regular_sampleShop .memory sampleTables) hvalid rfl
    (.call .refl (.confirm notedRequest)) hp hq hne (hqscore.trans hpscore.symm)

end TierLineage
