import TierLineage.Proofs.Number.ReadBack
import TierLineage.Proofs.Store.Standing
import TierLineage.Service.Mappings

/-!
# Deeds

What is done to the mappings of a service: automatic mapping of one source table, a confirmation, a
batch, a deletion.  A run of automatic mapping is one deed after the other, between which anything
else may be done.  A deed asks operations of the store, so what a person decided stands until a deed
decides on its own hop and source table; automatic mapping never does.
-/

namespace TierLineage

open TierLineage.Number

/-- What is done to the mappings of a service. -/
inductive Deed where
  /-- Map one source table automatically. -/
  | auto (hop : Hop) (targets : List Listed) (source : Listed)
  /-- Confirm what a checked request asks for. -/
  | confirm (request : ConfirmRequest)
  /-- Confirm a checked batch. -/
  | upsert (rows : List MappingRow)
  | delete (key : SlotKey)

namespace Deed

/-- The service after a deed. -/
def perform (w : World) : Deed → World
  | auto hop targets source => (Mappings.autoMapOne w hop targets source).2
  | confirm q => (Mappings.confirm w q).2
  | upsert rows => (Mappings.upsert w rows).2
  | delete k => (Mappings.delete w k).2

/-- What a decision on a source table asks of the store. -/
def asksOn (w : World) (hop : Hop) (source : Table) : Proposal.Decision → List Operation
  | .confirm target score =>
    [.confirm (.decided w.supply.stamp hop source target score .auto none) .refreshAuto]
  | .record ranking _ =>
    let ms := Proposal.candidates w.engine hop source ranking w.supply
    if ms.isEmpty then [] else [.record ⟨hop, source⟩ ms]

/-- The decision of automatic mapping on a source table. -/
def decision (w : World) (hop : Hop) (targets : List Listed) (source : Listed) : Proposal.Decision :=
  Proposal.decide w.engine (Proposal.ranking w.engine w.registry hop targets source)

/-- The mapping that a confirmation is about. -/
def decided (w : World) (q : ConfirmRequest) : Mapping :=
  .decided w.supply.stamp q.hop q.source q.target (q.confidence.getD (Binary.ofNat 1)) q.provenance
    q.notes

/-- What a deed asks of the store. -/
def asks (w : World) : Deed → List Operation
  | auto hop targets source => asksOn w hop source.table (decision w hop targets source)
  | confirm q => [.confirm (decided w q) (if q.overwrite then .overwrite else .ifAbsent)]
  | upsert rows => [.upsertAll (rows.mapIdx fun i row => row.decided (w.supply.advance i).stamp)]
  | delete k => [.delete k]

/-- How many mappings a decision on a source table makes. -/
def madeOn (w : World) (hop : Hop) (source : Table) : Proposal.Decision → Nat
  | .confirm _ _ => 1
  | .record ranking _ => (Proposal.candidates w.engine hop source ranking w.supply).length

/-- How many mappings a deed makes. -/
def made (w : World) : Deed → Nat
  | auto hop targets source => madeOn w hop source.table (decision w hop targets source)
  | confirm _ => 1
  | upsert rows => rows.length
  | delete _ => 0

/-- The service once `n` mappings were made and operations were asked of the store. -/
def outcome (w : World) (n : Nat) (ops : List Operation) : World :=
  { w with supply := w.supply.advance n }.withStore (w.store.after ops)

/-- Whether a deed is meant to decide on a hop and source table. -/
def Decides : Deed → SlotKey → Prop
  | auto .., _ => False
  | confirm q, k => q.overwrite = true ∧ ⟨q.hop, q.source⟩ = k
  | upsert rows, k => ∃ row ∈ rows, ⟨row.hop, row.source⟩ = k
  | delete j, k => j = k

/-! ### Deeds and operations -/

variable {w : World} {d : Deed} {k : SlotKey} {op : Operation}

theorem autoConfirm_snd (w : World) (hop : Hop) (source target : Table) (score : Single) :
    (Mappings.autoConfirm w hop source target score).2 =
      outcome w 1 (asksOn w hop source (.confirm target score)) := by
  -- whatever confirming answers, the store is the one it leaves
  rw [Mappings.autoConfirm]
  split <;> next heq =>
    exact congrArg { w with supply := w.supply.advance 1 }.withStore (congrArg Prod.snd heq).symm

theorem autoRecord_snd (w : World) (hop : Hop) (source : Table) (ranking : List Ranked)
    (tie : Bool) : (Mappings.autoRecord w hop source ranking tie).2 =
      outcome w (madeOn w hop source (.record ranking tie))
        (asksOn w hop source (.record ranking tie)) := by
  rw [Mappings.autoRecord, asksOn]
  split
  · rfl
  · split <;> next heq =>
      exact congrArg { w with supply := w.supply.advance _ }.withStore (congrArg Prod.snd heq).symm

/-- A deed makes mappings and changes the store by what it asks, and nothing else. -/
theorem perform_eq (w : World) (d : Deed) : d.perform w = outcome w (d.made w) (d.asks w) := by
  cases d with
  | auto hop targets source =>
    rw [perform, Mappings.autoMapOne, made, asks, decision]
    cases Proposal.decide w.engine (Proposal.ranking w.engine w.registry hop targets source) with
    | confirm target score => exact autoConfirm_snd w hop source.table target score
    | record ranking tie => exact autoRecord_snd w hop source.table ranking tie
  | confirm q => rfl
  | upsert rows => rfl
  | delete k => rfl

theorem store_perform (w : World) (d : Deed) : (d.perform w).store = w.store.after (d.asks w) := by
  rw [perform_eq]
  rfl

/-- What automatic mapping asks is about the source table, and never decides. -/
theorem spec_of_mem_asksOn {hop : Hop} {source : Table} {decision : Proposal.Decision}
    (h : op ∈ asksOn w hop source decision) :
    (∀ k, op.Touches k → (⟨hop, source⟩ : SlotKey) = k) ∧ ∀ k, ¬ op.Decides k := by
  cases decision with
  | confirm target score =>
    rw [List.mem_singleton.mp h]
    exact ⟨fun k hk => hk, fun k hk => hk⟩
  | record ranking tie =>
    rw [asksOn] at h
    split at h
    · cases h
    · rw [List.mem_singleton.mp h]
      exact ⟨fun k hk => hk, fun k hk => hk⟩

/-- Where an operation of a deed decides, the deed is meant to. -/
theorem decides_of_asks (h : op ∈ d.asks w) (hk : op.Decides k) : d.Decides k := by
  cases d with
  | auto hop targets source => exact (spec_of_mem_asksOn h).2 k hk
  | confirm q =>
    rw [List.mem_singleton.mp h] at hk
    cases hoverwrite : q.overwrite with
    | false => rw [hoverwrite] at hk; exact hk.elim
    | true => rw [hoverwrite] at hk; exact ⟨hoverwrite, hk⟩
  | upsert rows =>
    rw [List.mem_singleton.mp h] at hk
    obtain ⟨m, hm, hkey⟩ := hk
    obtain ⟨i, hi, rfl⟩ := List.mem_mapIdx.mp hm
    exact ⟨rows[i], List.getElem_mem hi, hkey⟩
  | delete j =>
    rw [List.mem_singleton.mp h] at hk
    exact hk

end Deed

/-! ### Runs -/

namespace World

/-- The service after one deed after the other. -/
def after (w : World) : List Deed → World
  | [] => w
  | d :: ds => (d.perform w).after ds

/-- What one deed after the other asks of the store. -/
def asks (w : World) : List Deed → List Operation
  | [] => []
  | d :: ds => d.asks w ++ (d.perform w).asks ds

variable {w : World} {ds : List Deed}

theorem asks_append (w : World) (ds es : List Deed) :
    w.asks (ds ++ es) = w.asks ds ++ (w.after ds).asks es := by
  induction ds generalizing w with
  | nil => rfl
  | cons d ds ih =>
    rw [List.cons_append, asks, asks, ih, List.append_assoc]
    rfl

/-- A run makes mappings and changes the store by what it asks, and nothing else. -/
theorem exists_after_eq (w : World) (ds : List Deed) :
    ∃ n, w.after ds = Deed.outcome w n (w.asks ds) := by
  induction ds generalizing w with
  | nil => exact ⟨0, rfl⟩
  | cons d ds ih =>
    obtain ⟨n, hn⟩ := ih (d.perform w)
    refine ⟨d.made w + n, ?_⟩
    rw [after, asks, hn]
    simp only [Deed.perform_eq, Deed.outcome, Store.after_append, Supply.advance, Nat.add_assoc,
      withStore, store]

theorem store_after (w : World) (ds : List Deed) : (w.after ds).store = w.store.after (w.asks ds) := by
  obtain ⟨n, hn⟩ := w.exists_after_eq ds
  rw [hn]
  rfl

/-- What is asked depends on the settings, the connections and the supply of marks only. -/
theorem asks_congr {v w : World} (hengine : v.engine = w.engine) (hregistry : v.registry = w.registry)
    (hsupply : v.supply = w.supply) (ds : List Deed) : v.asks ds = w.asks ds := by
  induction ds generalizing v w with
  | nil => rfl
  | cons d ds ih =>
    have hasks : d.asks v = d.asks w := by
      cases d <;> simp only [Deed.asks, Deed.asksOn, Deed.decision, Deed.decided, hengine, hregistry,
        hsupply]
    have hmade : d.made v = d.made w := by
      cases d <;> simp only [Deed.made, Deed.madeOn, Deed.decision, hengine, hregistry, hsupply]
    rw [asks, asks, hasks, ih]
    all_goals rw [Deed.perform_eq, Deed.perform_eq]
    · exact hengine
    · exact hregistry
    · exact congrArg₂ Supply.advance hsupply hmade

/-- Where an operation of a run decides, one of its deeds is meant to. -/
theorem decides_of_asks {op : Operation} {k : SlotKey} (h : op ∈ w.asks ds) (hk : op.Decides k) :
    ∃ d ∈ ds, d.Decides k := by
  induction ds generalizing w with
  | nil => cases h
  | cons d ds ih =>
    rcases List.mem_append.mp h with h | h
    · exact ⟨d, List.mem_cons_self .., Deed.decides_of_asks h hk⟩
    · obtain ⟨d', hd', hk'⟩ := ih h
      exact ⟨d', List.mem_cons_of_mem d hd', hk'⟩

end World

/-- Mapping source tables one after the other is a run of deeds, one for each of them until one
fails. -/
theorem Mappings.exists_after_autoMapAll (hop : Hop) (targets : List Listed) (w : World)
    (sources : List Listed) (report : AutoMapReport) :
    ∃ done, done <+: sources ∧
      (Mappings.autoMapAll hop targets w sources report).2 = w.after (done.map (.auto hop targets)) := by
  induction sources generalizing w report with
  | nil => exact ⟨[], List.nil_prefix, rfl⟩
  | cons source rest ih =>
    rw [Mappings.autoMapAll]
    cases hone : Mappings.autoMapOne w hop targets source with
    | mk result w' =>
      have hperform : (Deed.auto hop targets source).perform w = w' := congrArg Prod.snd hone
      cases result with
      | error f =>
        refine ⟨[source], List.cons_prefix_cons.mpr ⟨rfl, List.nil_prefix⟩, ?_⟩
        exact hperform.symm
      | ok step =>
        obtain ⟨done, hprefix, heq⟩ := ih w' (AutoMapReport.add report step)
        refine ⟨source :: done, List.cons_prefix_cons.mpr ⟨rfl, hprefix⟩, ?_⟩
        rw [List.map_cons, World.after, hperform]
        exact heq

/-! ### Decisions of a person -/

/-- Whether a deed leaves the mappings that it is not meant to decide on. -/
structure World.Respects (w : World) (d : Deed) : Prop where
  /-- What a person decided stays as it is. -/
  owned : ∀ {k : SlotKey} {p : Mapping}, w.store.confirmed? k = .ok (some p) →
    p.provenance.userOwned = true → ¬ d.Decides k →
      (d.perform w).store.confirmed? k = .ok (some p)
  /-- Automatic mapping neither removes a mapping nor changes its target or its identity. -/
  auto_stands : ∀ {hop : Hop} {targets : List Listed} {source : Listed},
    d = .auto hop targets source → ∀ {k : SlotKey} {p : Mapping},
      w.store.confirmed? k = .ok (some p) → ∃ q, (d.perform w).store.confirmed? k = .ok (some q) ∧
        q.target = p.target ∧ q.identifier = p.identifier
  /-- Automatic mapping leaves everything under the keys of other tables and of the other hop. -/
  auto_other : ∀ {hop : Hop} {targets : List Listed} {source : Listed},
    d = .auto hop targets source → ∀ {k : SlotKey}, k ≠ ⟨hop, source.table⟩ →
      (d.perform w).store.slot k = w.store.slot k

/-- A service whose store follows a shelf respects what was decided. -/
theorem World.respects_of_follows {w : World} {h : Shelf} (hw : w.store.Follows h) {d : Deed}
    (htakes : ∀ op ∈ d.asks w, w.store.Takes op) : w.Respects d := by
  have hstands : ∀ {k : SlotKey} {p : Mapping}, w.store.confirmed? k = .ok (some p) →
      ¬ d.Decides k → ∃ q, (d.perform w).store.confirmed? k = .ok (some q) ∧ p.Stands q := by
    intro k p hp hk
    rw [Deed.store_perform]
    exact hw.stands_after htakes (fun op hop hdecides => hk (Deed.decides_of_asks hop hdecides)) hp
  refine ⟨fun hp howned hk => ?_, ?_, ?_⟩
  · obtain ⟨q, hq, hpq⟩ := hstands hp hk
    rw [hq, hpq.eq_of_userOwned howned]
  · rintro hop targets source rfl k p hp
    obtain ⟨q, hq, hpq⟩ := hstands hp fun hk => hk
    exact ⟨q, hq, hpq.target_eq, hpq.identifier_eq⟩
  · rintro hop targets source rfl k hk
    rw [Deed.store_perform]
    exact hw.slot_after htakes fun op hop htouches =>
      hk ((Deed.spec_of_mem_asksOn hop).1 k htouches).symm

/-- **What a person decided stands.**  In a service whose store started empty, whatever was asked of
it and whatever deeds are done from then on, every deed respects what it is not meant to decide on;
so over a run in which no deed decides on its hop and source table a decision of a person stays as it
is.  A run of automatic mapping is such a run of deeds.  A ledger has to be asked what it can keep. -/
theorem World.decisions_stand (b : Backend) {ops : List Operation} {w : World}
    (hstore : w.store = (Store.empty b).after ops) {ds : List Deed}
    (hledger : b = .ledger → ∀ op ∈ ops ++ w.asks ds, op.Proper) :
    (∀ {before later : List Deed} {d : Deed}, ds = before ++ d :: later →
      (w.after before).Respects d) ∧
    (∀ {k : SlotKey} {p : Mapping}, w.store.confirmed? k = .ok (some p) →
      p.provenance.userOwned = true → (∀ d ∈ ds, ¬ d.Decides k) →
        (w.after ds).store.confirmed? k = .ok (some p)) ∧
    ∀ (hop : Hop) (s : Sides) (failures : List PartFailure), ∃ done, done <+: s.sources ∧
      (Mappings.autoMap w hop s failures).2 = w.after (done.map (.auto hop s.targets)) := by
  obtain ⟨h, hfollows, hbackend⟩ := Store.follows_after b fun hb op hop =>
    hledger hb op (List.mem_append_left _ hop)
  rw [← hstore] at hfollows hbackend
  have htakes : ∀ op ∈ w.asks ds, w.store.Takes op := fun op hop hb =>
    hledger (hbackend.symm.trans hb) op (List.mem_append_right _ hop)
  refine ⟨?_, ?_, fun hop s failures => Mappings.exists_after_autoMapAll hop s.targets w s.sources _⟩
  · rintro before later d rfl
    rw [World.asks_append, World.asks] at htakes
    obtain ⟨h', -, hfollows', hbackend'⟩ := hfollows.after fun op hop =>
      htakes op (List.mem_append_left _ hop)
    rw [← World.store_after] at hfollows' hbackend'
    refine World.respects_of_follows hfollows' fun op hop hb => ?_
    exact htakes op (List.mem_append_right _ (List.mem_append_left _ hop)) (hbackend' ▸ hb)
  · intro k p hp howned hds
    obtain ⟨q, hq, hpq⟩ := hfollows.stands_after htakes (fun op hop hk => by
      obtain ⟨d, hd, hdecides⟩ := World.decides_of_asks hop hk
      exact hds d hd hdecides) hp
    rw [World.store_after, hq, hpq.eq_of_userOwned howned]

/-! ### Mappings that are read back -/

/-- A confidence between zero and one is read back just if it is a number of single precision. -/
theorem Mapping.legible_iff {m : Mapping} (h : m.confidence.InUnit) :
    m.Legible ↔ m.identifier.value < 2 ^ 128 ∧ m.confidence.IsRounded ∧ m.createdAt.Valid := by
  constructor
  · intro hm
    obtain ⟨-, hread⟩ := Json.clean_single hm.confidence_eq
    exact ⟨hm.identifier_lt, Json.isRounded_of_readSingle hread, hm.createdAt_valid⟩
  · rintro ⟨hidentifier, hrounded, hcreated⟩
    exact ⟨hidentifier, Json.decode_single h hrounded, hcreated⟩

/-- A decision is read back if its marks are, whatever score it was made with. -/
theorem Mapping.legible_decided {s : Stamp} (hidentifier : s.identifier.value < 2 ^ 128)
    (hnow : s.now.Valid) {x : Single} (hx : x ≠ .nan) (hr : x.IsRounded) (hop : Hop)
    (source target : Table) (provenance : Provenance) (notes : Option String) :
    (Mapping.decided s hop source target x provenance notes).Legible :=
  (Mapping.legible_iff (Binary.inUnit_clamp hx)).mpr
    ⟨hidentifier, hr.clamp (Binary.isRounded_ofNat 0) (Binary.isRounded_ofNat 1), hnow⟩

/-! ### Samples -/

/-- A service in which nothing is configured, with a ledger of one decision. -/
def sampleService (m : Mapping) : World :=
  .idle .empty .standard .empty ((Store.empty .ledger).after (Store.decisions [m])) .absent
    ⟨0, ⟨0, 0⟩⟩

/-- A ledger holds what was decided first. -/
theorem Ledger.exists_after_decision {m : Mapping}
    (hfits : (Ledger.slotKey m.key).utf8ByteSize ≤ Ledger.keyLimit) (hm : m.Legible) :
    ∃ l, (Store.empty .ledger).after (Store.decisions [m]) = .ledger l ∧
      l.slot m.key = .ok (Slot.holding (Slot.asConfirmed m)) := by
  have hkeeps : (Store.empty .ledger).Keeps m.key (Slot.holding (Slot.asConfirmed m)) := fun _ =>
    ⟨hfits, (Slot.of_holding (k := m.key) ⟨hm.asConfirmed, rfl⟩).legible⟩
  have hcreated : Slot.empty.confirm m .ifAbsent =
      .ok (.created (Slot.asConfirmed m), Slot.holding (Slot.asConfirmed m)) :=
    Slot.confirm_of_none rfl
  obtain ⟨s', hs', hbackend, hslot⟩ := Store.confirm_of_ok rfl hcreated hkeeps
  have hstore : (Store.empty .ledger).after (Store.decisions [m]) = s' := congrArg Prod.snd hs'
  cases s' with
  | memory h => cases hbackend
  | ledger l => exact ⟨l, hstore, hslot⟩

theorem confirmed?_sampleService {m : Mapping}
    (hfits : (Ledger.slotKey m.key).utf8ByteSize ≤ Ledger.keyLimit) (hm : m.Legible) :
    (sampleService m).store.confirmed? m.key = .ok (some (Slot.asConfirmed m)) := by
  obtain ⟨l, hl, hslot⟩ := Ledger.exists_after_decision hfits hm
  have hstore : (sampleService m).store = .ledger l := hl
  rw [Store.confirmed?_eq, hstore, Store.slot, hslot]
  rfl

/-- A table is mapped automatically to one of its name, another target is asked for, and another
table is deleted. -/
def sampleDeeds : List Deed :=
  [.auto .sourceToStage [⟨sampleTable "a", []⟩] ⟨sampleTable "a", []⟩,
    .confirm ⟨.sourceToStage, sampleTable "a", sampleTable "c", .promoted, none, none, false⟩,
    .delete (sampleMapping "d" "b").key]

theorem legible_decided_one {n : Nat} (hn : n < 2 ^ 128) (hop : Hop) (source target : Table)
    (provenance : Provenance) (notes : Option String) : (Mapping.decided ⟨⟨n⟩, ⟨0, 0⟩⟩ hop source
      target (Binary.ofNat 1) provenance notes).Legible :=
  Mapping.legible_decided hn Instant.valid_zero Binary.inUnit_one.ne_nan (Binary.isRounded_ofNat 1) ..

theorem World.decisions_stand_sample :
    ((sampleService (sampleMapping "a" "b")).after sampleDeeds).store.confirmed?
      (sampleMapping "a" "b").key = .ok (some (sampleMapping "a" "b")) := by
  have ha : (sampleMapping "a" "b").key.Proper :=
    proper_sampleMapping (by unfold Plain; decide) (by decide)
  have hd : (sampleMapping "d" "b").key.Proper :=
    proper_sampleMapping (by unfold Plain; decide) (by decide)
  have hauto : Deed.decision (sampleService (sampleMapping "a" "b")) .sourceToStage
      [⟨sampleTable "a", []⟩] ⟨sampleTable "a", []⟩ =
        .confirm (sampleTable "a") (Binary.ofNat 1) := by
    decide +kernel
  refine (World.decisions_stand .ledger rfl fun _ op hop => ?_).2.1
    (confirmed?_sampleService ha.fits (legible_sampleMapping "a" "b")) rfl ?_
  · have hasks : (sampleService (sampleMapping "a" "b")).asks sampleDeeds =
        [.confirm (.decided ⟨⟨0⟩, ⟨0, 0⟩⟩ .sourceToStage (sampleTable "a") (sampleTable "a")
            (Binary.ofNat 1) .auto none) .refreshAuto,
          .confirm (.decided ⟨⟨1⟩, ⟨0, 0⟩⟩ .sourceToStage (sampleTable "a") (sampleTable "c")
            (Binary.ofNat 1) .promoted none) .ifAbsent,
          .delete (sampleMapping "d" "b").key] := by
      rw [sampleDeeds, World.asks, Deed.perform_eq, Deed.made, Deed.asks, hauto]
      simp only [World.asks, Deed.asks, Deed.asksOn, Deed.madeOn, Deed.decided, Deed.outcome,
        List.cons_append, List.nil_append, Option.getD_none]
      rfl
    rw [hasks, Store.decisions] at hop
    simp only [List.map_cons, List.map_nil, List.cons_append, List.nil_append, List.mem_cons,
      List.not_mem_nil, or_false] at hop
    rcases hop with rfl | rfl | rfl | rfl
    · exact ⟨ha, legible_sampleMapping "a" "b"⟩
    · exact ⟨ha, legible_decided_one (by decide) ..⟩
    · exact ⟨ha, legible_decided_one (by decide) ..⟩
    · exact hd
  · simp [sampleDeeds, Deed.Decides, sampleMapping, Mapping.key, sampleTable]

/-! ### Keys that two tables share -/

/-- Tables that share a key share a slot. -/
theorem Ledger.slot_eq_of_slotKey_eq {k j : SlotKey} (hkey : slotKey j = slotKey k) (l : Ledger) :
    l.slot j = l.slot k := by
  rw [slot, slot, hkey]

/-- Where two tables share a key, deleting what is confirmed for the one deletes it for the other. -/
theorem Ledger.slot_delete_of_slotKey_eq {l : Ledger} {k j : SlotKey} {m : Mapping}
    (hkey : slotKey j = slotKey k) (hv : l.slot k = .ok (Slot.holding m)) :
    (l.delete j).2.slot k = .ok Slot.empty := by
  have hj : l.slot j = .ok (Slot.holding m) := (slot_eq_of_slotKey_eq hkey l).trans hv
  have hput : l.putSlot j Slot.empty = .ok ⟨l.entries.erase (slotKey j)⟩ := rfl
  rw [delete, update_of_ok hj rfl hput]
  refine slot_of_text? ?_ (Slot.of_empty k).legible
  rw [entries_putSlot hput, if_pos hkey.symm]

/-- A null character moves the bound between schema and name, and then two tables of a ledger share
a key: a deed that is meant to decide on the one ends the decision of a person on the other. -/
theorem World.not_respects_of_shared_key : ¬ ∀ (ops : List Operation) (w : World),
    w.store = (Store.empty .ledger).after ops → ∀ d, w.Respects d := by
  intro h
  let t : Table := ⟨sampleAlias, "", "dbo", "a\x00b"⟩
  let u : Table := ⟨sampleAlias, "", "dbo\x00a", "b"⟩
  let m : Mapping := { sampleMapping "a" "b" with source := t }
  have hlegible : m.Legible := by
    obtain ⟨hidentifier, hconfidence, hcreated⟩ := legible_sampleMapping "a" "b"
    exact ⟨hidentifier, hconfidence, hcreated⟩
  have hbefore : (sampleService m).store.confirmed? m.key = .ok (some m) :=
    confirmed?_sampleService (by decide) hlegible
  have hstands := (h _ (sampleService m) rfl (.delete ⟨.sourceToStage, u⟩)).owned hbefore rfl
    (by simp [Deed.Decides, m, t, u, Mapping.key, sampleMapping])
  -- the slot of the one table is found under the key of the other, and is emptied there
  obtain ⟨l, hl, hslot⟩ := Ledger.exists_after_decision (m := m) (by decide) hlegible
  have hkey : Ledger.slotKey ⟨.sourceToStage, u⟩ = Ledger.slotKey m.key := by decide
  have hafter := Ledger.slot_delete_of_slotKey_eq hkey hslot
  have hstore : (sampleService m).store = .ledger l := hl
  rw [Deed.store_perform, Deed.asks, hstore] at hstands
  change Except.map _ ((l.delete _).2.slot m.key) = _ at hstands
  rw [hafter] at hstands
  cases hstands

end TierLineage
