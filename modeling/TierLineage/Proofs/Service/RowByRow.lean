import TierLineage.Proofs.Service.Batch
import TierLineage.Proofs.Store.Renaming

/-!
# A batch is its rows one after the other

A batch that is accepted leaves the service with the decisions and candidates that it has after each
of its rows was confirmed, in their order and in place of whatever was confirmed, up to the marks
that are given out at different times; and it counts what those confirmations would have answered.
The two ways check a row differently, looking up tables with or without what was listed before, and
have defaults of their own, so that the rows that they come to store are compared first.
-/

namespace TierLineage

open TierLineage.Number TierLineage.Mappings

/-! ### Rows as requests -/

/-- The request to confirm what a row asks for, in place of whatever is confirmed. -/
def MappingRow.request (row : MappingRow) : ConfirmRequest where
  hop := row.hop
  source := row.source
  target := row.target
  provenance := row.provenance.getD .manual
  confidence := row.confidence
  notes := row.notes
  overwrite := true

/-- When a request comes in: what marks are given out next, and the time of the visits. -/
structure Turn where
  supply : Supply
  clock : Nat

namespace World

/-- The service at a turn. -/
def turned (w : World) (t : Turn) : World := { w with supply := t.supply, clock := t.clock }

/-- Confirm rows one after the other, each at a turn of its own; a failure ends it. -/
def confirmEach : World → List (MappingRow × Turn) → Outcome (List Confirmation) × World
  | w, [] => (.ok [], w)
  | w, (row, t) :: rest =>
    match (Errand.confirm row.request).run (w.turned t) with
    | (.ok c, w') => (w'.confirmEach rest).map (fun o => o.map (c :: ·)) id
    | (.error f, w') => (.error f, w')

/-- The marks that a batch and its rows one after the other give to the same mappings. -/
def freshMarks (w : World) (ts : List Turn) : Renaming :=
  ts.mapIdx fun i t => ((w.supply.advance i).stamp, t.supply.stamp)

/-! ### Checks -/

variable {w : World} {row r : MappingRow} {rows : List MappingRow}

theorem resolved_of_meant {t u : Table} (h : meant w.engine w.surroundings t = .ok u) :
    w.resolved t = u := by
  rw [resolved, h]

/-- A row that passes its check is stored as it is resolved, and so is the request for it. -/
theorem checkedRow_eq_ok (h : checkedRow w.engine w.registry w.surroundings row = .ok r) :
    r = w.resolvedRow row ∧ checkedRequest w.engine w.registry w.surroundings row.request =
      .ok (w.resolvedRow row).request := by
  obtain ⟨_, hpair, h⟩ := bind_eq_ok.mp h
  obtain ⟨_, hconfidence, h⟩ := bind_eq_ok.mp h
  obtain ⟨source, hsource, h⟩ := bind_eq_ok.mp h
  obtain ⟨target, htarget, h⟩ := bind_eq_ok.mp h
  cases h
  have hscore : (checkConfidence (row.confidence.getD (Binary.ofNat 1))).mapError Failure.refused =
      .ok () := by
    cases hrow : row.confidence with
    | none => decide +kernel
    | some x =>
      rw [hrow] at hconfidence
      exact hconfidence
  rw [resolvedRow, resolved_of_meant hsource, resolved_of_meant htarget]
  refine ⟨rfl, ?_⟩
  rw [checkedRequest]
  exact bind_eq_ok.mpr ⟨(), hpair, bind_eq_ok.mpr ⟨(), hscore, bind_eq_ok.mpr ⟨source, hsource,
    bind_eq_ok.mpr ⟨target, htarget, rfl⟩⟩⟩⟩

/-- The confidence of a row that passes its check lies between zero and one. -/
theorem inUnit_of_checkedRow (h : checkedRow w.engine w.registry w.surroundings row = .ok r) :
    ∀ x ∈ row.confidence, x.InUnit := by
  obtain ⟨_, -, h⟩ := bind_eq_ok.mp h
  obtain ⟨_, hconfidence, -⟩ := bind_eq_ok.mp h
  exact fun x hx => checkedConfidence_eq_ok.mp hconfidence x hx

/-- The rows of a batch that passes its check each pass their own. -/
theorem checkedRow_of_checkedRows {index : Nat} {seen : List SlotKey} {rs : List MappingRow}
    (h : checkedRows w.engine w.registry w.surroundings index seen rows = .ok rs) :
    rs = rows.map w.resolvedRow ∧ ∀ row ∈ rows,
      checkedRow w.engine w.registry w.surroundings row = .ok (w.resolvedRow row) := by
  induction rows generalizing index seen rs with
  | nil =>
    cases h
    exact ⟨rfl, fun row hrow => by cases hrow⟩
  | cons row rows ih =>
    rw [checkedRows, bind_eq_ok] at h
    obtain ⟨r, hr, h⟩ := h
    have hr := ok_of_mapError hr
    obtain rfl := (checkedRow_eq_ok hr).1
    split at h
    · cases h
    · obtain ⟨-, -, h⟩ := bind_eq_ok.mp h
      obtain ⟨rest, hrest, h⟩ := bind_eq_ok.mp h
      obtain ⟨rfl, hrows⟩ := ih hrest
      cases h
      exact ⟨rfl, List.forall_mem_cons.mpr ⟨hr, hrows⟩⟩

/-! ### Runs -/

/-- A batch that succeeds is stored as it is resolved. -/
theorem upsert_eq_ok {n : BatchCount} {w' : World} (h : (Errand.upsert rows).run w = (.ok n, w')) :
    (∀ row ∈ rows, checkedRow w.engine w.registry w.surroundings row = .ok (w.resolvedRow row)) ∧
      w.store.upsertAll (w.made rows) = (.ok n, w'.store) := by
  have hsteady : ((Errand.upsert rows).visit w.engine w.registry).Steady :=
    steady_checkBatch w.engine w.registry rows
  have hfound := found_checkBatch w.engine w.registry w.surroundings rows
  cases hrows : checkedRows w.engine w.registry w.surroundings 0 [] rows with
  | error f =>
    obtain ⟨clock, hrun⟩ := Errand.exists_run_eq_error hsteady (hfound.trans hrows)
    cases congrArg Prod.fst (hrun.symm.trans h)
  | ok rs =>
    obtain ⟨rfl, hchecked⟩ := checkedRow_of_checkedRows hrows
    obtain ⟨clock, hrun⟩ := Errand.exists_run_eq hsteady (hfound.trans hrows)
    obtain ⟨hcount, rfl⟩ := Prod.mk.inj (hrun.symm.trans h)
    exact ⟨hchecked, Prod.ext hcount rfl⟩

/-- A request for a row that passes its check confirms the row as it is resolved, in place of
whatever is confirmed. -/
theorem exists_run_confirm
    (h : checkedRow w.engine w.registry w.surroundings row = .ok (w.resolvedRow row)) :
    ∃ clock, (Errand.confirm row.request).run w =
      ((w.store.confirm ((w.resolvedRow row).decided w.supply.stamp) .overwrite).1,
        { w with supply := w.supply.advance 1, clock := clock }.withStore
          (w.store.confirm ((w.resolvedRow row).decided w.supply.stamp) .overwrite).2) := by
  have hsteady : ((Errand.confirm row.request).visit w.engine w.registry).Steady :=
    steady_checkRequest w.engine w.registry row.request
  obtain ⟨clock, hrun⟩ := Errand.exists_run_eq hsteady
    ((found_checkRequest w.engine w.registry w.surroundings row.request).trans
      (checkedRow_eq_ok h).2)
  exact ⟨clock, hrun⟩

/-- Rows that pass their checks are confirmed one after the other as they are resolved: no
confirmation changes what the next one is checked against. -/
theorem exists_confirmEach {ps : List (MappingRow × Turn)} (hrows : ∀ p ∈ ps,
      checkedRow w.engine w.registry w.surroundings p.1 = .ok (w.resolvedRow p.1))
    {cs : List Confirmation} {s : Store}
    (h : w.store.Overwrites (ps.map fun p => (w.resolvedRow p.1).decided p.2.supply.stamp) cs s) :
    ∃ w', w.confirmEach ps = (.ok cs, w') ∧ w'.store = s := by
  induction ps generalizing w cs with
  | nil =>
    cases h
    exact ⟨w, rfl, rfl⟩
  | cons p ps ih =>
    obtain ⟨row, t⟩ := p
    obtain ⟨hrow, hrows⟩ := List.forall_mem_cons.mp hrows
    rw [List.map_cons] at h
    cases h with
    | @cons _ s₁ _ _ _ c cs hconfirm hrest =>
      obtain ⟨clock, hrun⟩ := exists_run_confirm (w := w.turned t) hrow
      have hturned : (w.turned t).store.confirm
          (((w.turned t).resolvedRow row).decided (w.turned t).supply.stamp) .overwrite =
            (.ok c, s₁) := hconfirm
      rw [hturned] at hrun
      obtain ⟨w', hw', hstore⟩ := ih (w := ({ w.turned t with
        supply := (w.turned t).supply.advance 1, clock := clock } : World).withStore s₁) hrows hrest
      refine ⟨w', ?_, hstore⟩
      rw [confirmEach, hrun]
      dsimp only
      rw [hw']
      rfl

end World

/-! ### The same decisions -/

/-- Whether the marks of a stamp are read back from a ledger. -/
structure Stamp.Legible (s : Stamp) : Prop where
  identifier_lt : s.identifier.value < Nat.pow 2 128
  now_valid : s.now.Valid

/-- Whether all that a batch comes to is read back from a ledger, as is all that was written before. -/
structure LegibleBatch (ops : List Operation) (rows : List MappingRow) (σ : Renaming) : Prop where
  operations : ∀ op ∈ ops, op.Legible
  confidences : ∀ row ∈ rows, ∀ x ∈ row.confidence, x.IsRounded
  marks : ∀ p ∈ σ, p.1.Legible ∧ p.2.Legible

/-- The confidence of a row that is read from data is a number of single precision. -/
theorem MappingRow.isRounded_of_read {v : Json} {row : MappingRow} (h : MappingRow.read v = .ok row) :
    ∀ x ∈ row.confidence, x.IsRounded := by
  obtain ⟨found, -, h⟩ := bind_eq_ok.mp h
  obtain ⟨hop, -, h⟩ := bind_eq_ok.mp h
  obtain ⟨source, -, h⟩ := bind_eq_ok.mp h
  obtain ⟨target, -, h⟩ := bind_eq_ok.mp h
  obtain ⟨confidence, hconfidence, h⟩ := bind_eq_ok.mp h
  obtain ⟨provenance, -, h⟩ := bind_eq_ok.mp h
  obtain ⟨notes, -, h⟩ := bind_eq_ok.mp h
  cases h
  intro x hx
  obtain ⟨value, hvalue⟩ := Json.Found.exists_of_option
    (hconfidence.trans (congrArg Except.ok (Option.mem_def.mp hx)))
  exact Json.isRounded_of_readSingle hvalue

theorem MappingRow.legible_decided {row : MappingRow} (hvalid : ∀ x ∈ row.confidence, x.InUnit)
    (hrow : ∀ x ∈ row.confidence, x.IsRounded) {s : Stamp} (hs : s.Legible) :
    (row.decided s).Legible := by
  refine Mapping.legible_decided hs.identifier_lt hs.now_valid ?_ ?_ ..
  · cases hconfidence : row.confidence with
    | none =>
      rw [Option.getD_none]
      exact Binary.inUnit_one.ne_nan
    | some x => exact (hvalid x hconfidence).ne_nan
  · cases hconfidence : row.confidence with
    | none =>
      rw [Option.getD_none]
      exact Binary.isRounded_ofNat 1
    | some x => exact hrow x hconfidence

/-- Answers that tell the same are counted as the same. -/
theorem BatchCount.Counts.renamed {σ : Renaming} {n : BatchCount} {cs ds : List Confirmation}
    (h : n.Counts cs) (hcs : List.Forall₂ (Confirmation.Renamed σ) cs ds) : n.Counts ds := by
  have hcount : ∀ p : Confirmation → Bool, (∀ c d, c.Renamed σ d → p c = p d) →
      cs.countP p = ds.countP p := by
    intro p hp
    clear h
    induction hcs with
    | nil => rfl
    | cons hcd _ ih => rw [List.countP_cons, List.countP_cons, ih, hp _ _ hcd]
  constructor
  · exact h.inserted_eq.trans (hcount _ fun c d hcd => by cases hcd <;> rfl)
  · exact h.updated_eq.trans (hcount _ fun c d hcd => by cases hcd <;> rfl)
  · exact h.unchanged_eq.trans (hcount _ fun c d hcd => by cases hcd <;> rfl)

namespace World

variable {w : World} {rows : List MappingRow} {ts : List Turn}

/-- The mappings of a batch are those of its rows one after the other, up to fresh marks. -/
theorem made_renamed (hlength : ts.length = rows.length)
    (hvalid : ∀ row ∈ rows, ∀ x ∈ row.confidence, x.InUnit) {b : Backend} {ops : List Operation}
    (hlegible : b = .ledger → LegibleBatch ops rows (w.freshMarks ts)) :
    List.Forall₂ (fun m n => m.Renamed (w.freshMarks ts) n ∧ (b = .ledger → m.Legible ∧ n.Legible))
      (w.made rows)
      ((rows.zip ts).map fun p => (w.resolvedRow p.1).decided p.2.supply.stamp) := by
  refine List.forall₂_iff_get.mpr ⟨?_, fun i hi hi' => ?_⟩
  · rw [length_made, List.length_map, List.length_zip, hlength, Nat.min_self]
  · have hrow : i < rows.length := w.length_made rows ▸ hi
    have hturn : i < ts.length := hlength ▸ hrow
    have hmark : ((w.supply.advance i).stamp, ts[i].supply.stamp) ∈ w.freshMarks ts :=
      List.mem_mapIdx.mpr ⟨i, hturn, rfl⟩
    simp only [made, List.get_eq_getElem, List.getElem_mapIdx, List.getElem_map, List.getElem_zip]
    refine ⟨Mapping.renamed_of_marks hmark rfl ⟨rfl, rfl⟩ ⟨rfl, rfl⟩, fun hb => ?_⟩
    obtain ⟨hstamp, hstamp'⟩ := (hlegible hb).marks _ hmark
    have hunit : ∀ x ∈ (w.resolvedRow rows[i]).confidence, x.InUnit :=
      hvalid rows[i] (List.getElem_mem hrow)
    have hscore : ∀ x ∈ (w.resolvedRow rows[i]).confidence, x.IsRounded :=
      (hlegible hb).confidences rows[i] (List.getElem_mem hrow)
    exact ⟨MappingRow.legible_decided hunit hscore hstamp,
      MappingRow.legible_decided hunit hscore hstamp'⟩

/-- **A batch is its rows one after the other.**  If a batch succeeds, then so do requests to confirm
its rows in their order, each in place of whatever is confirmed, whenever they come in: the batch
counts their answers, and both ways lead to the same decisions up to fresh marks, and to the same
candidates. -/
theorem upsert_row_by_row {b : Backend} {ops : List Operation}
    (hstore : w.store = (Store.empty b).after ops) (hlength : ts.length = rows.length)
    (hlegible : b = .ledger → LegibleBatch ops rows (w.freshMarks ts)) {n : BatchCount} {w' : World}
    (h : (Errand.upsert rows).run w = (.ok n, w')) :
    ∃ cs w'', w.confirmEach (rows.zip ts) = (.ok cs, w'') ∧ n.Counts cs ∧
      w'.store.TellsAlike (w.freshMarks ts) w''.store := by
  obtain ⟨hrows, hupsert⟩ := upsert_eq_ok h
  obtain ⟨cs, hoverwrites, hcount⟩ := Store.overwrites_of_upsertAll hupsert
  have hstored : (w.store.backend = .ledger → LegibleBatch ops rows (w.freshMarks ts)) ∧
      w.store.Readable := by
    cases b with
    | memory =>
      obtain ⟨shelf, hshelf⟩ := Store.after_memory .empty ops
      rw [hstore, Store.empty, hshelf]
      exact ⟨fun hb => (by cases hb), trivial⟩
    | ledger =>
      rw [hstore]
      exact ⟨fun _ => hlegible rfl, Store.readable_after .ledger (hlegible rfl).operations⟩
  -- both ways start from one store, which is a renaming of itself
  have hself : w.store.Renamed (w.freshMarks ts) w.store :=
    Store.renamed_refl _ hstored.2 (hstore ▸ Store.keyed_after b ops)
  obtain ⟨cs', s, hoverwrites', hanswers, hrenamed⟩ :=
    hself.overwrites (made_renamed hlength (fun row hrow => inUnit_of_checkedRow (hrows row hrow))
      hstored.1) hoverwrites
  obtain ⟨w'', hw'', rfl⟩ := exists_confirmEach (fun p hp => hrows p.1 (List.of_mem_zip hp).1)
    hoverwrites'
  exact ⟨cs', w'', hw'', hcount.renamed hanswers, hrenamed.tellsAlike⟩

/-- A row of the sample service is confirmed a minute after the batch would have been. -/
theorem upsert_row_by_row_sample :
    ∃ n w', (Errand.upsert [sampleRow "ORDERS"]).run (sampleShop .ledger sampleTables) = (.ok n, w') ∧
      ∃ cs w'', (sampleShop .ledger sampleTables).confirmEach
        [(sampleRow "ORDERS", ⟨⟨0, ⟨60, 0⟩⟩, 60000⟩)] = (.ok cs, w'') ∧ n.Counts cs ∧
          w'.store.TellsAlike [(⟨⟨0⟩, ⟨0, 0⟩⟩, ⟨⟨0⟩, ⟨60, 0⟩⟩)] w''.store := by
  have hlegible : LegibleBatch [] [sampleRow "ORDERS"] [(⟨⟨0⟩, ⟨0, 0⟩⟩, ⟨⟨0⟩, ⟨60, 0⟩⟩)] :=
    { operations := fun op hop => by cases hop
      confidences := List.forall_mem_singleton.mpr fun x hx => by cases hx
      marks := List.forall_mem_singleton.mpr
        ⟨⟨by decide, Instant.valid_zero⟩, by decide, by constructor <;> decide⟩ }
  have hstore : (sampleShop .ledger sampleTables).store = (Store.empty .ledger).after [] := rfl
  have hlength : [(⟨⟨0, ⟨60, 0⟩⟩, 60000⟩ : Turn)].length = [sampleRow "ORDERS"].length := rfl
  exact ⟨_, _, Prod.ext upsert_sampleRow rfl,
    upsert_row_by_row hstore hlength (fun _ => hlegible) (Prod.ext upsert_sampleRow rfl)⟩

end World

end TierLineage
