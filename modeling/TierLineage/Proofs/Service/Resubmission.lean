import TierLineage.Proofs.Service.RowByRow

/-!
# Batches that are submitted again

A batch that was accepted is accepted again while nothing else changes, and resolves to the same rows:
only the marks are new.  The first submission, whatever it inserted, replaced or left alone, has
settled the store on each row whose slot no other row of the batch shares.  If no two rows share a
slot, the second submission finds all of them unchanged and the store tells what it told before.  In
memory that is always so, as no two accepted rows have one key.  In a ledger rows of different tables
share a slot if their keys have one text; they take each other's place at every submission.
-/

namespace TierLineage

open TierLineage.Number TierLineage.Mappings

namespace World

variable {w w' : World} {row r : MappingRow} {rows : List MappingRow} {n : BatchCount}

/-! ### Accepted batches -/

/-- A row that passes its check is valid. -/
theorem validRow_of_checkedRow
    (h : checkedRow w.engine w.registry w.surroundings row = .ok r) : w.ValidRow row := by
  obtain ⟨_, hpair, h⟩ := bind_eq_ok.mp h
  obtain ⟨_, hconfidence, h⟩ := bind_eq_ok.mp h
  obtain ⟨source, hsource, h⟩ := bind_eq_ok.mp h
  obtain ⟨target, htarget, -⟩ := bind_eq_ok.mp h
  exact ⟨ok_of_mapError hpair, checkedConfidence_eq_ok.mp hconfidence, finds_of_meant hsource,
    finds_of_meant htarget⟩

/-- The rows of a batch that passes its check have keys of their own, which were not seen before. -/
theorem nodup_of_checkedRows {index : Nat} {seen : List SlotKey} {rs : List MappingRow}
    (h : checkedRows w.engine w.registry w.surroundings index seen rows = .ok rs) :
    (rows.map fun row => (w.resolvedRow row).key).Nodup ∧
      ∀ row ∈ rows, (w.resolvedRow row).key ∉ seen := by
  induction rows generalizing index seen rs with
  | nil => exact ⟨List.nodup_nil, fun row hrow => by cases hrow⟩
  | cons row rows ih =>
    rw [checkedRows, bind_eq_ok] at h
    obtain ⟨r, hr, h⟩ := h
    obtain rfl := (checkedRow_eq_ok (ok_of_mapError hr)).1
    split at h
    · cases h
    · next hseen =>
      obtain ⟨-, -, h⟩ := bind_eq_ok.mp h
      obtain ⟨rest, hrest, -⟩ := bind_eq_ok.mp h
      obtain ⟨hdistinct, hnew⟩ := ih hrest
      have hown : (w.resolvedRow row).key ∉ seen := by
        rw [List.contains_iff_mem] at hseen
        exact hseen
      rw [List.map_cons, List.nodup_cons]
      refine ⟨⟨fun hmem => ?_, hdistinct⟩,
        List.forall_mem_cons.mpr ⟨hown, fun other hother hmem => ?_⟩⟩
      · obtain ⟨other, hother, hkey⟩ := List.mem_map.mp hmem
        exact hnew other hother (hkey ▸ List.mem_cons_self ..)
      · exact hnew other hother (List.mem_cons_of_mem _ hmem)

/-- A batch that passes its check is accepted, and the connections of its rows can be listed. -/
theorem accepts_of_checkedRows {rs : List MappingRow}
    (h : checkedRows w.engine w.registry w.surroundings 0 [] rows = .ok rs) :
    w.Accepts rows ∧ w.Listing rows := by
  have hvalid : ∀ row ∈ rows, w.ValidRow row := fun row hrow =>
    validRow_of_checkedRow ((checkedRow_of_checkedRows h).2 row hrow)
  refine ⟨⟨hvalid, (nodup_of_checkedRows h).1⟩, fun he row hrow _ => ?_⟩
  obtain ⟨ts, hts, -⟩ := (hvalid row hrow).source he
  obtain ⟨us, hus, -⟩ := (hvalid row hrow).target he
  exact ⟨⟨ts, hts⟩, us, hus⟩

/-- A batch that succeeds has passed its check. -/
theorem accepts_of_upsert (h : (Errand.upsert rows).run w = (.ok n, w')) :
    w.Accepts rows ∧ w.Listing rows := by
  cases hrows : checkedRows w.engine w.registry w.surroundings 0 [] rows with
  | error f =>
    obtain ⟨clock, hrun⟩ := Errand.exists_run_eq_error (q := .upsert rows)
      (steady_checkBatch w.engine w.registry rows)
      ((found_checkBatch w.engine w.registry w.surroundings rows).trans hrows)
    cases congrArg Prod.fst (hrun.symm.trans h)
  | ok rs => exact accepts_of_checkedRows hrows

/-- What a batch has to be to be accepted is not a matter of the store or of the time. -/
theorem Accepts.later (h : w.Accepts rows) (desk : Flight.Desk) (supply : Supply) (clock : Nat) :
    ({ w with desk := desk, supply := supply, clock := clock } : World).Accepts rows where
  valid row hrow :=
    have hrow := h.valid row hrow
    ⟨hrow.pair, hrow.confidence, hrow.source, hrow.target⟩
  distinct := h.distinct

/-! ### What a batch is stored as -/

/-- What a batch is stored as depends on the moment in its marks only. -/
theorem unmarked_made_turned (w : World) (t : Turn) (rows : List MappingRow) :
    ((w.turned t).made rows).map Mapping.unmarked = (w.made rows).map Mapping.unmarked := by
  simp only [made, List.mapIdx_eq_zipIdx_map, List.map_map]
  rfl

/-- What a batch is stored as is read back if its marks are. -/
theorem legible_of_mem_made (hvalid : ∀ row ∈ rows, ∀ x ∈ row.confidence, x.InUnit)
    (hrounded : ∀ row ∈ rows, ∀ x ∈ row.confidence, x.IsRounded)
    (hmarks : ∀ i < rows.length, (w.supply.advance i).stamp.Legible) {m : Mapping}
    (hm : m ∈ w.made rows) : m.Legible := by
  obtain ⟨i, hi, rfl⟩ := List.mem_mapIdx.mp hm
  rw [List.length_map] at hi
  have hunit : ∀ x ∈ (w.resolvedRow rows[i]).confidence, x.InUnit :=
    hvalid rows[i] (List.getElem_mem hi)
  have hscore : ∀ x ∈ (w.resolvedRow rows[i]).confidence, x.IsRounded :=
    hrounded rows[i] (List.getElem_mem hi)
  rw [List.getElem_map]
  exact MappingRow.legible_decided hunit hscore (hmarks i hi)

/-! ### The second submission -/

/-- A batch that was accepted comes to the store again as it is resolved. -/
theorem exists_run_again (haccepts : w.Accepts rows) (hlist : w.Listing rows)
    (h : (Errand.upsert rows).run w = (.ok n, w')) (t : Turn) :
    w.store.upsertAll (w.made rows) = (.ok n, w'.store) ∧ ∃ v : World,
      (Errand.upsert rows).run (w'.turned t) =
        ((w'.store.upsertAll ((w.turned t).made rows)).1,
          v.withStore (w'.store.upsertAll ((w.turned t).made rows)).2) := by
  obtain ⟨clock, hrun⟩ := haccepts.run_eq hlist
  obtain ⟨hcount, rfl⟩ := Prod.mk.inj (hrun.symm.trans h)
  refine ⟨Prod.ext hcount rfl, ?_⟩
  obtain ⟨clock', hrun'⟩ := (haccepts.later _ t.supply t.clock).run_eq hlist
  exact ⟨_, hrun'⟩

section Again

variable {b : Backend} {ops : List Operation} (hstore : w.store = (Store.empty b).after ops)
  (hlegible : b = .ledger → (∀ op ∈ ops, op.Legible) ∧ ∀ m ∈ w.made rows, m.Legible)
  (h : (Errand.upsert rows).run w = (.ok n, w'))

include hstore hlegible h

/-- Where a batch was accepted, the store can be read and what was stored is read back. -/
theorem readable_of_upsert : w.store.backend = b ∧ w.store.Readable ∧
    ∀ m ∈ w.made rows, (w.store.backend = .ledger → m.Legible) ∧ m.confidence.InUnit := by
  have hbackend : w.store.backend = b := by
    rw [hstore, Store.backend_after, Store.backend_empty]
  refine ⟨hbackend, ?_, fun m hm => ⟨fun hb => (hlegible (hbackend ▸ hb)).2 m hm, ?_⟩⟩
  · rw [hstore]
    exact Store.readable_of_after b fun hb => (hlegible hb).1
  · exact inUnit_of_mem_made (accepts_of_upsert h).1 hm

/-- Rows with slots of their own are found unchanged when they are submitted again. -/
theorem exists_run_unchanged (hapart : b.Apart (rows.map fun row => (w.resolvedRow row).key))
    (t : Turn) : ∃ w'', (Errand.upsert rows).run (w'.turned t) = (.ok ⟨0, 0, rows.length⟩, w'') ∧
      w''.store.TellsAs w'.store := by
  obtain ⟨haccepts, hlist⟩ := accepts_of_upsert h
  obtain ⟨hbackend, hreadable, hmade⟩ := readable_of_upsert hstore hlegible h
  obtain ⟨hfirst, v, hrun⟩ := exists_run_again haccepts hlist h t
  obtain ⟨s, hs, hmatches⟩ := Store.upsertAll_again hreadable hmade hfirst
    (w.unmarked_made_turned t rows) (by rwa [hbackend, key_made])
  rw [hs, length_made] at hrun
  exact ⟨_, hrun, hmatches.tellsAs⟩

/-- Rows that are found unchanged when they are submitted again have slots of their own. -/
theorem apart_of_run_unchanged {t : Turn} {w'' : World}
    (hagain : (Errand.upsert rows).run (w'.turned t) = (.ok ⟨0, 0, rows.length⟩, w'')) :
    b.Apart (rows.map fun row => (w.resolvedRow row).key) := by
  obtain ⟨haccepts, hlist⟩ := accepts_of_upsert h
  obtain ⟨hbackend, hreadable, hmade⟩ := readable_of_upsert hstore hlegible h
  obtain ⟨hfirst, v, hrun⟩ := exists_run_again haccepts hlist h t
  obtain ⟨hcount, -⟩ := Prod.mk.inj (hrun.symm.trans hagain)
  rw [← length_made (w.turned t)] at hcount
  have hapart := Store.apart_of_upsertAll_again hreadable hmade hfirst
    (w.unmarked_made_turned t rows) (by rw [key_made]; exact haccepts.distinct) (Prod.ext hcount rfl)
  rwa [hbackend, key_made] at hapart

/-- **A batch that is submitted again is found unchanged**, at whatever time, and the store tells of
mappings what the first submission left, if and only if no two of its rows share a slot.  In memory no
two rows do, nor do rows in a ledger whose databases and schemas hold no null character. -/
theorem upsert_again :
    (b.Apart (rows.map fun row => (w.resolvedRow row).key) ↔ ∀ t, ∃ w'',
        (Errand.upsert rows).run (w'.turned t) = (.ok ⟨0, 0, rows.length⟩, w'') ∧
          w''.store.TellsAs w'.store) ∧
      (b = .memory → b.Apart (rows.map fun row => (w.resolvedRow row).key)) ∧
      ((∀ row ∈ rows, (w.resolved row.source).Separable) →
        b.Apart (rows.map fun row => (w.resolvedRow row).key)) := by
  have hdistinct := (accepts_of_upsert h).1.distinct
  refine ⟨⟨exists_run_unchanged hstore hlegible h, fun hagain => ?_⟩,
    fun hb => hb ▸ Backend.apart_memory hdistinct, fun hseparable => ?_⟩
  · obtain ⟨w'', hrun, -⟩ := hagain ⟨w.supply, w.clock⟩
    exact apart_of_run_unchanged hstore hlegible h hrun
  · refine Backend.apart_of_separable hdistinct fun k hk => ?_
    obtain ⟨row, hrow, rfl⟩ := List.mem_map.mp hk
    exact hseparable row hrow

end Again

/-- Two rows that say nothing of confidences are read back from a ledger of the sample service. -/
theorem legible_sampleShop {b : Backend} {tables : List Table}
    (hrows : ∀ row ∈ rows, row.confidence = none) (hlength : rows.length ≤ 2) :
    ∀ m ∈ (sampleShop b tables).made rows, m.Legible := by
  intro m hm
  have hnone : ∀ row ∈ rows, ∀ x, x ∉ row.confidence := fun row hrow x hx => by
    rw [hrows row hrow] at hx
    cases hx
  refine legible_of_mem_made (w := sampleShop b tables)
    (fun row hrow x hx => absurd hx (hnone row hrow x))
    (fun row hrow x hx => absurd hx (hnone row hrow x)) (fun i hi => ⟨?_, Instant.valid_zero⟩) hm
  · have hvalue : ((sampleShop b tables).supply.advance i).stamp.identifier.value = i :=
      Nat.zero_add i
    rw [hvalue]
    exact Nat.lt_trans (Nat.lt_of_lt_of_le hi hlength) (by decide)

/-- The sample row is submitted to a ledger again, at any time. -/
theorem upsert_again_sample :
    ∃ n w', (Errand.upsert [sampleRow "ORDERS"]).run (sampleShop .ledger sampleTables) = (.ok n, w') ∧
      ∀ t, ∃ w'', (Errand.upsert [sampleRow "ORDERS"]).run (w'.turned t) = (.ok ⟨0, 0, 1⟩, w'') ∧
        w''.store.TellsAs w'.store := by
  have hstore : (sampleShop .ledger sampleTables).store = (Store.empty .ledger).after [] := rfl
  have hlegible : ∀ m ∈ (sampleShop .ledger sampleTables).made [sampleRow "ORDERS"], m.Legible :=
    legible_sampleShop (List.forall_mem_singleton.mpr rfl) (by decide)
  exact ⟨_, _, Prod.ext upsert_sampleRow rfl, (upsert_again hstore
    (fun _ => ⟨fun op hop => (by cases hop), hlegible⟩) (Prod.ext upsert_sampleRow rfl)).1.mp
      (List.pairwise_singleton _ _)⟩

/-- Rows of two tables with one key. -/
def sharingRows : List MappingRow :=
  let target : Table := ⟨Warehouse.stage, "", "dbo", "b"⟩
  [⟨.sourceToStage, ⟨Warehouse.erp, "", "dbo", "a\x00b"⟩, target, none, none, none⟩,
    ⟨.sourceToStage, ⟨Warehouse.erp, "", "dbo\x00a", "b"⟩, target, none, none, none⟩]

/-- Rows that share a slot take each other's place, and are not found unchanged when they are submitted
again at once. -/
theorem not_unchanged_of_shared_key : ∃ n w',
    (Errand.upsert sharingRows).run (sampleShop .ledger sharingTables) = (.ok n, w') ∧
      ∀ w'', (Errand.upsert sharingRows).run w' ≠ (.ok ⟨0, 0, sharingRows.length⟩, w'') := by
  let w := sampleShop .ledger sharingTables
  have hrows : checkedRows w.engine w.registry w.surroundings 0 [] sharingRows = .ok sharingRows := by
    decide +kernel
  have hresolved : sharingRows = sharingRows.map w.resolvedRow := (checkedRow_of_checkedRows hrows).1
  have hkeys : sharingRows.map (fun row => (w.resolvedRow row).key) =
      sharingRows.map MappingRow.key := by
    have hmap := congrArg (List.map MappingRow.key) hresolved.symm
    rwa [List.map_map] at hmap
  have hlegible : ∀ m ∈ w.made sharingRows, m.Legible := legible_sampleShop (by decide) (by decide)
  have hfits : ∀ k ∈ sharingRows.map MappingRow.key,
      (Ledger.slotKey k).utf8ByteSize ≤ Ledger.keyLimit := by
    decide
  -- the first submission succeeds, as all that it writes can be kept
  obtain ⟨n, s, hs⟩ : ∃ n s, w.store.upsertAll (w.made sharingRows) = (.ok n, s) := by
    refine (Store.readable_empty .ledger).exists_upsertAll fun m hm _ => ⟨hfits _ ?_, ?_⟩
    · rw [← hkeys, ← key_made]
      exact List.mem_map_of_mem hm
    · exact Slot.legible_holding (hlegible m hm)
  obtain ⟨haccepts, hlist⟩ := accepts_of_checkedRows hrows
  obtain ⟨clock, hrun⟩ := haccepts.run_eq hlist
  rw [hs] at hrun
  refine ⟨n, _, hrun, fun w'' hagain => ?_⟩
  have hstore : w.store = (Store.empty .ledger).after [] := rfl
  have hapart := apart_of_run_unchanged hstore (fun _ => ⟨fun op hop => (by cases hop), hlegible⟩)
    hrun (t := ⟨_, _⟩) hagain
  rw [hkeys] at hapart
  have hshares : Ledger.slotKey ⟨.sourceToStage, ⟨Warehouse.erp, "", "dbo", "a\x00b"⟩⟩ =
      Ledger.slotKey ⟨.sourceToStage, ⟨Warehouse.erp, "", "dbo\x00a", "b"⟩⟩ := by
    decide
  exact List.rel_of_pairwise_cons hapart (List.mem_singleton_self _) hshares

end World

end TierLineage
