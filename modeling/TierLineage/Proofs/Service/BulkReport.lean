import TierLineage.Proofs.Config.Bounds
import TierLineage.Proofs.Service.Procedures
import TierLineage.Sample.Warehouse

/-!
# Procedures analyzed all at once

All procedures of a listing are analyzed side by side, a few at a time, and it is left open which
of them goes on next.  Each is answered as if it were alone, so that one that fails or takes too long
makes no difference to another, and neither the report nor the store tells in which order they came
to their ends.
-/

namespace TierLineage

open TierLineage.Flight

/-! ### Results in order -/

namespace ProcedureResult

@[simp] theorem name_ofFinding (i : ProcedureId) (x : Outcome Finding) : (ofFinding i x).name = i.name := by
  cases x <;> rfl

@[simp] theorem succeeded_ofFinding (i : ProcedureId) (x : Outcome Finding) :
    (ofFinding i x).succeeded = x.isOk := by
  cases x <;> rfl

@[simp] theorem isCached_ofFinding (i : ProcedureId) (x : Outcome Finding) :
    (ofFinding i x).isCached = x.toOption.any (·.cached) := by
  cases x <;> rfl

@[simp] theorem isFallback_ofFinding (i : ProcedureId) (x : Outcome Finding) :
    (ofFinding i x).isFallback = x.toOption.any (·.record.fallback) := by
  cases x <;> rfl

/-- What becomes of a procedure does not depend on when its record is stored. -/
theorem ofFinding_serve (s : Store) (r : AnalysisRequest) (o : Outcome Analysis)
    (now now' : Instant) : ofFinding r.identity (serve s r o now).1 =
      ofFinding r.identity (serve s r o now').1 := by
  unfold serve
  split
  · rfl
  · split
    · rfl
    · rfl
    · split
      · rfl
      · next a =>
        have hput := Store.putRecord_fst_congr (s := s) (t := s) (f := Desk.recordOf r a now)
          (g := Desk.recordOf r a now') rfl rfl
        dsimp only
        rw [hput]
        cases (s.putRecord (Desk.recordOf r a now')).1 <;> rfl

end ProcedureResult

namespace BulkReport

variable {a : Alias} {schema : Option String} {ps : List Procedure}
  {answer : Procedure → Outcome Finding}

theorem le_total (x y : ProcedureResult) :
    ((compare x.name y.name).isLE || (compare y.name x.name).isLE) = true := by
  cases h : compare x.name y.name with
  | lt => rfl
  | eq => rfl
  | gt =>
    rw [Std.OrientedCmp.gt_iff_lt.mp h]
    rfl

/-- Results of procedures with different names have one order only. -/
theorem results_of (hsorted : ps.Pairwise fun p q => compare p.identity.name q.identity.name = .lt)
    {xs : List ProcedureResult} (h : xs.Perm (ps.map fun p => .ofFinding p.identity (answer p))) :
    (BulkReport.of a schema xs).results = ps.map fun p => .ofFinding p.identity (answer p) := by
  have hpairwise : (ps.map fun p => ProcedureResult.ofFinding p.identity (answer p)).Pairwise
      fun x y => compare x.name y.name = .lt := by
    refine List.pairwise_map.mpr (hsorted.imp fun {p q} hlt => ?_)
    simpa only [ProcedureResult.name_ofFinding] using hlt
  have hnames : ((ps.map fun p => ProcedureResult.ofFinding p.identity (answer p)).map
      (·.name)).Nodup :=
    List.pairwise_map.mpr (hpairwise.imp fun {x y} hlt heq => by simp [heq] at hlt)
  have hle : (BulkReport.of a schema xs).results.Pairwise
      fun x y => (compare x.name y.name).isLE = true :=
    List.pairwise_mergeSort (fun x y z => Std.TransCmp.isLE_trans) le_total xs
  -- two lists with the same members are the same if both are in an order without ties
  refine List.Perm.eq_of_pairwise (fun x y hx hy hle hle' => ?_) hle ?_
    ((List.mergeSort_perm _ _).trans h)
  · refine List.inj_on_of_nodup_map hnames (h.subset (List.mem_mergeSort.mp hx)) hy ?_
    exact Std.LawfulEqOrd.eq_of_compare (Std.OrientedCmp.isLE_antisymm hle hle')
  · exact hpairwise.imp fun {x y} hlt => by rw [hlt]; rfl

/-- The data of a report, told from the answers for the procedures in the order of their names. -/
def data (a : Alias) (schema : Option String) (ps : List Procedure)
    (answer : Procedure → Outcome Finding) : Json :=
  Json.obj [("connection_alias", a.toJson), ("schema", Json.opt Json.str schema),
    ("total", Json.nat ps.length),
    ("succeeded", Json.nat (ps.countP fun p => (answer p).isOk)),
    ("failed", Json.nat (ps.countP fun p => !(answer p).isOk)),
    ("cached_count", Json.nat (ps.countP fun p => (answer p).toOption.any (·.cached))),
    ("fallback_count", Json.nat (ps.countP fun p => (answer p).toOption.any (·.record.fallback))),
    ("results", Json.listOf ProcedureResult.toJson
      (ps.map fun p => .ofFinding p.identity (answer p)))]

theorem toJson_of (hsorted : ps.Pairwise fun p q => compare p.identity.name q.identity.name = .lt)
    {xs : List ProcedureResult} (h : xs.Perm (ps.map fun p => .ofFinding p.identity (answer p))) :
    (BulkReport.of a schema xs).toJson = data a schema ps answer := by
  rw [toJson, results_of hsorted h, data, List.length_map]
  simp only [List.countP_map, Function.comp_def, ProcedureResult.succeeded_ofFinding,
    ProcedureResult.isCached_ofFinding, ProcedureResult.isFallback_ofFinding]
  rfl

end BulkReport

/-! ### Any order -/

namespace World

/-- The pool of the calls for all procedures of a listing. -/
def bulk (w : World) (a : Alias) (schema : Option String) (ps : List Procedure) : Pool :=
  (Command.askMany w.engine a schema ps).pool w.desk

/-- Whether a bulk analysis has come to an end at which every procedure is answered as if it were
alone. -/
structure Isolates (w : World) (o : AnalysisRequest → Outcome Analysis) (a : Alias)
    (schema : Option String) (ps : List Procedure) (τ : Pool)
    (answer : Procedure → Outcome Finding) : Prop where
  /-- The report counts and lists the answers by name. -/
  reply : τ.work.close τ.work.answered = .value (BulkReport.data a schema ps answer)
  /-- Every procedure has succeeded or failed. -/
  total : ps.length = ps.countP (fun p => (answer p).isOk) + ps.countP fun p => !(answer p).isOk
  /-- A call that is alone comes to an end, and whenever it does it leads to the same entry if the same
  was said of its text. -/
  alone : ∀ p ∈ ps, (∃ τ', Pool.Run o (w.alone p.request) τ' ∧ τ'.Finished) ∧
    ∀ o' τ', o' p.request = o p.request → Pool.Run o' (w.alone p.request) τ' → τ'.Finished →
      ∃ x, τ'.work.answered = [(p.request, x)] ∧
        ProcedureResult.ofFinding p.identity x = .ofFinding p.identity (answer p)
  /-- A new record is that of the analysis. -/
  fresh : ∀ p ∈ ps, ∀ f, answer p = .ok ⟨f, false⟩ →
    ∃ x now, o p.request = .ok x ∧ f = Desk.recordOf p.request x now
  /-- The new records are stored. -/
  saved : ∀ p ∈ ps, ∀ f, answer p = .ok ⟨f, false⟩ →
    τ.desk.store.record? p.identity = .ok (some f)
  /-- No other record has changed. -/
  kept : ∀ i, (∀ p ∈ ps, p.identity = i → ∀ f, answer p ≠ .ok ⟨f, false⟩) →
    τ.desk.store.record? i = w.store.record? i
  /-- Nothing but the new records was written. -/
  written : ∃ fs, τ.desk.store = w.store.afterRecords fs ∧
    ∀ f, f ∈ fs ↔ ∃ p ∈ ps, answer p = .ok ⟨f, false⟩

variable {w : World} {a : Alias} {schema : Option String} {ps : List Procedure}
  {o : AnalysisRequest → Outcome Analysis} {τ : Pool}

/-- Whatever the order, a bulk analysis of different procedures comes to such an end. -/
theorem exists_isolates (hquiet : w.desk.Quiet)
    (hsorted : ps.Pairwise fun p q => compare p.identity.name q.identity.name = .lt)
    (hrs : ((ps.map (·.request)).map (·.identity)).Nodup)
    (hrun : Pool.Run o (w.bulk a schema ps) τ) (hfinished : τ.Finished) :
    ∃ answer, w.Isolates o a schema ps τ answer := by
  obtain ⟨answer, hsettled⟩ :=
    ((Pool.orderly_begun hquiet _ _ _ o).run hrs hrun).exists_settled hrs hfinished
  have hserved : ∀ p ∈ ps, ∃ now,
      answer p.request = (serve w.desk.store p.request (o p.request) now).1 := fun p hp =>
    hsettled.served _ (List.mem_map_of_mem hp)
  refine ⟨fun p => answer p.request, ?_, ?_,
    fun p hp => ⟨exists_finished_alone hquiet o p.request, fun o' τ' hsame hrun' hfinished' => ?_⟩,
    fun p hp f hf => ?_, fun p hp f hf => ?_, fun i hi => ?_, ?_⟩
  · -- the answers were taken in some order, and are sorted by name for the report
    rw [(Pool.fixed_of_run hrun).2]
    refine congrArg Reply.value (BulkReport.toJson_of hsorted ?_)
    have hperm := hsettled.answered.map fun x => ProcedureResult.ofFinding x.1.identity x.2
    rw [List.map_map, List.map_map] at hperm
    exact hperm
  · simpa using List.length_eq_countP_add_countP (fun p => (answer p.request).isOk) (l := ps)
  · -- both answers are served from the store as it was, if at different moments
    obtain ⟨answer', hanswered, hsettled'⟩ := exists_settled_alone hquiet hrun' hfinished'
    obtain ⟨now, hnow⟩ := hserved p hp
    obtain ⟨now', hnow'⟩ := hsettled'.served _ (List.mem_singleton_self _)
    refine ⟨_, hanswered, ?_⟩
    rw [hnow, hnow', hsame]
    exact ProcedureResult.ofFinding_serve w.desk.store p.request _ now' now
  · obtain ⟨now, hnow⟩ := hserved p hp
    obtain ⟨-, x, hx, rfl⟩ := misses_of_serve (hnow.symm.trans hf)
    exact ⟨x, now, hx, rfl⟩
  · exact hsettled.saved _ (List.mem_map_of_mem hp) f hf
  · exact hsettled.kept i (List.forall_mem_map.mpr hi)
  · obtain ⟨fs, hstore, -, hfs⟩ := hsettled.written
    refine ⟨fs, hstore, fun f => (hfs f).trans ?_⟩
    simp only [List.mem_map, exists_exists_and_eq_and]

/-- Whether the service answers a call that is alone, if something is said of its text. -/
def AnswersAlone (w : World) (r : AnalysisRequest) (y : Outcome Analysis) (x : Outcome Finding) : Prop :=
  ∃ o τ, o r = y ∧ Pool.Run o (w.alone r) τ ∧ τ.Finished ∧ τ.work.answered = [(r, x)]

/-- **A bulk analysis isolates failures.**  Whatever comes of each analysis, however many of them are
under way at a time and in whatever order they come to their ends: a bulk analysis can be brought to
its end, and then every procedure of the listing is reported once, in the order of the names, with
what a call for it alone would have come to, and the new records are all that was written.  The
service itself brings it to such an end, by what its analyst may say of each text.  A call that the
service runs alone leads to the same entry if the same is said of its text; a request to a model may be
too late in one of them and not in the other, and to all other analysts this does not happen. -/
theorem bulkAnalyze_isolates (hw : w.Regular) (hvalid : w.engine.validate = .ok ())
    (hquiet : w.desk.Quiet) {connection : String} (hlist : w.ListsProcedures connection schema a ps) :
    (ps.Pairwise (fun p q => compare p.identity.name q.identity.name = .lt) ∧
      ∀ p, p ∈ ps ↔ w.surroundings.catalog.procedure ⟨a, p.identity.name⟩ = .ok p ∧
        (schema.all fun s => Text.sameStringIgnoringCase p.schema s) = true) ∧
    (∀ o σ, Pool.Run o (w.bulk a schema ps) σ → ∃ τ, Pool.Run o σ τ ∧ τ.Finished) ∧
    (∀ o τ, Pool.Run o (w.bulk a schema ps) τ → τ.Finished →
      ∃ answer, w.Isolates o a schema ps τ answer) ∧
    (w.Dated → ∃ o τ answer analyst clock, (∀ r, w.MaySay r (o r)) ∧
      Pool.Run o (w.bulk a schema ps) τ ∧ w.Isolates o a schema ps τ answer ∧
      Command.run w (.bulkAnalyze connection schema) =
        (.value (BulkReport.data a schema ps answer), w.later τ.desk analyst clock) ∧
      ∀ p ∈ ps, ∃ x y w', Command.run w (.analyze a.name p.identity.name p.definition) =
          (.of Finding.toJson x, w') ∧ w.MaySay p.request y ∧ w.AnswersAlone p.request y x ∧
        (y = o p.request → ProcedureResult.ofFinding p.identity x = .ofFinding p.identity (answer p)) ∧
        ((∀ l, w.analyst ≠ .model l) → y = o p.request)) := by
  have hsorted := hlist.sorted hw
  have hrs := hlist.nodup_requests hw
  have hwidth : 0 < w.engine.workerPoolSize :=
    Nat.pos_of_ne_zero (Engine.validate_eq_ok.mp hvalid).workerPoolSize
  refine ⟨⟨hsorted, fun p => hlist.mem_iff hw⟩, fun o σ hrun => ?_,
    fun o τ hrun hfinished => exists_isolates hquiet hsorted hrs hrun hfinished, fun hnow => ?_⟩
  · have hσ := (Pool.orderly_begun hquiet _ _ _ o).run hrs hrun
    exact hσ.exists_finished hrs (by rw [(Pool.fixed_of_run hrun).1]; exact hwidth)
  · have hfound : (Command.visit w.engine w.registry (.bulkAnalyze connection schema)).found
        w.surroundings = .ok (Command.askMany w.engine a schema ps) :=
      Procedures.found_list_then hlist _
    obtain ⟨moment, hvisit⟩ :=
      Command.exists_visit_eq hfound (Procedures.steady_list_then _ _ _ _ _)
    have hbound : 6 * (ps.map (·.request)).length + 3 ≤
        Command.rounds w [.bulkAnalyze connection schema] := by
      rw [List.length_map]
      exact Command.le_rounds (.inl (Catalog.length_procedures_le hlist.procedures_eq))
    obtain ⟨o, τ, analyst, clock, htells, hrun, hfinished, hreply⟩ :=
      Command.run_of_ask hvisit hquiet hrs hnow hwidth hbound
    obtain ⟨answer, hisolates⟩ := exists_isolates hquiet hsorted hrs hrun hfinished
    refine ⟨o, τ, answer, analyst, clock, htells, hrun, hisolates, ?_, fun p hp => ?_⟩
    · rw [hreply, ← hisolates.reply, (Pool.fixed_of_run hrun).2]
      rfl
    · obtain ⟨c, hc, -⟩ := hlist.exists_resolve hw
      have hone := Command.found_analyze w.engine hc w.surroundings p.identity.name p.definition
      rw [← hlist.identity_eq hw hp] at hone
      obtain ⟨o', x, τ', analyst', clock', htells', hrun', hfinished', hanswered, hreply'⟩ :=
        Command.run_of_askOne hone (Command.steady_analyze _ _ _ _ _) hquiet hnow
      refine ⟨x, o' p.request, _, hreply', htells' _, ⟨o', τ', rfl, hrun', hfinished', hanswered⟩,
        fun hsame => ?_, fun hplain => (htells' _).unique hplain (htells _)⟩
      obtain ⟨y, hy, hentry⟩ := (hisolates.alone p hp).2 o' τ' hsame hrun' hfinished'
      cases hanswered.symm.trans hy
      exact hentry

/-! ### Samples -/

/-- A procedure of the sample source connection. -/
def sampleProcedure (name : String) : Procedure :=
  ⟨⟨Warehouse.erp, name⟩, "etl", "CREATE PROCEDURE etl." ++ name ++ " AS SELECT 1"⟩

/-- A service with a source connection, procedures on it, and an analyst who fails for some. -/
def lineageShop (b : Backend) (ps : List Procedure) (failing : List String) : World :=
  .idle ⟨(∅ : Std.TreeMap String Connection).insert "erp" (.plain Warehouse.erp .source)⟩ .standard
    (ps.foldl .insertProcedure .empty) (.empty b) (.scripted ⟨5, failing, []⟩) ⟨0, ⟨0, 0⟩⟩

theorem regular_lineageShop (b : Backend) (ps : List Procedure) (failing : List String) :
    (lineageShop b ps failing).Regular where
  registry := ⟨[.plain Warehouse.erp .source], rfl⟩
  catalog := by
    have hfold : ∀ {c : Catalog}, c.Static → (ps.foldl Catalog.insertProcedure c).Static := by
      induction ps with
      | nil => exact fun hc => hc
      | cons p ps ih => exact fun hc => ih (hc.insertProcedure p)
    exact hfold .empty

theorem dated_lineageShop (b : Backend) (ps : List Procedure) (failing : List String) :
    (lineageShop b ps failing).Dated := fun _ => Instant.valid_zero

/-- Two procedures, one of which the analyst may fail for. -/
def sampleProcedures : List Procedure := [sampleProcedure "extract", sampleProcedure "load"]

/-- The analyst fails for one of two procedures. -/
theorem bulkAnalyze_isolates_sample : ∃ o τ answer analyst clock,
    (lineageShop .ledger sampleProcedures ["load"]).Isolates o Warehouse.erp none sampleProcedures τ
        answer ∧
      Command.run (lineageShop .ledger sampleProcedures ["load"]) (.bulkAnalyze "erp" none) =
        (.value (BulkReport.data Warehouse.erp none sampleProcedures answer),
          (lineageShop .ledger sampleProcedures ["load"]).later τ.desk analyst clock) := by
  have hlist : (lineageShop .ledger sampleProcedures ["load"]).ListsProcedures "erp" none
      Warehouse.erp sampleProcedures :=
    Procedures.found_list_eq_ok.mpr ⟨⟨_, rfl, rfl⟩, ⟨rfl, rfl⟩, by decide +kernel⟩
  obtain ⟨-, -, -, hservice⟩ :=
    bulkAnalyze_isolates (regular_lineageShop .ledger sampleProcedures ["load"])
      (by decide +kernel) (Desk.quiet_empty _ _) hlist
  obtain ⟨o, τ, answer, analyst, clock, -, -, hisolates, hreply, -⟩ :=
    hservice (dated_lineageShop .ledger sampleProcedures ["load"])
  exact ⟨o, τ, answer, analyst, clock, hisolates, hreply⟩

/-- The sample service with a model in place of the scripted analyst, which takes 15 requests in a
minute and is never reached. -/
def modelShop (ps : List Procedure) : World :=
  let client := (Model.Client.ofKey "sk-test" 15).withBase "no address"
  { lineageShop .memory ps [] with
    analyst := .model (.start ⟨client, "gpt-4o", 2000, "Unknown."⟩ fun _ => none) }

/-- Of three requests at one time the second and the third wait for one interval, both the same one. -/
example : (Command.run (modelShop (sampleProcedures ++ [sampleProcedure "publish"]))
    (.bulkAnalyze "erp" none)).2.clock = 4000 := by
  decide +kernel

end World

end TierLineage
