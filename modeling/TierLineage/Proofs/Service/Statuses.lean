import TierLineage.Proofs.Service.BulkReport
import TierLineage.Proofs.Store.Hashes

/-!
# Statuses tell what an analysis would do

The status of a procedure is told from one answer for its connection, by its name, and whether a call
for its lineage is served from the store from one record, by the procedure.  The two ways of reading
agree on every store that was built by operations: a procedure is up to date if and only if a call for
it is served without a question to the analyst, and not analyzed if and only if it has no record.  Once
a call was answered the procedure is up to date.
-/

namespace TierLineage

open TierLineage.Digest TierLineage.Flight

/-! ### One procedure -/

/-- The status of a text, told from the record of its procedure. -/
def Store.statusOf (s : Store) (r : AnalysisRequest) : Status :=
  .derive ((s.record? r.identity).toOption.join.map (·.definitionHash)) (contentHash r.definition)

namespace Store

variable {s : Store} {r : AnalysisRequest} {f : Record}

theorem statusOf_eq {o : Option Record} (h : s.record? r.identity = .ok o) :
    s.statusOf r = .derive (o.map (·.definitionHash)) (contentHash r.definition) := by
  rw [statusOf, h]
  rfl

/-- A text is not analyzed if its procedure has no record. -/
theorem statusOf_eq_notAnalyzed {o : Option Record} (h : s.record? r.identity = .ok o) :
    s.statusOf r = .notAnalyzed ↔ o = none := by
  rw [statusOf_eq h]
  cases o with
  | none => simp [Status.derive]
  | some f =>
    simp only [Option.map_some, Status.derive, reduceCtorEq, iff_false]
    split <;> exact nofun

/-- A text is up to date if there is a record of it. -/
theorem statusOf_eq_upToDate {o : Option Record} (h : s.record? r.identity = .ok o) :
    s.statusOf r = .upToDate ↔ ∃ f, s.recordFor r = .ok (some f) := by
  rw [statusOf_eq h, recordFor, h]
  cases o with
  | none => simp [Status.derive, Except.map]
  | some f =>
    by_cases hf : f.definitionHash = contentHash r.definition <;>
      simp [Status.derive, Except.map, hf]

end Store

namespace Flight

variable {s : Store} {r : AnalysisRequest} {o : Outcome Analysis} {now : Instant}

/-- A call for a procedure with a name is served from the store if there is a record of its text. -/
theorem serve_cached_iff (hvalid : r.identity.validate = .ok ()) :
    (∃ f, (serve s r o now).1 = .ok ⟨f, true⟩) ↔ ∃ f, s.recordFor r = .ok (some f) := by
  cases hrecord : s.recordFor r with
  | error e => simp [serve_of_unread hvalid hrecord]
  | ok found =>
    cases found with
    | some f => simp [serve_of_found hvalid hrecord]
    | none =>
      have hmisses : Misses s r := ⟨hvalid, hrecord⟩
      refine iff_of_false ?_ (by simp)
      rintro ⟨f, hf⟩
      cases o with
      | error e =>
        rw [hmisses.serve_failed] at hf
        cases hf
      | ok a =>
        rw [hmisses.serve_analyzed] at hf
        cases hput : (s.putRecord (Desk.recordOf r a now)).1 <;> rw [hput] at hf <;> cases hf

/-- The statuses of the procedures of a connection are told from their records. -/
theorem Desk.statuses_eq {d : Desk} (hkeyed : d.store.Keyed) (hrecorded : d.store.Recorded)
    {a : Alias} {ps : List Procedure} (hps : ∀ p ∈ ps, p.identity = ⟨a, p.identity.name⟩) :
    d.statuses a ps = .ok (ps.map fun p => (p, d.store.statusOf p.request)) := by
  obtain ⟨hashes, hhashes, hlookup⟩ := Store.exists_lookup_hashesOf hkeyed hrecorded a
  rw [statuses, hhashes]
  refine congrArg Except.ok (List.map_congr_left fun p hp => ?_)
  obtain ⟨o, ho, heq⟩ := hlookup p.identity.name
  rw [← hps p hp] at ho
  rw [heq, Store.statusOf_eq (r := p.request) ho]
  rfl

end Flight

/-! ### The map of statuses -/

namespace Procedures

/-- Under the names of other procedures nothing changes. -/
theorem getElem?_foldl_insert_of_ne {ss : List ProcedureStatus} {name : String}
    (h : name ∉ ss.map (·.name)) (m : Std.TreeMap String Status) :
    (ss.foldl (fun m s => m.insert s.name s.status) m)[name]? = m[name]? := by
  induction ss generalizing m with
  | nil => rfl
  | cons t ss ih =>
    rw [List.foldl_cons, ih (List.not_mem_of_not_mem_cons h), getElem?_insert_eq,
      if_neg (List.ne_of_not_mem_cons h)]

/-- Of procedures with different names every one has its status in the map. -/
theorem getElem?_statusMap {ss : List ProcedureStatus} (h : (ss.map (·.name)).Nodup)
    {s : ProcedureStatus} (hs : s ∈ ss) : (statusMap ss)[s.name]? = some s.status := by
  rw [statusMap]
  generalize (∅ : Std.TreeMap String Status) = m
  induction ss generalizing m with
  | nil => cases hs
  | cons t ss ih =>
    obtain ⟨ht, h⟩ := List.nodup_cons.mp h
    rcases List.mem_cons.mp hs with rfl | hs
    · rw [List.foldl_cons, getElem?_foldl_insert_of_ne ht, getElem?_insert_eq, if_pos rfl]
    · exact ih h hs _

end Procedures

/-! ### What the service shows -/

/-- A command that looks at the state replies what it sees there, and only lets time pass. -/
theorem Command.exists_run_tell {α : Type} {w : World} {c : Command} {write : α → Json}
    {look : World → Outcome α}
    (hfound : (c.visit w.engine w.registry).found w.surroundings = .ok (tell write look))
    (hsteady : (c.visit w.engine w.registry).Steady) :
    ∃ clock, run w c = (.of write (look { w with clock := clock }), { w with clock := clock }) := by
  obtain ⟨moment, hvisit⟩ := exists_visit_eq hfound hsteady
  have hplan : planOf (.ok (tell write look)) = .act fun w => (.of write (look w), w) := rfl
  refine ⟨max w.clock moment, ?_⟩
  rw [run_of_visit hvisit hplan]

namespace World

/-- Whether a service has the connections, settings, surroundings and desk of another one. -/
structure Unchanged (w v : World) : Prop where
  registry : v.registry = w.registry
  engine : v.engine = w.engine
  surroundings : v.surroundings = w.surroundings
  desk : v.desk = w.desk

/-- Whether a service tells the statuses of the procedures of a listing, in a list and by name, and is
left unchanged by that. -/
structure Shows (w : World) (connection : String) (schema : Option String) (ps : List Procedure)
    (status : Procedure → Status) : Prop where
  listed : ∃ v, Command.run w (.listProcedures connection schema) =
    (.value (Json.listOf ProcedureStatus.toJson
      (ps.map fun p => ⟨p.identity.name, p.schema, status p⟩)), v) ∧ w.Unchanged v
  mapped : ∃ m v, Command.run w (.statusMap connection) =
    (.value (Procedures.statusMapJson m), v) ∧ w.Unchanged v ∧
      ∀ p ∈ ps, m[p.identity.name]? = some (status p)

variable {w v : World} {connection : String} {schema : Option String} {a : Alias}
  {ps : List Procedure} {p : Procedure}

theorem Unchanged.regular (h : w.Unchanged v) (hw : w.Regular) : v.Regular where
  registry := h.registry ▸ hw.registry
  catalog := h.surroundings ▸ hw.catalog

theorem Unchanged.lists (h : w.Unchanged v) (hlist : w.ListsProcedures connection schema a ps) :
    v.ListsProcedures connection schema a ps := by
  rw [ListsProcedures, h.engine, h.registry, h.surroundings]
  exact hlist

/-- What is listed of a schema is listed of all schemas. -/
theorem ListsProcedures.exists_all (hw : w.Regular)
    (hlist : w.ListsProcedures connection schema a ps) :
    ∃ qs, w.ListsProcedures connection none a qs ∧ ∀ p ∈ ps, p ∈ qs := by
  obtain ⟨hc, hanswers, hprocedures⟩ := Procedures.found_list_eq_ok.mp hlist
  obtain ⟨k, hk, -⟩ := bind_eq_ok.mp hprocedures
  have hall : w.ListsProcedures connection none a (k.procedures.values.filter fun _ => true) :=
    Procedures.found_list_eq_ok.mpr ⟨hc, hanswers, by rw [Catalog.procedures, hk]; rfl⟩
  exact ⟨_, hall, fun p hp =>
    (hall.mem_iff hw).mpr ⟨((hlist.mem_iff hw).mp hp).1, rfl⟩⟩

/-- The statuses that the service tells are those of the records. -/
theorem shows_statusOf (hw : w.Regular) (hkeyed : w.store.Keyed) (hrecorded : w.store.Recorded)
    (hlist : w.ListsProcedures connection schema a ps) :
    w.Shows connection schema ps fun p => w.store.statusOf p.request := by
  have hstatuses : ∀ {schema : Option String} {ps : List Procedure},
      w.ListsProcedures connection schema a ps → Procedures.statuses w.desk a ps =
        .ok (ps.map fun p => ⟨p.identity.name, p.schema, w.store.statusOf p.request⟩) := by
    intro schema ps hlist
    rw [Procedures.statuses, Desk.statuses_eq hkeyed hrecorded fun p hp => hlist.identity_eq hw hp]
    exact congrArg Except.ok (List.map_map ..)
  constructor
  · have hfound : (Command.visit w.engine w.registry (.listProcedures connection schema)).found
        w.surroundings = .ok (Command.tell (Json.listOf ProcedureStatus.toJson)
          fun w => Procedures.statuses w.desk a ps) :=
      Procedures.found_list_then hlist _
    obtain ⟨clock, hrun⟩ := Command.exists_run_tell hfound (Procedures.steady_list_then _ _ _ _ _)
    dsimp only at hrun
    rw [hstatuses hlist] at hrun
    exact ⟨_, hrun, rfl, rfl, rfl, rfl⟩
  · obtain ⟨qs, hall, hsub⟩ := hlist.exists_all hw
    have hfound : (Command.visit w.engine w.registry (.statusMap connection)).found
        w.surroundings = .ok (Command.tell
          (fun s => Procedures.statusMapJson (Procedures.statusMap s))
          fun w => Procedures.statuses w.desk a qs) :=
      Procedures.found_list_then hall _
    obtain ⟨clock, hrun⟩ := Command.exists_run_tell hfound (Procedures.steady_list_then _ _ _ _ _)
    dsimp only at hrun
    rw [hstatuses hall] at hrun
    -- the map is built by name, and no two procedures of a connection share theirs
    have hnames : ((qs.map fun p => (⟨p.identity.name, p.schema, w.store.statusOf p.request⟩ :
        ProcedureStatus)).map (·.name)).Nodup := by
      rw [List.map_map]
      refine List.pairwise_map.mpr ((hall.sorted hw).imp fun {p q} hlt heq => ?_)
      have hname : p.identity.name = q.identity.name := heq
      rw [hname] at hlt
      exact Std.OrientedCmp.not_lt_of_lt hlt hlt
    refine ⟨_, _, hrun, ⟨rfl, rfl, rfl, rfl⟩, fun p hp => ?_⟩
    exact Procedures.getElem?_statusMap hnames (List.mem_map_of_mem (hsub p hp))

end World

/-! ### What an analysis does -/

namespace Pool.Settled

variable {s : Store} {asked : List AnalysisRequest} {r : AnalysisRequest}
  {o : AnalysisRequest → Outcome Analysis} {answer : AnalysisRequest → Outcome Finding} {τ : Pool}
  (h : τ.Settled s asked [r] o answer) (hvalid : r.identity.validate = .ok ())

include h hvalid

/-- A call is served from the store if there is a record of its text. -/
theorem cached_iff : (∃ f, answer r = .ok ⟨f, true⟩) ↔ ∃ f, s.recordFor r = .ok (some f) := by
  obtain ⟨now, hserved⟩ := h.served r (List.mem_singleton_self r)
  rw [hserved]
  exact serve_cached_iff hvalid

omit hvalid in
/-- The analyst is not asked about a text that there is a record of. -/
theorem asked_eq {f : Record} (hf : s.recordFor r = .ok (some f)) : τ.desk.asked = asked := by
  obtain ⟨new, hasked, hnew⟩ := h.asked
  have hnone : new = [] := List.eq_nil_iff_forall_not_mem.mpr fun q hq => by
    obtain ⟨hmem, hmissing⟩ := hnew q hq
    rw [List.mem_singleton.mp hmem, hf] at hmissing
    cases hmissing
  rw [hasked, hnone, List.nil_append]

/-- A text is up to date if a call is served from the store without a question to the analyst. -/
theorem upToDate_iff {x : Option Record} (hx : s.record? r.identity = .ok x) :
    s.statusOf r = .upToDate ↔ (∃ f, answer r = .ok ⟨f, true⟩) ∧ τ.desk.asked = asked := by
  have hcached := h.cached_iff hvalid
  rw [Store.statusOf_eq_upToDate hx]
  constructor
  · rintro ⟨f, hf⟩
    exact ⟨hcached.mpr ⟨f, hf⟩, h.asked_eq hf⟩
  · exact fun hserved => hcached.mp hserved.1

/-- Once a call was answered there is a record of its text. -/
theorem statusOf_eq_upToDate {x : Option Record} (hx : s.record? r.identity = .ok x) {f : Finding}
    (hf : answer r = .ok f) : τ.desk.store.statusOf r = .upToDate := by
  have hr := List.mem_singleton_self r
  obtain ⟨f, cached⟩ := f
  cases cached with
  | false =>
    obtain ⟨now, hserved⟩ := h.served r hr
    obtain ⟨-, a, -, rfl⟩ := misses_of_serve (hserved.symm.trans hf)
    rw [Store.statusOf_eq (h.saved r hr _ hf)]
    simp [Status.derive, Desk.recordOf]
  | true =>
    -- nothing was written, so that the record is the one that was there
    have hkept : τ.desk.store.record? r.identity = s.record? r.identity :=
      h.kept r.identity fun q hq _ f' hf' => by
        rw [List.mem_singleton.mp hq, hf] at hf'
        cases hf'
    have hfor : τ.desk.store.recordFor r = s.recordFor r := by
      rw [Store.recordFor, Store.recordFor, hkept]
    rw [Store.statusOf_eq_upToDate (hkept.trans hx), hfor]
    exact (h.cached_iff hvalid).mp ⟨f, hf⟩

omit hvalid in
theorem keyed (hs : s.Keyed) : τ.desk.store.Keyed := by
  obtain ⟨fs, hfs, -⟩ := h.written
  rw [hfs]
  exact hs.after _

omit hvalid in
/-- What the answers left in the store can be read. -/
theorem recorded (hs : s.Recorded) : τ.desk.store.Recorded := by
  obtain ⟨fs, hfs, hholds, -⟩ := h.written
  rw [hfs]
  refine hs.after fun hb op hop => ?_
  obtain ⟨f, hf, rfl⟩ := List.mem_map.mp hop
  have hfits : s.backend.Holds f := hholds f hf
  rw [hb] at hfits
  exact hfits.2

end Pool.Settled

namespace Command

/-- The record of a procedure of a registered connection is told. -/
theorem exists_run_record {w : World} {a : Alias} {c : Connection}
    (hc : w.registry.resolve a.name = .ok c) (name : String) : ∃ clock,
      run w (.record a.name name) =
        (.of (Json.opt Record.toJson) (w.store.record? ⟨a, name⟩), { w with clock := clock }) := by
  have hfound : (visit w.engine w.registry (.record a.name name)).found w.surroundings =
      .ok (tell (Json.opt Record.toJson) fun w => Procedures.record? w ⟨a, name⟩) := by
    rw [visit, a.parse_name]
    rfl
  obtain ⟨clock, hrun⟩ := exists_run_tell hfound
    ((Visit.steady_ofOutcome _).bind fun _ => Visit.steady_pure _)
  refine ⟨clock, ?_⟩
  rw [hrun, Procedures.record?]
  dsimp only
  rw [hc]
  rfl

/-- A call for the current text of a procedure is answered as one that is alone. -/
theorem exists_run_analyzeProcedure {w : World} (hw : w.Regular) (hquiet : w.desk.Quiet)
    (hnow : w.Dated) {connection : String} {schema : Option String} {a : Alias}
    {ps : List Procedure} {p : Procedure} (hlist : w.ListsProcedures connection schema a ps)
    (hp : p ∈ ps) (hvalid : p.identity.validate = .ok ()) :
    ∃ (o : AnalysisRequest → Outcome Analysis) (answer : AnalysisRequest → Outcome Finding) (τ : Pool)
        (analyst : Analyst) (clock : Nat),
      run w (.analyzeProcedure a.name p.identity.name) =
        (.of Finding.toJson (answer p.request), w.later τ.desk analyst clock) ∧
      τ.Settled w.desk.store w.desk.asked [p.request] o answer := by
  obtain ⟨o, x, τ, analyst, clock, -, hrun, hfinished, hanswered, hreply⟩ :=
    run_of_askOne (found_analyzeProcedure hw hlist hp hvalid) (steady_analyzeProcedure _ _ _ _)
      hquiet hnow
  obtain ⟨answer, hanswered', hsettled⟩ := World.exists_settled_alone hquiet hrun hfinished
  cases hanswered.symm.trans hanswered'
  exact ⟨o, answer, τ, analyst, clock, hreply, hsettled⟩

end Command

namespace World

variable {w : World} {connection : String} {schema : Option String} {a : Alias}
  {ps : List Procedure}

/-- **Statuses and the store agree.**  On every store that was built by operations the service tells
of each named procedure of a listing that it is not analyzed if and only if it has no record, that it
is up to date if and only if a call for its lineage that comes next is served from the store without
a question to the analyst, and that it is outdated otherwise.  After a call that was answered it is up
to date. -/
theorem status_agrees (hw : w.Regular) (hquiet : w.desk.Quiet) {b : Backend} {ops : List Operation}
    (hstore : w.store = (Store.empty b).after ops) (hdated : b = .ledger → ∀ op ∈ ops, op.Dated)
    (hlist : w.ListsProcedures connection schema a ps) :
    ∃ status, w.Shows connection schema ps status ∧
      ∀ p ∈ ps, p.identity.validate = .ok () → ∀ v, w.Unchanged v → v.Dated → ∃ o x v₁ v₂,
        Command.run v (.record a.name p.identity.name) =
            (.value (Json.opt Record.toJson o), v₁) ∧
          Command.run v (.analyzeProcedure a.name p.identity.name) =
            (.of Finding.toJson x, v₂) ∧
          (status p = .notAnalyzed ↔ o = none) ∧
          (status p = .upToDate ↔ (∃ f, x = .ok ⟨f, true⟩) ∧ v₂.desk.asked = v.desk.asked) ∧
          (status p = .outdated ↔ o ≠ none ∧
            ¬ ((∃ f, x = .ok ⟨f, true⟩) ∧ v₂.desk.asked = v.desk.asked)) ∧
          ∀ f, x = .ok f → ∀ v', v₂.Unchanged v' →
            ∃ status', v'.Shows connection schema ps status' ∧ status' p = .upToDate := by
  have hkeyed : w.store.Keyed := hstore ▸ Store.keyed_after b ops
  have hrecorded : w.store.Recorded := hstore ▸ Store.recorded_after b hdated
  refine ⟨_, shows_statusOf hw hkeyed hrecorded hlist, fun p hp hvalid v hv hnow => ?_⟩
  have hsame : v.store = w.store := congrArg Desk.store hv.desk
  have hw' := hv.regular hw
  have hlist' := hv.lists hlist
  obtain ⟨c, hc, -⟩ := hlist'.exists_resolve hw'
  obtain ⟨o, ho⟩ := hrecorded.exists_record? p.identity
  obtain ⟨clock₁, hrecord⟩ := Command.exists_run_record hc p.identity.name
  obtain ⟨said, answer, τ, analyst, clock₂, hanalyze, hsettled⟩ :=
    Command.exists_run_analyzeProcedure hw' (hv.desk ▸ hquiet) hnow hlist' hp hvalid
  rw [← hlist'.identity_eq hw' hp, hsame, ho] at hrecord
  have hnotAnalyzed := Store.statusOf_eq_notAnalyzed (r := p.request) ho
  have ho' : v.desk.store.record? p.request.identity = .ok o := by
    rw [hv.desk]
    exact ho
  have hupToDate : w.store.statusOf p.request = .upToDate ↔
      (∃ f, answer p.request = .ok ⟨f, true⟩) ∧
        (v.later τ.desk analyst clock₂).desk.asked = v.desk.asked := by
    rw [← hsame]
    exact hsettled.upToDate_iff hvalid ho'
  refine ⟨o, answer p.request, _, _, hrecord, hanalyze, hnotAnalyzed, hupToDate, ?_,
    fun f hf v' hv' => ?_⟩
  · rw [ne_eq, ← hnotAnalyzed, ← hupToDate]
    cases w.store.statusOf p.request <;> simp
  · have hstore' : v'.store = τ.desk.store := congrArg Desk.store hv'.desk
    have hkeyed' : v'.store.Keyed := hstore' ▸ hsettled.keyed (hv.desk ▸ hkeyed)
    have hrecorded' : v'.store.Recorded := hstore' ▸ hsettled.recorded (hv.desk ▸ hrecorded)
    have hregular : v'.Regular := hv'.regular ⟨hw'.registry, hw'.catalog⟩
    refine ⟨_, shows_statusOf hregular hkeyed' hrecorded' (hv'.lists hlist'), ?_⟩
    rw [hstore']
    exact hsettled.statusOf_eq_upToDate hvalid ho' hf

/-- A procedure that was never analyzed, and a call for it. -/
theorem status_agrees_sample : ∃ status,
    (lineageShop .ledger sampleProcedures []).Shows "erp" none sampleProcedures status ∧
      ∃ x v, Command.run (lineageShop .ledger sampleProcedures [])
          (.analyzeProcedure "erp" "extract") = (.of Finding.toJson x, v) ∧
        (status (sampleProcedure "extract") = .upToDate ↔
          (∃ f, x = .ok ⟨f, true⟩) ∧ v.desk.asked = []) ∧
        ∀ f, x = .ok f → ∀ v', v.Unchanged v' → ∃ status',
          v'.Shows "erp" none sampleProcedures status' ∧
            status' (sampleProcedure "extract") = .upToDate := by
  have hlist : (lineageShop .ledger sampleProcedures []).ListsProcedures "erp" none Warehouse.erp
      sampleProcedures :=
    Procedures.found_list_eq_ok.mpr ⟨⟨_, rfl, rfl⟩, ⟨rfl, rfl⟩, by decide +kernel⟩
  have hstore : (lineageShop .ledger sampleProcedures []).store =
      (Store.empty .ledger).after [] := rfl
  obtain ⟨status, hshows, hagrees⟩ :=
    status_agrees (regular_lineageShop .ledger sampleProcedures []) (Desk.quiet_empty _ _) hstore
      (fun _ => List.forall_mem_nil _) hlist
  have hvalid : (sampleProcedure "extract").identity.validate = .ok () := by decide
  obtain ⟨o, x, v₁, v₂, -, hanalyze, -, hupToDate, -, hnext⟩ :=
    hagrees (sampleProcedure "extract") List.mem_cons_self hvalid
      (lineageShop .ledger sampleProcedures []) ⟨rfl, rfl, rfl, rfl⟩
      (dated_lineageShop .ledger sampleProcedures [])
  exact ⟨status, hshows, x, v₂, hanalyze, hupToDate, hnext⟩

end World

end TierLineage
