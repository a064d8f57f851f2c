import TierLineage.Proofs.Catalog.Procedures
import TierLineage.Proofs.Service.Scheduler
import TierLineage.Proofs.Service.Sides
import TierLineage.Proofs.Store.Scalars

/-!
# Asking for procedures

What the visits of the commands about procedures find while nothing changes: the procedures of a
connection or the text of one of them.  A listing that is there is one of a registered connection
that answers, and so every procedure on it can be asked for by itself.  A command for a single
analysis runs the pool of its only call.
-/

namespace TierLineage

open TierLineage.Flight

/-- The call for the lineage of a procedure. -/
def Procedure.request (p : Procedure) : AnalysisRequest := ⟨p.identity, p.definition⟩

namespace Procedures

variable {e : Engine} {r : Registry} {s : Surroundings} {connection : String}
  {schema : Option String} {a : Alias} {ps : List Procedure} {i : ProcedureId}

/-! ### Listings -/

theorem steady_list (e : Engine) (r : Registry) (connection : String) (schema : Option String) :
    (list e r connection schema).Steady :=
  (Visit.steady_ofOutcome _).bind fun _ => (Visit.steady_call _ _ _ _).bind fun _ =>
    Visit.steady_pure _

/-- The procedures of a registered connection that answers are those that the catalog lists. -/
theorem found_list_eq_ok : (list e r connection schema).found s = .ok (a, ps) ↔
    (∃ c, r.resolve connection = .ok c ∧ c.name = a) ∧ Visit.Answers e.catalogTimeout a s ∧
      s.catalog.procedures a schema = .ok ps := by
  rw [list, (Visit.steady_ofOutcome _).found_bind fun _ => (Visit.steady_call _ _ _ _).bind fun _ =>
    Visit.steady_pure _, Visit.found_ofOutcome, bind_eq_ok]
  constructor
  · rintro ⟨c, hc, hlist⟩
    rw [(Visit.steady_call _ _ _ _).found_bind fun _ => Visit.steady_pure _, bind_eq_ok] at hlist
    obtain ⟨qs, hqs, heq⟩ := hlist
    cases heq
    exact ⟨⟨c, ok_of_mapError hc, rfl⟩, Visit.found_call_eq_ok_iff.mp hqs⟩
  · rintro ⟨⟨c, hc, rfl⟩, hcall⟩
    refine ⟨c, by rw [hc]; rfl, ?_⟩
    rw [(Visit.steady_call _ _ _ _).found_bind fun _ => Visit.steady_pure _, bind_eq_ok]
    exact ⟨ps, Visit.found_call_eq_ok_iff.mpr hcall, rfl⟩

/-- A plan that is made from a listing. -/
theorem steady_list_then (e : Engine) (r : Registry) (connection : String) (schema : Option String)
    (plan : Alias × List Procedure → Plan) :
    (list e r connection schema >>= fun x => Pure.pure (plan x)).Steady :=
  (steady_list e r connection schema).bind fun _ => Visit.steady_pure _

theorem found_list_then {x : Alias × List Procedure}
    (h : (list e r connection schema).found s = .ok x) (plan : Alias × List Procedure → Plan) :
    (list e r connection schema >>= fun x => Pure.pure (plan x)).found s = .ok (plan x) := by
  rw [(steady_list _ _ _ _).found_bind fun _ => Visit.steady_pure _, h]
  rfl

/-! ### One procedure -/

theorem steady_definition (e : Engine) (r : Registry) (i : ProcedureId) :
    (definition e r i).Steady :=
  (Visit.steady_ofOutcome _).bind fun _ => (Visit.steady_ofOutcome _).bind fun _ =>
    (Visit.steady_call _ _ _ _).bind fun _ => Visit.steady_pure _

/-- The text of a named procedure of a registered connection that answers is found. -/
theorem found_definition {c : Connection} {p : Procedure} (hc : r.resolve i.connection.name = .ok c)
    (hi : i.validate = .ok ()) (ha : Visit.Answers e.catalogTimeout i.connection s)
    (hp : s.catalog.procedure i = .ok p) : (definition e r i).found s = .ok ⟨i, p.definition⟩ := by
  rw [definition, (Visit.steady_ofOutcome _).found_bind fun _ =>
    (Visit.steady_ofOutcome _).bind fun _ => (Visit.steady_call _ _ _ _).bind fun _ =>
      Visit.steady_pure _, Visit.found_ofOutcome, hc]
  change (Visit.ofOutcome (i.validate.mapError .refused) >>= fun _ => _).found s = _
  rw [(Visit.steady_ofOutcome _).found_bind fun _ => (Visit.steady_call _ _ _ _).bind fun _ =>
    Visit.steady_pure _, Visit.found_ofOutcome, hi]
  change (Visit.call _ _ _ _ >>= fun _ => _).found s = _
  rw [(Visit.steady_call _ _ _ _).found_bind fun _ => Visit.steady_pure _,
    Visit.found_call_eq_ok_iff.mpr ⟨ha, hp⟩]
  rfl

end Procedures

/-! ### What is listed -/

/-- Whether a connection lists procedures, all of them or those of a schema. -/
def World.ListsProcedures (w : World) (connection : String) (schema : Option String) (a : Alias)
    (ps : List Procedure) : Prop :=
  (Procedures.list w.engine w.registry connection schema).found w.surroundings = .ok (a, ps)

namespace World.ListsProcedures

variable {w : World} {connection : String} {schema : Option String} {a : Alias}
  {ps : List Procedure} {p : Procedure} (hw : w.Regular)
  (hlist : w.ListsProcedures connection schema a ps)

include hlist

theorem answers : Visit.Answers w.engine.catalogTimeout a w.surroundings :=
  (Procedures.found_list_eq_ok.mp hlist).2.1

theorem procedures_eq : w.surroundings.catalog.procedures a schema = .ok ps :=
  (Procedures.found_list_eq_ok.mp hlist).2.2

include hw

/-- The connection that is listed is registered under its alias. -/
theorem exists_resolve : ∃ c, w.registry.resolve a.name = .ok c ∧ c.name = a := by
  obtain ⟨⟨c, hc, rfl⟩, -⟩ := Procedures.found_list_eq_ok.mp hlist
  exact ⟨c, Registry.resolve_name hw.named hc, rfl⟩

/-- The procedures are listed in the order of their names. -/
theorem sorted : ps.Pairwise fun p q => compare p.identity.name q.identity.name = .lt :=
  (hw.catalog.filed.procedures hlist.procedures_eq).1

theorem mem_iff : p ∈ ps ↔ w.surroundings.catalog.procedure ⟨a, p.identity.name⟩ = .ok p ∧
    (schema.all fun s => Text.sameStringIgnoringCase p.schema s) = true :=
  (hw.catalog.filed.procedures hlist.procedures_eq).2 p

/-- A procedure that is listed is one of the connection. -/
theorem identity_eq (hp : p ∈ ps) : p.identity = ⟨a, p.identity.name⟩ :=
  hw.catalog.filed.identity_eq ((hlist.mem_iff hw).mp hp).1

/-- A procedure that is listed is told of when it is asked for. -/
theorem procedure_eq (hp : p ∈ ps) : w.surroundings.catalog.procedure p.identity = .ok p := by
  rw [hlist.identity_eq hw hp]
  exact ((hlist.mem_iff hw).mp hp).1

/-- The calls for the procedures of a listing are about different ones. -/
theorem nodup_requests : ((ps.map (·.request)).map (·.identity)).Nodup := by
  rw [List.map_map]
  exact Catalog.nodup_identity (hlist.sorted hw)

end World.ListsProcedures

/-! ### Commands -/

namespace Command

/-- What a visit finds is found at some moment. -/
theorem exists_visit_eq {c : Command} {w : World} {x : Outcome Plan}
    (h : (c.visit w.engine w.registry).found w.surroundings = x)
    (hsteady : (c.visit w.engine w.registry).Steady) :
    ∃ moment, c.visit w.engine w.registry (fun _ => w.surroundings) w.clock = (x, moment) :=
  ⟨_, Prod.ext ((hsteady _ _).trans h) rfl⟩

theorem steady_analyze (e : Engine) (r : Registry) (connection name definition : String) :
    (visit e r (.analyze connection name definition)).Steady :=
  (Visit.steady_ofOutcome _).bind fun _ => (Visit.steady_ofOutcome _).bind fun _ =>
    Visit.steady_pure _

theorem steady_analyzeProcedure (e : Engine) (r : Registry) (connection name : String) :
    (visit e r (.analyzeProcedure connection name)).Steady :=
  (Visit.steady_ofOutcome _).bind fun _ => (Procedures.steady_definition e r _).bind fun _ =>
    Visit.steady_pure _

/-- The number of rounds leaves room for a call, and for the calls for all procedures of a
connection. -/
theorem le_rounds {w : World} {c : Command} {n : Nat}
    (h : n ≤ w.surroundings.catalog.connections.values.foldl (fun n h => n + h.procedures.size) 0 ∨
      n ≤ 1) : 6 * n + 3 ≤ rounds w [c] := by
  rw [rounds, List.length_singleton]
  omega

/-- A call for a text of a registered connection is planned. -/
theorem found_analyze (e : Engine) {r : Registry} {a : Alias} {c : Connection}
    (hc : r.resolve a.name = .ok c) (s : Surroundings) (name definition : String) :
    (visit e r (.analyze a.name name definition)).found s =
      .ok (askOne ⟨⟨a, name⟩, definition⟩) := by
  rw [visit, a.parse_name]
  change (Visit.ofOutcome ((r.resolve a.name).mapError .refused) >>= fun _ => Pure.pure _).found s = _
  rw [(Visit.steady_ofOutcome _).found_bind fun _ => Visit.steady_pure _, Visit.found_ofOutcome, hc]
  rfl

/-- A call for the current text of a procedure that is listed and has a name is planned. -/
theorem found_analyzeProcedure {w : World} (hw : w.Regular) {connection : String}
    {schema : Option String} {a : Alias} {ps : List Procedure} {p : Procedure}
    (hlist : w.ListsProcedures connection schema a ps) (hp : p ∈ ps)
    (hvalid : p.identity.validate = .ok ()) :
    (visit w.engine w.registry (.analyzeProcedure a.name p.identity.name)).found w.surroundings =
      .ok (askOne p.request) := by
  obtain ⟨c, hc, -⟩ := hlist.exists_resolve hw
  have hid := hlist.identity_eq hw hp
  have hdefinition := Procedures.found_definition (e := w.engine) (s := w.surroundings)
    (i := p.identity) (by rw [hid]; exact hc) hvalid (by rw [hid]; exact hlist.answers)
    (hlist.procedure_eq hw hp)
  have hvisit : visit w.engine w.registry (.analyzeProcedure a.name p.identity.name) =
      Procedures.definition w.engine w.registry p.identity >>= fun q => Pure.pure (askOne q) := by
    rw [visit, a.parse_name]
    change (Procedures.definition w.engine w.registry ⟨a, p.identity.name⟩ >>= _) = _
    rw [← hid]
  rw [hvisit, (Procedures.steady_definition _ _ _).found_bind fun _ => Visit.steady_pure _,
    hdefinition]
  rfl

end Command

/-! ### A single analysis -/

/-- The pool with which a plan begins.  A plan that acts at once has no calls. -/
def Plan.pool (d : Desk) : Plan → Pool
  | .act _ => .begun 0 [] (fun _ => .value .null) d
  | .ask width rs close => .begun width rs close d

/-- The pool of a call that is alone. -/
def World.alone (w : World) (r : AnalysisRequest) : Pool := (Command.askOne r).pool w.desk

/-- A call that is alone comes to its end. -/
theorem World.exists_finished_alone {w : World} (hquiet : w.desk.Quiet)
    (o : AnalysisRequest → Outcome Analysis) (r : AnalysisRequest) :
    ∃ τ, Pool.Run o (w.alone r) τ ∧ τ.Finished :=
  (Pool.orderly_begun hquiet 1 [r] _ o).exists_finished (List.nodup_singleton _) Nat.one_pos

/-- A call that is alone is answered as it is served. -/
theorem World.exists_settled_alone {w : World} (hquiet : w.desk.Quiet) {r : AnalysisRequest}
    {o : AnalysisRequest → Outcome Analysis} {τ : Pool} (hrun : Pool.Run o (w.alone r) τ)
    (hfinished : τ.Finished) : ∃ answer, τ.work.answered = [(r, answer r)] ∧
      τ.Settled w.desk.store w.desk.asked [r] o answer := by
  have hrs : ([r].map (·.identity)).Nodup := List.nodup_singleton _
  obtain ⟨answer, hsettled⟩ :=
    ((Pool.orderly_begun hquiet 1 [r] _ o).run hrs hrun).exists_settled hrs hfinished
  exact ⟨answer, List.perm_singleton.mp hsettled.answered, hsettled⟩

namespace Command

/-- A command for a single analysis replies what a call answers that is alone. -/
theorem run_of_askOne {w : World} {c : Command} {r : AnalysisRequest}
    (hfound : (c.visit w.engine w.registry).found w.surroundings = .ok (askOne r))
    (hsteady : (c.visit w.engine w.registry).Steady)
    (hquiet : w.desk.Quiet) (hnow : w.Dated) :
    ∃ o x τ a clock, (∀ r, w.MaySay r (o r)) ∧ Pool.Run o (w.alone r) τ ∧ τ.Finished ∧
      τ.work.answered = [(r, x)] ∧ run w c = (.of Finding.toJson x, w.later τ.desk a clock) := by
  obtain ⟨moment, hvisit⟩ := exists_visit_eq hfound hsteady
  obtain ⟨o, τ, a, clock, htells, hrun, hfinished, hreply⟩ := run_of_ask hvisit hquiet
    (List.nodup_singleton _) hnow Nat.one_pos (le_rounds (.inr (Nat.le_refl 1)))
  obtain ⟨answer, hx, -⟩ := World.exists_settled_alone hquiet hrun hfinished
  refine ⟨o, answer r, τ, a, clock, htells, hrun, hfinished, hx, ?_⟩
  rw [hreply, hx]

end Command

end TierLineage
