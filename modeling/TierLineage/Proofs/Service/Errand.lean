import TierLineage.Service.Command
import TierLineage.Proofs.Catalog.Steady

/-!
# Errands

An errand visits the catalogs and then acts on the service with what it found there.  A command that
is run alone does just this: the clock moves to the end of the visit, and the reply is what the act
answers, or why there was none.  So what is shown of errands is shown of commands.
-/

namespace TierLineage

/-- A visit to the catalogs, and what is done with what it found. -/
structure Errand (α : Type) where
  {Found : Type}
  visit : Engine → Registry → Visit Found
  act : World → Found → Outcome α × World

namespace Errand

variable {α : Type}

/-- Propose targets for the tables of one connection among those of another one. -/
def discover (source target : String) : Errand (List Mapping) where
  visit e r := Mappings.between e r source target
  act w found := (Mappings.propose w found.1 found.2).map .ok id

/-- Propose targets for all source tables of a hop. -/
def suggest (hop : Hop) : Errand Suggestions where
  visit e r := Mappings.gather e r hop
  act w found := (Mappings.propose w hop found.1).map (fun ms => .ok ⟨ms, found.2⟩) id

/-- Map all source tables of a hop. -/
def autoMap (hop : Hop) : Errand AutoMapReport where
  visit e r := Mappings.gather e r hop
  act w found := Mappings.autoMap w hop found.1 found.2

/-- Confirm a mapping. -/
def confirm (q : ConfirmRequest) : Errand Confirmation where
  visit e r := Mappings.checkRequest e r q
  act := Mappings.confirm

/-- Confirm a batch. -/
def upsert (rows : List MappingRow) : Errand BatchCount where
  visit e r := Mappings.checkBatch e r rows
  act := Mappings.upsert

/-- Run an errand while nothing else happens. -/
def run (q : Errand α) (w : World) : Outcome α × World :=
  let (found, moment) := q.visit w.engine w.registry (fun _ => w.surroundings) w.clock
  let w := { w with clock := max w.clock moment }
  match found with
  | .ok a => q.act w a
  | .error f => (.error f, w)

variable {q : Errand α} {w : World}

/-- An errand acts on what its visit tells, at some moment. -/
theorem exists_run_of_fst {a : q.Found}
    (ha : (q.visit w.engine w.registry (fun _ => w.surroundings) w.clock).1 = .ok a) :
    ∃ moment, q.run w = q.act { w with clock := moment } a := by
  refine ⟨max w.clock (q.visit w.engine w.registry (fun _ => w.surroundings) w.clock).2, ?_⟩
  rw [run, ← Prod.eta (q.visit w.engine w.registry (fun _ => w.surroundings) w.clock), ha]

/-- An errand whose visit tells nothing only lets time pass. -/
theorem exists_run_of_fst_error {f : Failure}
    (hf : (q.visit w.engine w.registry (fun _ => w.surroundings) w.clock).1 = .error f) :
    ∃ moment, q.run w = (.error f, { w with clock := moment }) := by
  refine ⟨max w.clock (q.visit w.engine w.registry (fun _ => w.surroundings) w.clock).2, ?_⟩
  rw [run, ← Prod.eta (q.visit w.engine w.registry (fun _ => w.surroundings) w.clock), hf]

/-- An errand acts on what its visit finds. -/
theorem exists_run_eq {a : q.Found} (hsteady : (q.visit w.engine w.registry).Steady)
    (ha : (q.visit w.engine w.registry).found w.surroundings = .ok a) :
    ∃ moment, q.run w = q.act { w with clock := moment } a :=
  exists_run_of_fst ((hsteady w.surroundings w.clock).trans ha)

/-- An errand whose visit fails only lets time pass. -/
theorem exists_run_eq_error {f : Failure} (hsteady : (q.visit w.engine w.registry).Steady)
    (hf : (q.visit w.engine w.registry).found w.surroundings = .error f) :
    ∃ moment, q.run w = (.error f, { w with clock := moment }) :=
  exists_run_of_fst_error ((hsteady w.surroundings w.clock).trans hf)

end Errand

/-! ### Commands that run alone -/

namespace Command

/-- Once a plan to act is followed, all is done. -/
theorem run_done (bound : Nat) (w : World) (r : Reply) :
    Schedule.run (bound + 1) w [.done r] = ([.done r], w) := rfl

/-- A visit is waited for. -/
theorem run_wait (bound : Nat) {w : World} {moment : Nat} (h : w.clock < moment) (plan : Plan) :
    Schedule.run (bound + 1) w [.visiting moment plan] =
      Schedule.run bound { w with clock := moment } [.visiting moment plan] := by
  have hwait : Schedule.advance w (.visiting moment plan) = (.visiting moment plan, w) := by
    rw [Schedule.advance, if_neg (Nat.not_le.mpr h)]
  have hclock : max w.clock moment = moment := Nat.max_eq_right (Nat.le_of_lt h)
  rw [Schedule.run]
  simp only [Schedule.advanceAll, List.foldl_cons, List.foldl_nil, hwait, List.nil_append,
    Schedule.restless, List.any_cons, List.any_nil, Bool.or_self, Bool.false_eq_true, if_false,
    List.flatMap_cons, List.flatMap_nil, Schedule.moments, List.append_nil, List.min?_singleton,
    hclock]

/-- A plan to act is followed when its visit ends. -/
theorem run_visiting (bound : Nat) {w : World} {moment : Nat} (h : w.clock < moment)
    (act : World → Reply × World) :
    Schedule.run (bound + 2) w [.visiting moment (.act act)] =
      ((act { w with clock := moment }).map (fun r => [.done r]) id) := by
  have hfollow : Schedule.advance { w with clock := moment } (.visiting moment (.act act)) =
      ((act { w with clock := moment }).map .done id) := by
    rw [Schedule.advance, if_pos (Nat.le_refl moment)]
    rfl
  rw [run_wait _ h, Schedule.run]
  simp only [Schedule.advanceAll, List.foldl_cons, List.foldl_nil, hfollow, List.nil_append,
    Prod.map_fst, Prod.map_snd, id, Schedule.restless, List.any_cons, List.any_nil, Bool.or_self,
    Bool.false_eq_true, if_false, List.flatMap_cons, List.flatMap_nil, Schedule.moments,
    List.append_nil, List.min?_nil]
  rfl

/-- The bound of the rounds leaves room for a wait and an act. -/
theorem exists_rounds_eq (w : World) (c : Command) : ∃ n, rounds w [c] = n + 2 := by
  refine ⟨rounds w [c] - 2, ?_⟩
  rw [rounds]
  omega

section Begun

variable {w v : World} {c : Command} {o : Outcome Plan} {moment : Nat}

/-- A command replies what its activity comes to. -/
theorem run_of_begun {b : Begun} {reply : Reply} {v' : World} (hbegun : begun w c = (b, v))
    (hrun : Schedule.run (rounds v [c]) v [b.activity v] = ([.done reply], v')) :
    run w c = (reply, v') := by
  simp only [run, runTogether, beginAll, List.foldl_cons, List.foldl_nil, hbegun, List.nil_append,
    List.map_cons, List.map_nil, hrun]
  rfl

variable (hvisit : c.visit w.engine w.registry (fun _ => w.surroundings) w.clock = (o, moment))

include hvisit

/-- A plan is followed at once if its visit takes no time. -/
theorem begun_of_le (h : moment ≤ w.clock) :
    begun w c = (Schedule.follow w (planOf o)).map .active id := by
  rw [begun, hvisit]
  simp only [h, if_true]
  rfl

theorem begun_of_lt (h : w.clock < moment) : begun w c = (.away c w.surroundings, w) := by
  rw [begun, hvisit]
  simp only [Nat.not_le.mpr h, if_false]

/-- The surroundings are the same before and after the commands have begun. -/
theorem activity_away :
    (Begun.away c w.surroundings).activity w = .visiting moment (planOf o) := by
  rw [Begun.activity]
  simp only [ite_self, hvisit]

/-- A command whose visit leads to an act runs the act when the visit has ended. -/
theorem run_of_visit {act : World → Reply × World} (hplan : planOf o = .act act) :
    run w c = act { w with clock := max w.clock moment } := by
  by_cases hmoment : moment ≤ w.clock
  · have hbegun : begun w c = (.active (.done (act w).1), (act w).2) := by
      rw [begun_of_le hvisit hmoment, hplan]
      rfl
    obtain ⟨n, hn⟩ := exists_rounds_eq (act w).2 c
    rw [Nat.max_eq_left hmoment]
    exact run_of_begun hbegun (by rw [hn]; exact run_done _ _ _)
  · have hlater : w.clock < moment := Nat.not_le.mp hmoment
    obtain ⟨n, hn⟩ := exists_rounds_eq w c
    rw [Nat.max_eq_right (Nat.le_of_lt hlater)]
    refine run_of_begun (begun_of_lt hvisit hlater) ?_
    rw [activity_away hvisit, hplan, hn, run_visiting n hlater]
    rfl

end Begun

/-- A command whose visit takes no time acts at once. -/
theorem run_now {w : World} {c : Command} {f : World → Reply × World}
    (hvisit : c.visit w.engine w.registry (fun _ => w.surroundings) w.clock =
      (.ok (.act f), w.clock)) : run w c = f w := by
  rw [run_of_visit hvisit rfl, Nat.max_self]

/-- A command for an errand replies what the errand answers. -/
theorem run_eq {α : Type} {c : Command} {q : Errand α} {write : α → Json}
    (hvisit : ∀ e r, c.visit e r = q.visit e r >>= fun found =>
      Pure.pure (doing write fun w => q.act w found)) (w : World) :
    run w c = (q.run w).map (Reply.of write) id := by
  cases hfound : q.visit w.engine w.registry (fun _ => w.surroundings) w.clock with
  | mk result moment =>
    have hbind : c.visit w.engine w.registry (fun _ => w.surroundings) w.clock =
        (result.map fun found => doing write fun w => q.act w found, moment) := by
      rw [hvisit]
      change Visit.bind _ _ _ _ = _
      rw [Visit.bind, hfound]
      cases result <;> rfl
    rw [Errand.run, hfound]
    cases result with
    | ok found => exact run_of_visit hbind rfl
    | error f => exact run_of_visit hbind rfl

theorem run_discover (w : World) (source target : String) :
    run w (.discover source target) =
      ((Errand.discover source target).run w).map (Reply.of (Json.listOf Mapping.toJson)) id :=
  run_eq (q := .discover source target) (fun _ _ => rfl) w

theorem run_suggest (w : World) (hop : Hop) :
    run w (.suggest hop) = ((Errand.suggest hop).run w).map (Reply.of Suggestions.toJson) id :=
  run_eq (q := .suggest hop) (fun _ _ => rfl) w

theorem run_autoMap (w : World) (hop : Hop) :
    run w (.autoMap hop) = ((Errand.autoMap hop).run w).map (Reply.of AutoMapReport.toJson) id :=
  run_eq (q := .autoMap hop) (fun _ _ => rfl) w

theorem run_confirm (w : World) (q : ConfirmRequest) :
    run w (.confirm q) = ((Errand.confirm q).run w).map (Reply.of Confirmation.toJson) id :=
  run_eq (q := .confirm q) (fun _ _ => rfl) w

theorem run_upsert (w : World) (rows : List MappingRow) :
    run w (.upsert rows) = ((Errand.upsert rows).run w).map (Reply.of BatchCount.toJson) id :=
  run_eq (q := .upsert rows) (fun _ _ => rfl) w

theorem run_delete (w : World) (k : SlotKey) : run w (.delete k) =
    (.of (fun b => .bool b) (w.store.delete k).1, w.withStore (w.store.delete k).2) :=
  run_now (f := fun v =>
    (.of (fun b => .bool b) (Mappings.delete v k).1, (Mappings.delete v k).2)) rfl

theorem run_listMappings (w : World) (hop : Hop) :
    run w (.listMappings hop) = (.of (Json.listOf Mapping.toJson) (w.store.confirmed hop), w) :=
  run_now (f := fun v => (.of (Json.listOf Mapping.toJson) (v.store.confirmed hop), v)) rfl

end Command

end TierLineage
