import TierLineage.Proofs.Service.Analysts
import TierLineage.Proofs.Service.Errand
import TierLineage.Proofs.Service.Foresight

/-!
# The scheduler runs pools to their end

What the scheduler does with calls that belong together are moves of their pool, in an order of its
own: it lets every live call go as far as it can, takes the answers, starts waiting calls, and lets
the clock move on when none of this is possible.  How long the analyst takes is found out on the way,
for a request to a model waits for others.  But whatever a call waits for, there is a moment at which
it is concluded.  So every round in which some call can go on leaves fewer moves ahead, every other one
leads to a moment at which some call can, and the bound of the rounds is not reached.
-/

namespace TierLineage

open TierLineage.Flight TierLineage.Schedule

namespace World

/-- The pool of a piece of work. -/
def pool (w : World) (k : Work) : Pool := ⟨k, w.desk⟩

/-- The service with another desk and analyst at another moment. -/
def later (w : World) (d : Desk) (a : Analyst) (clock : Nat) : World :=
  { w with desk := d, analyst := a, clock := clock }

/-- Whether what is stored now is of a moment that dates can have, where that makes a difference. -/
def Dated (w : World) : Prop := w.desk.store.backend = .ledger → w.supply.now.Valid

end World

namespace Schedule

variable {v w : World} {k k' : Work} {s : Store} {asked rs : List AnalysisRequest}
  {r : AnalysisRequest} {t : Ticket} {d : Desk} {p : Phase} {e : Event} {σ : Pool}

/-! ### On the way -/

/-- How far the service has come on its way from a moment, with calls whose pool was then some other
one: only the desk, the analyst and the clock have changed, and the pool is reached by moves. -/
structure Arrived (v : World) (σ : Pool) (w : World) (k : Work) : Prop where
  world : w = v.later w.desk w.analyst w.clock
  answers : w.analyst.AnswersAs v.analyst
  reached : Pool.Reached v.MaySay σ (w.pool k)

/-- Whether some live call can go on now. -/
def Ready (w : World) (k : Work) : Prop := ∃ x ∈ k.live, nextEvent? w x.2 ≠ none

namespace Arrived

theorem refl (v : World) (k : Work) : Arrived v (v.pool k) v k where
  world := rfl
  answers := .refl _
  reached := ⟨fun r => (conclusion v 0 r 0).2, fun r => v.maySay_conclusion 0 r 0, .refl⟩

variable (h : Arrived v σ w k)

include h

theorem engine_eq : w.engine = v.engine := by rw [h.world]; rfl

theorem supply_eq : w.supply = v.supply := by rw [h.world]; rfl

/-- The same may be said as in the beginning. -/
theorem maySay {x : Outcome Analysis} (hx : w.MaySay r x) : v.MaySay r x := by
  obtain ⟨time, htime, rfl⟩ := hx
  refine ⟨time, by rwa [← h.answers.mayTake], ?_⟩
  rw [tooLate, tooLate, h.engine_eq, h.answers.answer]

/-- The desk and the analyst change. -/
theorem next {d : Desk} {a : Analyst} (htells : a.AnswersAs w.analyst)
    (hreached : Pool.Reached v.MaySay σ ⟨k', d⟩) :
    Arrived v σ { w with desk := d, analyst := a } k' where
  world := by
    conv_lhs => rw [h.world]
    rfl
  answers := htells.trans h.answers
  reached := hreached

/-- The clock moves on. -/
theorem wait (clock : Nat) : Arrived v σ { w with clock := clock } k where
  world := by
    conv_lhs => rw [h.world]
    rfl
  answers := h.answers
  reached := h.reached

end Arrived

/-! ### One call -/

/-- A call waits for the analyst until the analyst is ready or has taken too long. -/
theorem nextEvent?_of_analyzing {l : LockId} {since : Nat}
    (h : w.desk.calls[t]? = some ⟨r, .analyzing l since⟩)
    (hready : (conclusion w t r since).1 ≤ w.clock) :
    nextEvent? w t = some (.conclude t (conclusion w t r since).2) := by
  simp only [nextEvent?, h, hready, if_true]

/-- What the scheduler lets happen to a live call is a move of its pool. -/
theorem fits_of_nextEvent? (hnow : w.Dated) (hcall : w.desk.calls[t]? = some ⟨r, p⟩)
    (h : nextEvent? w t = some e) :
    e.ticket = t ∧ e.fits p = true ∧ (∀ u, e ≠ .drop u) ∧
      (∀ u x, e = .conclude u x → w.MaySay r x) ∧ w.desk.store.backend.Admits (.happen e) := by
  have hadmits : ∀ e : Event, (∀ u now, e = .save u now → now = w.supply.now) →
      w.desk.store.backend.Admits (.happen e) := by
    intro e he
    cases hb : w.desk.store.backend with
    | memory => trivial
    | ledger =>
      cases e with
      | save u now =>
        rw [he u now rfl]
        exact hnow hb
      | _ => trivial
  simp only [nextEvent?, hcall] at h
  cases p with
  | fresh =>
    cases h
    exact ⟨rfl, rfl, nofun, nofun, hadmits _ nofun⟩
  | holding l =>
    cases h
    exact ⟨rfl, rfl, nofun, nofun, hadmits _ nofun⟩
  | analyzing l since =>
    dsimp only at h
    split at h
    · cases h
      refine ⟨rfl, rfl, nofun, fun u x hu => ?_, hadmits _ nofun⟩
      cases hu
      exact w.maySay_conclusion t r since
    · cases h
  | storing l a =>
    cases h
    refine ⟨rfl, rfl, nofun, nofun, hadmits _ fun u x hu => ?_⟩
    cases hu
    rfl
  | queued l => cases h
  | done x => cases h
  | dropped => cases h

section Moves

variable (hσ : ∀ o, σ.Orderly s asked rs o) (hrs : (rs.map (·.identity)).Nodup)
  (hnow : s.backend = .ledger → v.supply.now.Valid) (h : Arrived v σ w k)

include hσ hrs hnow h

/-- What is stored stays of a moment that dates can have. -/
theorem Arrived.dated : w.Dated := by
  obtain ⟨o, horderly⟩ := h.reached.exists_orderly hσ hrs
  intro hb
  rw [h.supply_eq]
  exact hnow (horderly.backend_eq.symm.trans hb)

/-- A live call goes on by one event. -/
theorem Arrived.stepCall (hlive : (r, t) ∈ k.live) (hnext : nextEvent? w t ≠ none) :
    Arrived v σ (stepCall w t) k ∧ ((stepCall w t).pool k).left < (w.pool k).left := by
  obtain ⟨e, he⟩ := Option.ne_none_iff_exists'.mp hnext
  obtain ⟨o, horderly⟩ := h.reached.exists_orderly hσ hrs
  obtain ⟨p, hcall, -⟩ := horderly.calls hlive
  obtain ⟨rfl, hfits, hdrop, htells, hadmits⟩ :=
    fits_of_nextEvent? (h.dated hσ hrs hnow) hcall he
  obtain ⟨hreached, hleft⟩ := h.reached.happen hσ hrs hlive hcall hfits hdrop
    (fun t x hx => h.maySay (htells t x hx)) hadmits
  rw [Schedule.stepCall, he]
  exact ⟨h.next (answersAs_attend w _ _) hreached, hleft⟩

omit hσ hrs hnow h in
/-- A call to which nothing can happen stays as it is. -/
theorem stepCall_eq_self (hnext : nextEvent? w t = none) : stepCall w t = w := by
  rw [stepCall, hnext]

omit hσ hrs hnow h in
theorem advanceCall_eq_self (hnext : nextEvent? w t = none) : advanceCall w t = w := by
  have hstep := stepCall_eq_self hnext
  rw [advanceCall]
  exact List.foldl_fixed' (fun _ => hstep) _

/-- A call that is stepped again and again does not go back. -/
theorem Arrived.stepCalls {α : Type} (hlive : (r, t) ∈ k.live) (xs : List α) :
    Arrived v σ (xs.foldl (fun w _ => Schedule.stepCall w t) w) k ∧
      ((xs.foldl (fun w _ => Schedule.stepCall w t) w).pool k).left ≤ (w.pool k).left := by
  induction xs generalizing w with
  | nil => exact ⟨h, Nat.le_refl _⟩
  | cons x xs ih =>
    rw [List.foldl_cons]
    by_cases hnext : nextEvent? w t = none
    · rw [stepCall_eq_self hnext]
      exact ih h
    · obtain ⟨hstep, hlt⟩ := h.stepCall hσ hrs hnow hlive hnext
      exact (ih hstep).imp_right fun hle => hle.trans hlt.le

/-- A call that can go on and is let go as far as it can comes nearer to its answer. -/
theorem Arrived.advanceCall (hlive : (r, t) ∈ k.live) (hnext : nextEvent? w t ≠ none) :
    Arrived v σ (advanceCall w t) k ∧ ((advanceCall w t).pool k).left < (w.pool k).left := by
  obtain ⟨hstep, hlt⟩ := h.stepCall hσ hrs hnow hlive hnext
  rw [Schedule.advanceCall, show List.range phases = 0 :: List.range' 1 5 from rfl, List.foldl_cons]
  exact (hstep.stepCalls hσ hrs hnow hlive _).imp_right fun hle => hle.trans_lt hlt

/-! ### Rounds -/

/-- Calls are let go one after the other; if one of them can go on now, fewer moves are ahead. -/
theorem Arrived.advanceCalls {xs : List (AnalysisRequest × Ticket)} (hxs : ∀ x ∈ xs, x ∈ k.live) :
    Arrived v σ (xs.foldl (fun w x => Schedule.advanceCall w x.2) w) k ∧
      ((xs.foldl (fun w x => Schedule.advanceCall w x.2) w).pool k).left ≤ (w.pool k).left ∧
      ((∃ x ∈ xs, nextEvent? w x.2 ≠ none) →
        ((xs.foldl (fun w x => Schedule.advanceCall w x.2) w).pool k).left < (w.pool k).left) := by
  -- as long as no call can go on the service stays as it is
  induction xs generalizing w with
  | nil => exact ⟨h, Nat.le_refl _, fun ⟨x, hx, _⟩ => absurd hx List.not_mem_nil⟩
  | cons x xs ih =>
    obtain ⟨r, t⟩ := x
    obtain ⟨hlive, hxs⟩ := List.forall_mem_cons.mp hxs
    rw [List.foldl_cons]
    by_cases hnext : nextEvent? w t = none
    · rw [advanceCall_eq_self hnext]
      obtain ⟨harrived, hle, hlt⟩ := ih h hxs
      refine ⟨harrived, hle, fun ⟨y, hy, hready⟩ => hlt ⟨y, ?_, hready⟩⟩
      refine (List.mem_cons.mp hy).resolve_left ?_
      rintro rfl
      exact hready hnext
    · obtain ⟨hfirst, hlt⟩ := h.advanceCall hσ hrs hnow hlive hnext
      obtain ⟨harrived, hle, -⟩ := ih hfirst hxs
      exact ⟨harrived, hle.trans hlt.le, fun _ => hle.trans_lt hlt⟩

omit hσ hrs hnow h in
theorem answer?_congr {d d' : Desk} (h : d'.calls[t]? = d.calls[t]?) : d'.answer? t = d.answer? t := by
  rw [Desk.answer?, Desk.answer?, h]

/-- Take the answer of a live call, if it has one. -/
def collectOne (x : Work × World) (y : AnalysisRequest × Ticket) : Work × World :=
  match x.2.desk.answer? y.2 with
  | some a =>
    ({ x.1 with answered := x.1.answered ++ [(y.1, a)] },
      { x.2 with desk := x.2.desk.forget y.2 })
  | none => ({ x.1 with live := x.1.live ++ [y] }, x.2)

/-- Start a waiting call. -/
def refillOne (x : Work × World) (r : AnalysisRequest) : Work × World :=
  ({ x.1 with live := x.1.live ++ [(r, x.2.desk.nextTicket)] },
    { x.2 with desk := (x.2.desk.submit r).2 })

omit hnow h in
/-- The answers of calls are taken one after the other; the calls that stay live have none. -/
theorem Arrived.collects (xs : List (AnalysisRequest × Ticket))
    (h : Arrived v σ w { k with live := k.live ++ xs }) :
    ∃ k' w', xs.foldl collectOne (k, w) = (k', w') ∧ Arrived v σ w' k' ∧
      (w'.pool k').left ≤ (w.pool { k with live := k.live ++ xs }).left ∧
      k'.waiting = k.waiting ∧ ∀ x ∈ k'.live, x ∈ k.live ++ xs ∧
        w'.desk.calls[x.2]? = w.desk.calls[x.2]? ∧ (x ∈ k.live ∨ w'.desk.answer? x.2 = none) := by
  -- the live calls of `k` are those that were looked at, and `xs` are still to be looked at
  induction xs generalizing k w with
  | nil =>
    rw [List.append_nil] at h ⊢
    exact ⟨k, w, rfl, h, Nat.le_refl _, rfl, fun x hx => ⟨hx, rfl, .inl hx⟩⟩
  | cons x xs ih =>
    cases hanswer : w.desk.answer? x.2 with
    | none =>
      have hone : collectOne (k, w) x = ({ k with live := k.live ++ [x] }, w) := by
        simp only [collectOne, hanswer]
      have hsame : k.live ++ x :: xs = (k.live ++ [x]) ++ xs := List.append_cons ..
      rw [hsame] at h ⊢
      obtain ⟨k', w', hfold, harrived, hle, hwaiting, hkept⟩ :=
        ih (k := { k with live := k.live ++ [x] }) h
      refine ⟨k', w', by rw [List.foldl_cons, hone, hfold], harrived, hle, hwaiting, fun y hy => ?_⟩
      obtain ⟨hmem, hcalls, hold | hnone⟩ := hkept y hy
      · refine ⟨hmem, hcalls, (List.mem_append.mp hold).imp_right fun h => ?_⟩
        rw [answer?_congr hcalls, List.mem_singleton.mp h]
        exact hanswer
      · exact ⟨hmem, hcalls, .inr hnone⟩
    | some a =>
      have hone : collectOne (k, w) x = ({ k with answered := k.answered ++ [(x.1, a)] },
          { w with desk := w.desk.forget x.2 }) := by
        simp only [collectOne, hanswer]
      obtain ⟨hreached, hlt⟩ := h.reached.move hσ hrs
        (τ := ⟨{ k with live := k.live ++ xs, answered := k.answered ++ [(x.1, a)] },
          w.desk.forget x.2⟩) fun o => .collect rfl hanswer
      have hnext := h.next (.refl _) hreached
      obtain ⟨k', w', hfold, harrived, hle, hwaiting, hkept⟩ :=
        ih (k := { k with answered := k.answered ++ [(x.1, a)] }) hnext
      refine ⟨k', w', by rw [List.foldl_cons, hone, hfold], harrived, hle.trans hlt.le, hwaiting,
        fun y hy => ?_⟩
      obtain ⟨hmem, hcalls, hkept⟩ := hkept y hy
      refine ⟨(List.mem_append.mp hmem).elim (List.mem_append_left _)
        fun h => List.mem_append_right _ (List.mem_cons_of_mem _ h), ?_, hkept⟩
      -- the call that is forgotten is not live any more
      obtain ⟨o, horderly⟩ := hnext.reached.exists_orderly hσ hrs
      obtain ⟨p, hp, -⟩ := horderly.calls (r := y.1) (t := y.2) hmem
      have hne : y.2 ≠ x.2 := fun heq => by
        have hp' : (w.desk.forget x.2).calls[y.2]? = some ⟨y.1, p⟩ := hp
        rw [Desk.calls_forget, if_pos heq] at hp'
        cases hp'
      have hforget : (w.desk.forget x.2).calls[y.2]? = w.desk.calls[y.2]? := by
        rw [Desk.calls_forget, if_neg hne]
      exact hcalls.trans hforget

omit hnow in
/-- All answers are taken that there are. -/
theorem Arrived.collect : ∃ k' w', collect w k = (k', w') ∧ Arrived v σ w' k' ∧
    (w'.pool k').left ≤ (w.pool k).left ∧ k'.waiting = k.waiting ∧
      ∀ x ∈ k'.live, w'.desk.answer? x.2 = none := by
  obtain ⟨k', w', hfold, harrived, hle, hwaiting, hkept⟩ :=
    Arrived.collects (k := { k with live := [] }) hσ hrs k.live h
  refine ⟨k', w', hfold, harrived, hle, hwaiting, fun x hx => ?_⟩
  exact (hkept x hx).2.2.resolve_left List.not_mem_nil

omit hnow h in
/-- Waiting calls start one after the other while there is room. -/
theorem Arrived.refills (ys : List AnalysisRequest) (hroom : k.live.length + ys.length ≤ k.width)
    (h : Arrived v σ w { k with waiting := ys ++ k.waiting }) :
    ∃ k' w', ys.foldl refillOne (k, w) = (k', w') ∧ k'.waiting = k.waiting ∧ Arrived v σ w' k' ∧
      (w'.pool k').left ≤ (w.pool { k with waiting := ys ++ k.waiting }).left := by
  induction ys generalizing k w with
  | nil => exact ⟨k, w, rfl, rfl, h, Nat.le_refl _⟩
  | cons r ys ih =>
    rw [List.length_cons] at hroom
    obtain ⟨hreached, hlt⟩ := h.reached.move hσ hrs
      (τ := ⟨{ k with
        live := k.live ++ [(r, w.desk.nextTicket)]
        waiting := ys ++ k.waiting }, (w.desk.submit r).2⟩)
      fun o => .start (k := { k with waiting := r :: ys ++ k.waiting }) (by dsimp only; omega) rfl
    obtain ⟨k', w', hfold, hwaiting, harrived, hle⟩ :=
      ih (k := { k with live := k.live ++ [(r, w.desk.nextTicket)] }) (by simp; omega)
        (h.next (.refl _) hreached)
    exact ⟨k', w', hfold, hwaiting, harrived, hle.trans hlt.le⟩

omit hnow in
/-- Calls start, or none waits or there is no room for one. -/
theorem Arrived.refill : ∃ k' w', refill w k = (k', w') ∧ Arrived v σ w' k' ∧
    (w'.pool k').left ≤ (w.pool k).left ∧ (k'.waiting.length < k.waiting.length ∨
      k' = k ∧ w' = w ∧ (k.waiting = [] ∨ k.width ≤ k.live.length)) := by
  by_cases hfull : k.waiting = [] ∨ k.width ≤ k.live.length
  · have hnone : k.waiting.take (k.width - k.live.length) = [] ∧
        k.waiting.drop (k.width - k.live.length) = k.waiting := by
      rcases hfull with hnil | hle
      · simp [hnil]
      · simp [Nat.sub_eq_zero_of_le hle]
    refine ⟨k, w, ?_, h, Nat.le_refl _, .inr ⟨rfl, rfl, hfull⟩⟩
    simp only [Schedule.refill, hnone, List.foldl_nil]
  · obtain ⟨hwaiting, hroom⟩ := not_or.mp hfull
    have hpos := List.length_pos_iff.mpr hwaiting
    have hsplit := List.take_append_drop (k.width - k.live.length) k.waiting
    obtain ⟨k', w', hfold, hrest, harrived, hle⟩ :=
      Arrived.refills (k := { k with waiting := k.waiting.drop (k.width - k.live.length) }) hσ hrs
        (k.waiting.take (k.width - k.live.length)) (by simp; omega) (by rw [hsplit]; exact h)
    rw [hsplit] at hle
    refine ⟨k', w', hfold, harrived, hle, .inl ?_⟩
    rw [hrest, List.length_drop]
    omega

/-- Whether all that can be done at once for calls that belong together was done: no answer is left to
be taken, and no call can start. -/
structure Tidy (w : World) (k : Work) : Prop where
  unanswered : ∀ x ∈ k.live, w.desk.answer? x.2 = none
  full : k.waiting = [] ∨ k.width ≤ k.live.length

/-- Calls are let go, their answers are taken and others started until none can start; if one of the
live calls can go on now, fewer moves are ahead. -/
theorem Arrived.advanceWork {bound : Nat} (hbound : k.waiting.length < bound) :
    ∃ k' w', advanceWork bound w k = (k', w') ∧ Arrived v σ w' k' ∧
      (w'.pool k').left ≤ (w.pool k).left ∧ (Ready w k → (w'.pool k').left < (w.pool k).left) ∧
      Tidy w' k' := by
  -- it goes on only if a waiting call has started, so that fewer wait at the next turn
  induction bound generalizing w k with
  | zero => exact absurd hbound (Nat.not_lt_zero _)
  | succ bound ih =>
    obtain ⟨h₁, hle₁, hlt₁⟩ := h.advanceCalls hσ hrs hnow fun x (hx : x ∈ k.live) => hx
    obtain ⟨k₂, w₂, hcollect, h₂, hle₂, hwaiting₂, hunanswered⟩ := h₁.collect hσ hrs
    obtain ⟨k₃, w₃, hrefill, h₃, hle₃, hstarted⟩ := h₂.refill hσ hrs
    have hunfold : Schedule.advanceWork (bound + 1) w k =
        if k₃.waiting.length < k₂.waiting.length then Schedule.advanceWork bound w₃ k₃
        else (k₃, w₃) := by
      rw [Schedule.advanceWork]
      dsimp only
      rw [hcollect]
      dsimp only
      rw [hrefill]
    rw [hunfold]
    rcases hstarted with hlt | ⟨rfl, rfl, hfull⟩
    · rw [if_pos hlt]
      rw [hwaiting₂] at hlt
      obtain ⟨k', w', hadvance, harrived, hle, -, htidy⟩ := ih h₃ (by omega)
      exact ⟨k', w', hadvance, harrived, hle.trans (hle₃.trans (hle₂.trans hle₁)),
        fun hready => (hle.trans (hle₃.trans hle₂)).trans_lt (hlt₁ hready), htidy⟩
    · rw [if_neg (Nat.lt_irrefl _)]
      exact ⟨_, _, rfl, h₃, hle₂.trans hle₁, fun hready => hle₂.trans_lt (hlt₁ hready),
        hunanswered, hfull⟩

omit hσ hrs hnow h in
/-- Moves change neither the room for calls nor what is made of their answers. -/
theorem Arrived.fixed (h : Arrived v σ w k) :
    k.width = σ.work.width ∧ k.close = σ.work.close := by
  obtain ⟨o, -, hrun⟩ := h.reached
  exact Pool.fixed_of_run hrun

/-- Calls that belong together are let go as far as they can; a reply is given if all are answered. -/
theorem Arrived.settle (hwidth : 0 < σ.work.width) :
    ∃ k' w', Arrived v σ w' k' ∧ (w'.pool k').left ≤ (w.pool k).left ∧
      (Ready w k → (w'.pool k').left < (w.pool k).left) ∧ Tidy w' k' ∧
      ((w'.pool k').Finished ∧ settle w k = (.done (k'.close k'.answered), w') ∨
        k'.live ≠ [] ∧ settle w k = (.working k', w')) := by
  obtain ⟨k', w', hadvance, harrived, hle, hlt, htidy⟩ :=
    h.advanceWork hσ hrs hnow (by omega : k.waiting.length < k.waiting.length + 2)
  refine ⟨k', w', harrived, hle, hlt, htidy, ?_⟩
  rw [Schedule.settle, hadvance]
  by_cases hlive : k'.live = []
  · have hwaiting : k'.waiting = [] := htidy.full.resolve_right fun hle => by
      rw [hlive, List.length_nil, harrived.fixed.1] at hle
      omega
    exact .inl ⟨⟨hlive, hwaiting⟩, by simp [hlive, hwaiting]⟩
  · exact .inr ⟨hlive, by simp [hlive]⟩

omit hnow in
/-- If no live call can go on now, some of them can at the first of the moments that they wait for. -/
theorem Arrived.exists_moment (htidy : Tidy w k) (hlive : k.live ≠ []) (hready : ¬ Ready w k) :
    ∃ moment, ([Activity.working k].flatMap (moments w)).min? = some moment ∧
      Ready { w with clock := max w.clock moment } k := by
  obtain ⟨x, hx⟩ := List.exists_mem_of_ne_nil _ hlive
  obtain ⟨o, horderly⟩ := h.reached.exists_orderly hσ hrs
  obtain ⟨p, hp, hcourse⟩ := horderly.calls (r := x.1) (t := x.2) hx
  have hcall : w.desk.calls[x.2]? = some ⟨x.1, p⟩ := hp
  have hwaits : nextEvent? w x.2 = none := by
    by_contra hnext
    exact hready ⟨x, hx, hnext⟩
  have hunanswered := htidy.unanswered x hx
  simp only [nextEvent?, hcall] at hwaits
  have hmoments : [Activity.working k].flatMap (moments w) = moments w (.working k) := by simp
  rw [hmoments]
  -- a live call at which nothing can be done is with the analyst
  have hsome : moments w (.working k) ≠ [] := by
    cases hcourse with
    | @analyzing l since _ =>
      refine List.ne_nil_of_mem (a := (conclusion w x.2 x.1 since).1) ?_
      exact List.mem_filterMap.mpr ⟨x, hx, by simp only [hcall]⟩
    | done now =>
      rw [Desk.answer?_eq_some_iff.mpr ⟨_, hcall⟩] at hunanswered
      cases hunanswered
    | fresh => cases hwaits
    | holding _ => cases hwaits
    | storing _ _ => cases hwaits
  cases hmin : (moments w (.working k)).min? with
  | none => exact absurd (List.min?_eq_none_iff.mp hmin) hsome
  | some moment =>
    obtain ⟨y, hy, heq⟩ := List.mem_filterMap.mp (List.min?_mem hmin)
    refine ⟨moment, rfl, y, hy, ?_⟩
    dsimp only at heq
    split at heq
    · next r l since hanalyzing =>
      cases heq
      have hevent := nextEvent?_of_analyzing
        (w := { w with clock := max w.clock (conclusion w y.2 r since).1 }) hanalyzing
        (Nat.le_max_right _ _)
      exact Option.ne_none_iff_exists'.mpr ⟨_, hevent⟩
    · cases heq

/-- One round: a reply is given, or the next round begins at a moment at which some call can go on.  If
one can go on now, fewer moves are ahead. -/
theorem Arrived.round (hwidth : 0 < σ.work.width) (bound : Nat) :
    ∃ k' w', Arrived v σ w' k' ∧ (w'.pool k').left ≤ (w.pool k).left ∧
      (Ready w k → (w'.pool k').left < (w.pool k).left) ∧
      ((w'.pool k').Finished ∧
          run (bound + 1) w [.working k] = ([.done (k'.close k'.answered)], w') ∨
        Ready w' k' ∧ run (bound + 1) w [.working k] = run bound w' [.working k']) := by
  obtain ⟨k', w', harrived, hle, hlt, htidy, ⟨hfinished, hsettle⟩ | ⟨hlive, hsettle⟩⟩ :=
    h.settle hσ hrs hnow hwidth
  · refine ⟨k', w', harrived, hle, hlt, .inl ⟨hfinished, ?_⟩⟩
    simp [run, advanceAll, advance, hsettle, restless, moments]
  · have hrestless : restless w' [.working k'] = true ↔ Ready w' k' := by
      rw [restless, List.any_cons, List.any_nil, Bool.or_false, List.any_eq_true]
      simp only [Ready, Option.isSome_iff_ne_none]
    by_cases hready : Ready w' k'
    · refine ⟨k', w', harrived, hle, hlt, .inr ⟨hready, ?_⟩⟩
      rw [run]
      simp only [advanceAll, List.foldl_cons, List.foldl_nil, List.nil_append, advance, hsettle,
        hrestless.mpr hready, if_true]
    · obtain ⟨moment, hmin, hnext⟩ := harrived.exists_moment hσ hrs htidy hlive hready
      refine ⟨k', _, harrived.wait (max w'.clock moment), hle, hlt, .inr ⟨hnext, ?_⟩⟩
      rw [run]
      simp only [advanceAll, List.foldl_cons, List.foldl_nil, List.nil_append, advance, hsettle,
        Bool.eq_false_iff.mpr fun hr => hready (hrestless.mp hr), Bool.false_eq_true, if_false, hmin]

/-- As long as some call can go on, every round leaves fewer moves ahead, so that all calls are
answered before the rounds run out. -/
theorem Arrived.run_of_ready (hwidth : 0 < σ.work.width) (bound : Nat) (hready : Ready w k)
    (hbound : (w.pool k).left < bound) :
    ∃ k' w', Arrived v σ w' k' ∧ (w'.pool k').Finished ∧
      run bound w [.working k] = ([.done (k'.close k'.answered)], w') := by
  induction bound generalizing w k with
  | zero => exact absurd hbound (Nat.not_lt_zero _)
  | succ bound ih =>
    obtain ⟨k₁, w₁, harrived, -, hlt, ⟨hfinished, hround⟩ | ⟨hready₁, hround⟩⟩ :=
      h.round hσ hrs hnow hwidth bound
    · exact ⟨k₁, w₁, harrived, hfinished, hround⟩
    · have hleft := hlt hready
      obtain ⟨k', w', harrived', hfinished, hrounds⟩ := ih harrived hready₁ (by omega)
      exact ⟨k', w', harrived', hfinished, hround.trans hrounds⟩

/-- The scheduler comes to the end of every pool that has room for a call. -/
theorem Arrived.run (hwidth : 0 < σ.work.width) (bound : Nat)
    (hbound : (w.pool k).left + 1 < bound) :
    ∃ k' w', Arrived v σ w' k' ∧ (w'.pool k').Finished ∧
      run bound w [.working k] = ([.done (k'.close k'.answered)], w') := by
  obtain ⟨bound, rfl⟩ := Nat.exists_eq_add_one_of_ne_zero (Nat.ne_zero_of_lt hbound)
  obtain ⟨k₁, w₁, harrived, hle, -, ⟨hfinished, hround⟩ | ⟨hready, hround⟩⟩ :=
    h.round hσ hrs hnow hwidth bound
  · exact ⟨k₁, w₁, harrived, hfinished, hround⟩
  · obtain ⟨k', w', harrived', hfinished, hrounds⟩ :=
      harrived.run_of_ready hσ hrs hnow hwidth bound hready (by omega)
    exact ⟨k', w', harrived', hfinished, hround.trans hrounds⟩

end Moves

/-- A plan to call for lineage is followed when its visit ends. -/
theorem run_follow {moment width : Nat} (h : moment ≤ w.clock) (close : List Answered → Reply)
    (bound : Nat) :
    run (bound + 1) w [.visiting moment (.ask width rs close)] =
      run (bound + 1) w [.working ⟨width, rs, [], [], close⟩] := by
  have hadvance : advanceAll w [.visiting moment (.ask width rs close)] =
      advanceAll w [.working ⟨width, rs, [], [], close⟩] := by
    simp only [advanceAll, List.foldl_cons, advance, if_pos h]
    rfl
  rw [run, hadvance]
  rfl

end Schedule

namespace Command

section Ask

variable {w : World} {c : Command} {width moment : Nat} {rs : List AnalysisRequest}
  {close : List Answered → Reply}
  (hvisit : c.visit w.engine w.registry (fun _ => w.surroundings) w.clock =
    (.ok (.ask width rs close), moment))
  (hquiet : w.desk.Quiet) (hrs : (rs.map (·.identity)).Nodup) (hnow : w.Dated) (hwidth : 0 < width)
  (hbound : 6 * rs.length + 3 ≤ rounds w [c])

include hvisit hquiet hrs hnow hwidth hbound

/-- If the visit takes no time the first calls are submitted as the command begins. -/
theorem run_of_ask_now (hmoment : moment ≤ w.clock) :
    ∃ k v, Arrived w (.begun width rs close w.desk) v k ∧ (v.pool k).Finished ∧
      run w c = (k.close k.answered, v) := by
  have hσ := Pool.orderly_begun hquiet width rs close
  have hbegun : begun w c = (Schedule.settle w ⟨width, rs, [], [], close⟩).map .active id := by
    rw [begun_of_le hvisit hmoment]
    rfl
  obtain ⟨k, v, harrived, hle, -, -, hends⟩ :=
    (Arrived.refl w ⟨width, rs, [], [], close⟩).settle hσ hrs hnow hwidth
  rcases hends with ⟨hfinished, hsettle⟩ | ⟨hlive, hsettle⟩
  · rw [hsettle, Prod.map_apply, id] at hbegun
    obtain ⟨n, hn⟩ := exists_rounds_eq v c
    exact ⟨k, v, harrived, hfinished, run_of_begun hbegun (by rw [hn]; exact run_done _ _ _)⟩
  · rw [hsettle, Prod.map_apply, id] at hbegun
    have hrounds : rounds v [c] = rounds w [c] := by
      rw [harrived.world]
      rfl
    have hleft : (w.pool ⟨width, rs, [], [], close⟩).left = 6 * rs.length :=
      Pool.left_begun width rs close w.desk
    obtain ⟨k', v', harrived', hfinished, hreply⟩ :=
      harrived.run hσ hrs hnow hwidth (rounds v [c]) (by omega)
    exact ⟨k', v', harrived', hfinished, run_of_begun hbegun hreply⟩

/-- If the visit takes time it is waited for, and then the first calls are submitted. -/
theorem run_of_ask_later (hmoment : w.clock < moment) :
    ∃ k v, Arrived w (.begun width rs close w.desk) v k ∧ (v.pool k).Finished ∧
      run w c = (k.close k.answered, v) := by
  -- one round is spent on the wait
  obtain ⟨bound, hrounds⟩ := Nat.exists_eq_add_of_le' hbound
  have hleft : (w.pool ⟨width, rs, [], [], close⟩).left = 6 * rs.length :=
    Pool.left_begun width rs close w.desk
  obtain ⟨k, v, harrived, hfinished, hreply⟩ :=
    ((Arrived.refl w ⟨width, rs, [], [], close⟩).wait moment).run
      (Pool.orderly_begun hquiet width rs close) hrs hnow hwidth (bound + (6 * rs.length + 1) + 1)
      (by change (w.pool ⟨width, rs, [], [], close⟩).left + 1 < _; omega)
  refine ⟨k, v, harrived, hfinished, run_of_begun (begun_of_lt hvisit hmoment) ?_⟩
  rw [activity_away hvisit, hrounds]
  refine (run_wait _ hmoment _).trans ?_
  exact (Schedule.run_follow (w := { w with clock := moment }) (Nat.le_refl _) close _).trans hreply

/-- A command whose visit leads to calls for lineage runs their pool to its end, by something that the
analyst may say, and replies what is made of the answers. -/
theorem run_of_ask :
    ∃ o τ a clock, (∀ r, w.MaySay r (o r)) ∧ Pool.Run o (.begun width rs close w.desk) τ ∧
      τ.Finished ∧ run w c = (close τ.work.answered, w.later τ.desk a clock) := by
  obtain ⟨k, v, harrived, hfinished, hreply⟩ :=
    (Nat.lt_or_ge w.clock moment).elim (run_of_ask_later hvisit hquiet hrs hnow hwidth hbound)
      (run_of_ask_now hvisit hquiet hrs hnow hwidth hbound)
  obtain ⟨o, htells, hrun⟩ := harrived.reached
  refine ⟨o, v.pool k, v.analyst, v.clock, htells, hrun, hfinished, ?_⟩
  rw [hreply, harrived.fixed.2]
  exact congrArg (Prod.mk _) harrived.world

end Ask

end Command

end TierLineage
