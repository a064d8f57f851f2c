import TierLineage.Proofs.Flight.Consistency

/-!
# Runs of the desk

A *run* takes new calls and lets events happen, in any order.  `Turn` lists what one event can do to
the call it is about, with what that does to the store and to the questions asked; to other calls an
event does nothing, except that one of them may get the lock for which it waits.  `step_spec` is the
only place where the definition of an event is opened.
-/

namespace TierLineage.Flight

open TierLineage.Digest

/-- The call that an event is about. -/
def Event.ticket : Event → Ticket
  | look t => t
  | recheck t _ => t
  | conclude t _ => t
  | save t _ => t
  | drop t => t

/-- Whether an event can happen to a call in a phase. -/
def Event.fits : Event → Phase → Bool
  | look _, .fresh => true
  | recheck _ _, .holding _ => true
  | conclude _ _, .analyzing _ _ => true
  | save _ _, .storing _ _ => true
  | drop _, p => !p.ended
  | _, _ => false

namespace Desk

/-! ### One event -/

/-- What an event does to a call with a request: its phase before and after, the store after, and
what was asked until then. -/
inductive Turn (d : Desk) (r : AnalysisRequest) :
    Event → Phase → Phase → Store → List AnalysisRequest → Prop where
  /-- The event does not fit. -/
  | idle {e p} : e.fits p = false → Turn d r e p p d.store d.asked
  /-- The procedure has no proper name. -/
  | refused {t e} : r.identity.validate = .error e →
    Turn d r (.look t) .fresh (.done (.error (.refused e))) d.store d.asked
  /-- The store cannot be read. -/
  | unread {t e} : d.stored? r.identity (contentHash r.definition) = .error e →
    Turn d r (.look t) .fresh (.done (.error e)) d.store d.asked
  /-- The store holds the record. -/
  | found {t f} : d.stored? r.identity (contentHash r.definition) = .ok (some f) →
    Turn d r (.look t) .fresh (.done (.ok ⟨f, true⟩)) d.store d.asked
  /-- Nobody else is at the procedure. -/
  | entered {t l} : d.stored? r.identity (contentHash r.definition) = .ok none →
    Turn d r (.look t) .fresh (.holding l) d.store d.asked
  /-- Somebody else is at the procedure, and the call waits. -/
  | waited {t l} : d.stored? r.identity (contentHash r.definition) = .ok none →
    d.policy = .wait → Turn d r (.look t) .fresh (.queued l) d.store d.asked
  /-- Somebody else is at the procedure, and the call is rejected. -/
  | rejected {t} : d.stored? r.identity (contentHash r.definition) = .ok none →
    d.policy = .reject →
    Turn d r (.look t) .fresh (.done (.error (.conflict (.inFlight r.identity.display))))
      d.store d.asked
  /-- The store cannot be read a second time. -/
  | unreadAgain {t now l e} : d.stored? r.identity (contentHash r.definition) = .error e →
    Turn d r (.recheck t now) (.holding l) (.done (.error e)) d.store d.asked
  /-- The store holds the record by now. -/
  | foundAgain {t now l f} : d.stored? r.identity (contentHash r.definition) = .ok (some f) →
    Turn d r (.recheck t now) (.holding l) (.done (.ok ⟨f, true⟩)) d.store d.asked
  /-- The analyst is asked. -/
  | questioned {t now l} : d.stored? r.identity (contentHash r.definition) = .ok none →
    Turn d r (.recheck t now) (.holding l) (.analyzing l now) d.store (r :: d.asked)
  /-- The analyst has an answer. -/
  | analyzed {t l since a} :
    Turn d r (.conclude t (.ok a)) (.analyzing l since) (.storing l a) d.store d.asked
  /-- The analyst has no answer, or takes too long. -/
  | failed {t l since e} :
    Turn d r (.conclude t (.error e)) (.analyzing l since) (.done (.error e)) d.store d.asked
  /-- The record is stored. -/
  | saved {t now l a s} : d.store.putRecord (recordOf r a now) = (.ok (), s) →
    Turn d r (.save t now) (.storing l a) (.done (.ok ⟨recordOf r a now, false⟩)) s d.asked
  /-- The record cannot be stored. -/
  | unsaved {t now l a s e} : d.store.putRecord (recordOf r a now) = (.error e, s) →
    Turn d r (.save t now) (.storing l a) (.done (.error e)) s d.asked
  /-- The caller gives up. -/
  | dropped {t p} : p.ended = false → Turn d r (.drop t) p .dropped d.store d.asked

/-- What holds between a desk and what an event about a call makes of it. -/
structure Stepped (d : Desk) (t : Ticket) (c : Call) (q : Phase) (d' : Desk) : Prop where
  /-- The desk stays consistent. -/
  consistent : d'.Consistent
  policy_eq : d'.policy = d.policy
  nextTicket_eq : d'.nextTicket = d.nextTicket
  /-- The call comes into its new phase. -/
  calls_self : d'.calls[t]? = some { c with phase := q }
  /-- Another call stays as it is, or gets the lock for which it waits. -/
  calls_ne : ∀ {u : Ticket}, u ≠ t → d'.calls[u]? = d.calls[u]? ∨
    ∃ w l, d.calls[u]? = some w ∧ w.phase = .queued l ∧
      d'.calls[u]? = some { w with phase := .holding l }

variable {d : Desk} {t : Ticket} {c : Call} {l : LockId}

/-- Where a call comes from: it is the one that the event is about, or it was there already and has
at most got the lock for which it waited. -/
theorem Stepped.origin {q : Phase} {d' : Desk} (h : Stepped d t c q d') {u : Ticket} {w : Call}
    (hw : d'.calls[u]? = some w) : (u = t ∧ w = { c with phase := q }) ∨
      (u ≠ t ∧ ∃ w', d.calls[u]? = some w' ∧ w'.request = w.request ∧
        (w' = w ∨ ∃ l, w'.phase = .queued l ∧ w.phase = .holding l)) := by
  by_cases hu : u = t
  · subst hu
    exact .inl ⟨rfl, (Option.some.inj (h.calls_self.symm.trans hw)).symm⟩
  · refine .inr ⟨hu, ?_⟩
    rcases h.calls_ne hu with heq | ⟨w', l, hw', hq, hnew⟩
    · exact ⟨w, heq ▸ hw, rfl, .inl rfl⟩
    · cases hnew.symm.trans hw
      exact ⟨w', hw', rfl, .inr ⟨l, hq, rfl⟩⟩

theorem stepped_setPhase (hd : d.Consistent) (hc : d.calls[t]? = some c) {p : Phase}
    (hheld : p.held? = c.phase.held?) (hqueued : ∀ l, p = .queued l ↔ c.phase = .queued l) :
    Stepped d t c p (d.setPhase t p) where
  consistent := hd.setPhase hc hheld hqueued
  policy_eq := policy_setPhase d t p
  nextTicket_eq := nextTicket_setPhase d t p
  calls_self := by rw [calls_setPhase, if_pos rfl, hc, Option.map_some]
  calls_ne hu := .inl (by rw [calls_setPhase, if_neg hu])

theorem stepped_finish (hd : d.Consistent) (hc : d.calls[t]? = some c) (last : Phase)
    (hlast : last.ended = true) : Stepped d t c last (d.finish t c last) := by
  cases hl : c.phase.lock? with
  | none =>
    rw [finish_of_lock?_eq_none last hl]
    have hlast' := Phase.lock?_of_ended hlast
    refine stepped_setPhase hd hc ?_ fun l => ?_
    · rw [Phase.held?_of_lock?_eq_none hl, Phase.held?_of_lock?_eq_none hlast']
    · constructor
      · rintro rfl
        cases hlast'
      · intro hq
        rw [hq] at hl
        cases hl
  | some l =>
    obtain ⟨hpolicy, -, -, hticket, -⟩ := frame_finish d t c last
    refine ⟨hd.finish hc hl hlast, hpolicy, hticket, ?_, fun {u} hu => ?_⟩
    · rw [hd.calls_finish hc hl last, if_pos rfl]
    · rw [hd.calls_finish hc hl last, if_neg hu]
      split
      · next hheir =>
        obtain ⟨w, hw, hq⟩ := hd.queued_of_heir? hheir
        exact .inr ⟨w, l, hw, hq, by rw [hw, Option.map_some]⟩
      · exact .inl rfl

/-- A call that takes part in the lock of its procedure has it, waits for it or is rejected. -/
theorem stepped_join (hd : d.Consistent) (hc : d.calls[t]? = some c) (hf : c.phase = .fresh)
    (hs : d.stored? c.request.identity (contentHash c.request.definition) = .ok none) :
    ∃ q, Stepped d t c q (d.join t c) ∧
      Turn d c.request (.look t) c.phase q (d.join t c).store (d.join t c).asked := by
  have hl : c.phase.lock? = none := by rw [hf]; rfl
  have hcons := hd.join hc hl
  rw [hf]
  cases h : d.inFlight[c.request.identity]? with
  | none =>
    have heq := join_of_inFlight_eq_none (t := t) h
    refine ⟨.holding d.nextLock, ⟨hcons, ?_, ?_, ?_, fun {u} hu => .inl ?_⟩, ?_⟩
    · simp [heq]
    · simp [heq]
    · simp [heq, calls_setPhase, hc]
    · simp [heq, calls_setPhase, hu]
    · simpa [heq] using Turn.entered hs
  | some l =>
    cases hp : d.policy with
    | wait =>
      have heq := hd.join_of_wait (t := t) hp h
      refine ⟨.queued l, ⟨hcons, ?_, ?_, ?_, fun {u} hu => .inl ?_⟩, ?_⟩
      · simp [heq]
      · simp [heq]
      · simp [heq, calls_setPhase, hc]
      · simp [heq, calls_setPhase, hu]
      · simpa [heq] using Turn.waited hs hp
    | reject =>
      have heq := hd.join_of_reject (t := t) hp h
      refine ⟨.done (.error (.conflict (.inFlight c.request.identity.display))),
        ⟨hcons, ?_, ?_, ?_, fun {u} hu => .inl ?_⟩, ?_⟩
      · simp [heq]
      · simp [heq]
      · simp [heq, calls_setPhase, hc]
      · simp [heq, calls_setPhase, hu]
      · simpa [heq] using Turn.rejected hs hp

/-- What a call has stored or asked does not matter for its locks. -/
theorem Consistent.update (hd : d.Consistent) (s : Store) (asked : List AnalysisRequest) :
    Consistent { d with store := s, asked := asked } :=
  hd.congr (fun _ => rfl) (fun _ => rfl) (fun _ => rfl) rfl rfl

theorem Stepped.of_update {s : Store} {asked : List AnalysisRequest} {q : Phase} {d' : Desk}
    (h : Stepped { d with store := s, asked := asked } t c q d') : Stepped d t c q d' :=
  ⟨h.consistent, h.policy_eq, h.nextTicket_eq, h.calls_self, h.calls_ne⟩

/-- The first look into the store. -/
theorem stepped_look (hd : d.Consistent) (hc : d.calls[t]? = some c) (hf : c.phase = .fresh) :
    ∃ q, Stepped d t c q (d.look t c) ∧
      Turn d c.request (.look t) c.phase q (d.look t c).store (d.look t c).asked := by
  have hset : ∀ r, Stepped d t c (.done r) (d.setPhase t (.done r)) := fun r =>
    stepped_setPhase hd hc (by rw [hf]; rfl) (by simp [hf])
  rw [look]
  split
  · next e he =>
    refine ⟨_, hset _, ?_⟩
    simpa [hf] using Turn.refused he
  · split
    · next e he =>
      refine ⟨_, hset _, ?_⟩
      simpa [hf] using Turn.unread he
    · next r hr =>
      refine ⟨_, hset _, ?_⟩
      simpa [hf] using Turn.found hr
    · next hs => exact stepped_join hd hc hf hs

/-- The second look into the store. -/
theorem stepped_recheck (hd : d.Consistent) (hc : d.calls[t]? = some c) (hl : c.phase = .holding l)
    (now : Nat) :
    ∃ q, Stepped d t c q (d.recheck t c l now) ∧
      Turn d c.request (.recheck t now) c.phase q (d.recheck t c l now).store
        (d.recheck t c l now).asked := by
  have hfinish : ∀ r, Stepped d t c (.done r) (d.finish t c (.done r)) := fun r =>
    stepped_finish hd hc _ rfl
  rw [hl, recheck]
  split
  · next e he =>
    refine ⟨_, hfinish _, ?_⟩
    simpa [frame_finish] using Turn.unreadAgain he
  · next r hr =>
    refine ⟨_, hfinish _, ?_⟩
    simpa [frame_finish] using Turn.foundAgain hr
  · next hs =>
    have hset := stepped_setPhase (hd.update d.store (c.request :: d.asked)) hc
      (p := .analyzing l now) (by rw [hl]; rfl) (by simp [hl])
    refine ⟨_, hset.of_update, ?_⟩
    simpa using Turn.questioned hs

/-- The record of an analysis is stored, or is not. -/
theorem stepped_save (hd : d.Consistent) (hc : d.calls[t]? = some c) {a : Analysis}
    (hp : c.phase = .storing l a) (now : Instant) :
    ∃ q, Stepped d t c q (d.save t c a now) ∧
      Turn d c.request (.save t now) c.phase q (d.save t c a now).store
        (d.save t c a now).asked := by
  rw [hp, save]
  split
  · next s hs =>
    refine ⟨_, (stepped_finish (hd.update s d.asked) hc _ rfl).of_update, ?_⟩
    simpa [frame_finish] using Turn.saved hs
  · next e s hs =>
    refine ⟨_, (stepped_finish (hd.update s d.asked) hc _ rfl).of_update, ?_⟩
    simpa [frame_finish] using Turn.unsaved hs

/-- The analyst is ready, or takes too long. -/
theorem stepped_conclude (hd : d.Consistent) (hc : d.calls[t]? = some c) {since : Nat}
    (hp : c.phase = .analyzing l since) (r : Outcome Analysis) :
    ∃ q, Stepped d t c q (d.step (.conclude t r)) ∧
      Turn d c.request (.conclude t r) c.phase q (d.step (.conclude t r)).store
        (d.step (.conclude t r)).asked := by
  cases r with
  | ok a =>
    have hstep : d.step (.conclude t (.ok a)) = d.setPhase t (.storing l a) := by
      simp [step, hc, hp]
    rw [hstep]
    refine ⟨.storing l a, stepped_setPhase hd hc (by rw [hp]; rfl) (by simp [hp]), ?_⟩
    simpa [hp] using Turn.analyzed
  | error e =>
    have hstep : d.step (.conclude t (.error e)) = d.finish t c (.done (.error e)) := by
      simp [step, hc, hp]
    rw [hstep]
    refine ⟨.done (.error e), stepped_finish hd hc _ rfl, ?_⟩
    simpa [hp, frame_finish] using Turn.failed

/-- An event that does not fit changes nothing. -/
theorem step_of_fits_eq_false {e : Event} (hc : d.calls[e.ticket]? = some c)
    (h : e.fits c.phase = false) : d.step e = d := by
  cases e <;> cases hp : c.phase <;> simp_all [step, Event.ticket, Event.fits, Phase.ended]

/-- A call that is ended stays as it is. -/
theorem step_of_ended {e : Event} (hc : d.calls[e.ticket]? = some c) (hended : c.phase.ended = true) :
    d.step e = d := by
  refine step_of_fits_eq_false hc ?_
  cases e <;> cases hp : c.phase <;> simp_all [Event.fits, Phase.ended]

/-- An event of a call that was never taken changes nothing. -/
theorem step_of_calls_eq_none {e : Event} (h : d.calls[e.ticket]? = none) : d.step e = d := by
  cases e <;> simp_all [step, Event.ticket]

/-- What an event does. -/
theorem step_spec (hd : d.Consistent) {e : Event} (hc : d.calls[e.ticket]? = some c) :
    ∃ q, Stepped d e.ticket c q (d.step e) ∧
      Turn d c.request e c.phase q (d.step e).store (d.step e).asked := by
  cases hfit : e.fits c.phase with
  | false =>
    rw [step_of_fits_eq_false hc hfit]
    exact ⟨c.phase, ⟨hd, rfl, rfl, hc, fun _ => .inl rfl⟩, .idle hfit⟩
  | true =>
    cases e with
    | look t =>
      cases hp : c.phase with
      | fresh =>
        have hstep : d.step (.look t) = d.look t c := by
          have hc' : d.calls[t]? = some c := hc
          simp [step, hc', hp]
        rw [hstep, ← hp]
        exact stepped_look hd hc hp
      | _ => simp [hp, Event.fits] at hfit
    | recheck t now =>
      cases hp : c.phase with
      | holding l =>
        have hstep : d.step (.recheck t now) = d.recheck t c l now := by
          have hc' : d.calls[t]? = some c := hc
          simp [step, hc', hp]
        rw [hstep, ← hp]
        exact stepped_recheck hd hc hp now
      | _ => simp [hp, Event.fits] at hfit
    | conclude t r =>
      cases hp : c.phase with
      | analyzing l since =>
        have hc' : d.calls[t]? = some c := hc
        rw [← hp]
        exact stepped_conclude hd hc' hp r
      | _ => simp [hp, Event.fits] at hfit
    | save t now =>
      cases hp : c.phase with
      | storing l a =>
        have hstep : d.step (.save t now) = d.save t c a now := by
          have hc' : d.calls[t]? = some c := hc
          simp [step, hc', hp]
        rw [hstep, ← hp]
        exact stepped_save hd hc hp now
      | _ => simp [hp, Event.fits] at hfit
    | drop t =>
      have hend : c.phase.ended = false := by simpa [Event.fits] using hfit
      have hstep : d.step (.drop t) = d.finish t c .dropped := by
        have hc' : d.calls[t]? = some c := hc
        cases hp : c.phase <;> simp_all [step, Phase.ended]
      rw [hstep]
      refine ⟨.dropped, stepped_finish hd hc .dropped rfl, ?_⟩
      simpa [frame_finish] using Turn.dropped hend

end Desk

/-! ### Runs -/

/-- What can be done to a desk: a new call is taken, or something happens to a call. -/
inductive Move where
  | submit (request : AnalysisRequest)
  | happen (event : Event)

namespace Desk

/-- What a desk is after a move. -/
def move (d : Desk) : Move → Desk
  | .submit r => (d.submit r).2
  | .happen e => d.step e

/-- What a desk is after some moves, one after the other. -/
def run (d : Desk) (moves : List Move) : Desk :=
  moves.foldl move d

variable {d : Desk}

theorem Consistent.step (hd : d.Consistent) (e : Event) : (d.step e).Consistent := by
  cases hc : d.calls[e.ticket]? with
  | none => rwa [step_of_calls_eq_none hc]
  | some c =>
    obtain ⟨q, hq, -⟩ := step_spec hd hc
    exact hq.consistent

theorem Consistent.move (hd : d.Consistent) (m : Move) : (d.move m).Consistent := by
  cases m with
  | submit r => exact hd.submit r
  | happen e => exact hd.step e

theorem Consistent.policy_move (hd : d.Consistent) (m : Move) : (d.move m).policy = d.policy := by
  cases m with
  | submit r => rfl
  | happen e =>
    rw [Desk.move]
    cases hc : d.calls[e.ticket]? with
    | none => rw [step_of_calls_eq_none hc]
    | some c =>
      obtain ⟨q, hq, -⟩ := step_spec hd hc
      exact hq.policy_eq

/-- A call after a move is new, or it was there with its request. -/
theorem Consistent.request_move (hd : d.Consistent) {m : Move} {u : Ticket} {w : Call}
    (hw : (d.move m).calls[u]? = some w) :
    m = .submit w.request ∨ ∃ w', d.calls[u]? = some w' ∧ w'.request = w.request := by
  cases m with
  | submit r =>
    rw [Desk.move, Desk.submit, getElem?_insert_eq] at hw
    split at hw
    · cases hw
      exact .inl rfl
    · exact .inr ⟨w, hw, rfl⟩
  | happen e =>
    rw [Desk.move] at hw
    cases hc : d.calls[e.ticket]? with
    | none =>
      rw [step_of_calls_eq_none hc] at hw
      exact .inr ⟨w, hw, rfl⟩
    | some c =>
      obtain ⟨q, hq, -⟩ := step_spec hd hc
      rcases hq.origin hw with ⟨rfl, rfl⟩ | ⟨-, w', hw', hrequest, -⟩
      · exact .inr ⟨c, hc, rfl⟩
      · exact .inr ⟨w', hw', hrequest⟩

/-- Every run leaves a consistent desk. -/
theorem Consistent.run (hd : d.Consistent) (moves : List Move) : (d.run moves).Consistent := by
  induction moves generalizing d with
  | nil => exact hd
  | cons m ms ih => exact ih (hd.move m)

end Desk

end TierLineage.Flight
