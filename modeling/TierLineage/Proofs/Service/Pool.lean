import Mathlib.Algebra.GroupWithZero.Nat
import Mathlib.Algebra.Order.BigOperators.Group.List
import Mathlib.Algebra.Order.Group.Nat
import Mathlib.Data.List.Nodup
import Mathlib.Logic.Relation
import TierLineage.Proofs.Flight.Unhindered
import TierLineage.Service.Schedule

/-!
# Calls that belong together

A *pool* is a piece of work with the desk at which its calls are.  It moves whenever a waiting call
starts, something happens to a live one, or the answer of one is taken, in any order: nothing is
said of which call goes on next, nor of how long the analyst is at work.  If no other call is under
way and the calls of the pool are about different procedures, nothing gets in the way of any of
them, so that each is answered as if it were alone.  `Orderly` says so of a moment between two
moves; it holds at the start and every move keeps it.
-/

namespace TierLineage

open TierLineage.Flight

/-! ### Moves -/

/-- A piece of work and the desk at which its calls are. -/
structure Pool where
  work : Work
  desk : Desk

namespace Pool

/-- What can happen to a pool at a moment, if the analyst says this or that of each text. -/
inductive Move (o : AnalysisRequest → Outcome Analysis) : Pool → Pool → Prop where
  /-- A waiting call starts, if there is room for it. -/
  | start {k : Work} {d : Desk} {r : AnalysisRequest} {rest : List AnalysisRequest}
    (hroom : k.live.length < k.width) (hwaiting : k.waiting = r :: rest) :
    Move o ⟨k, d⟩ ⟨{ k with waiting := rest, live := k.live ++ [(r, d.nextTicket)] }, (d.submit r).2⟩
  /-- Something happens to a live call; its caller does not give up. -/
  | happen {k : Work} {d : Desk} {r : AnalysisRequest} {p : Phase} {e : Event}
    (hlive : (r, e.ticket) ∈ k.live) (hcall : d.calls[e.ticket]? = some ⟨r, p⟩)
    (hfits : e.fits p = true) (hdrop : ∀ t, e ≠ .drop t)
    (hconclude : ∀ t x, e = .conclude t x → x = o r)
    (hadmits : d.store.backend.Admits (.happen e)) : Move o ⟨k, d⟩ ⟨k, d.step e⟩
  /-- The answer of a live call is taken. -/
  | collect {k : Work} {d : Desk} {r : AnalysisRequest} {t : Ticket} {a : Outcome Finding}
    {before after : List (AnalysisRequest × Ticket)} (hlive : k.live = before ++ (r, t) :: after)
    (hanswer : d.answer? t = some a) :
    Move o ⟨k, d⟩ ⟨{ k with live := before ++ after, answered := k.answered ++ [(r, a)] }, d.forget t⟩

/-- Moves one after the other. -/
abbrev Run (o : AnalysisRequest → Outcome Analysis) : Pool → Pool → Prop :=
  Relation.ReflTransGen (Move o)

/-- Whether all calls are answered. -/
def Finished (σ : Pool) : Prop := σ.work.live = [] ∧ σ.work.waiting = []

/-- Whether a call is answered, be its answer taken or not. -/
def Answers (σ : Pool) (r : AnalysisRequest) (a : Outcome Finding) : Prop :=
  (r, a) ∈ σ.work.answered ∨
    ∃ t, (r, t) ∈ σ.work.live ∧ σ.desk.calls[t]? = some ⟨r, .done a⟩

end Pool

namespace Flight.Desk

variable {d : Desk} {t u : Ticket} {c : Call}

/-- Whether no call is under way. -/
structure Quiet (d : Desk) : Prop where
  consistent : d.Consistent
  ended : ∀ {t : Ticket} {c : Call}, d.calls[t]? = some c → c.phase.ended = true

theorem quiet_empty (policy : InFlightPolicy) (s : Store) : (empty policy s).Quiet where
  consistent := consistent_empty policy s
  ended hc := by simp [empty] at hc

theorem answer?_eq_some_iff {a : Outcome Finding} :
    d.answer? t = some a ↔ ∃ r, d.calls[t]? = some ⟨r, .done a⟩ := by
  rw [answer?]
  split
  · next r x hc => simp [hc]
  · next hne =>
    refine iff_of_false (fun h => by cases h) ?_
    rintro ⟨r, hc⟩
    exact hne r a hc

theorem calls_forget (d : Desk) (t u : Ticket) :
    (d.forget t).calls[u]? = if u = t then none else d.calls[u]? := by
  rw [forget, getElem?_erase_eq]

/-- A call that has ended takes part in no lock, so that it can be forgotten. -/
theorem Consistent.forget (hd : d.Consistent) (hc : d.calls[t]? = some c)
    (hended : c.phase.ended = true) : (d.forget t).Consistent := by
  have hlock : c.phase.lock? = none := Phase.lock?_of_ended hended
  have hheld : c.phase.held? = none := Phase.held?_of_ended hended
  have hlocks : ∀ l, (d.forget t).lock l = d.lock l := fun l => rfl
  have hcalls : ∀ {u : Ticket} {c' : Call}, (d.forget t).calls[u]? = some c' → d.calls[u]? = some c' := by
    intro u c' hc'
    rw [calls_forget] at hc'
    split at hc'
    · cases hc'
    · exact hc'
  -- a call with a lock is not the one that is forgotten
  have hkept : ∀ {u : Ticket} {c' : Call}, d.calls[u]? = some c' → c'.phase.lock? ≠ none →
      (d.forget t).calls[u]? = some c' := by
    intro u c' hc' hl
    rw [calls_forget, if_neg, hc']
    rintro rfl
    cases hc.symm.trans hc'
    exact hl hlock
  constructor
  · exact fun hc' => hd.ticket_lt (hcalls hc')
  · exact hd.lock_lt
  · exact hd.procedure_eq
  · exact fun hc' hl => hd.inFlight_eq (hcalls hc') hl
  · intro u l
    rw [hlocks, hd.holder_iff]
    constructor
    · rintro ⟨c', hc', hl⟩
      exact ⟨c', hkept hc' (by rw [Phase.lock?_of_held? hl]; simp), hl⟩
    · rintro ⟨c', hc', hl⟩
      exact ⟨c', hcalls hc', hl⟩
  · intro u l
    rw [hlocks, hd.mem_queue_iff]
    constructor
    · rintro ⟨c', hc', hl⟩
      exact ⟨c', hkept hc' (by rw [hl]; simp [Phase.lock?]), hl⟩
    · rintro ⟨c', hc', hl⟩
      exact ⟨c', hcalls hc', hl⟩
  · exact hd.queue_nodup
  · exact hd.holder_ne_none
  · exact hd.references_eq

end Flight.Desk

/-! ### One moment -/

namespace Pool

/-- What holds of a pool between two moves, by the store and the questions at its start, its calls,
and what the analyst says. -/
structure Orderly (s : Store) (asked rs : List AnalysisRequest)
    (o : AnalysisRequest → Outcome Analysis) (σ : Pool) : Prop where
  consistent : σ.desk.Consistent
  /-- Every call waits, is live or is answered. -/
  perm : (σ.work.waiting ++ (σ.work.live.map Prod.fst ++ σ.work.answered.map Prod.fst)).Perm rs
  /-- Nothing gets in the way of a live call. -/
  calls : ∀ {r : AnalysisRequest} {t : Ticket}, (r, t) ∈ σ.work.live →
    ∃ p, σ.desk.calls[t]? = some ⟨r, p⟩ ∧ Course s r (o r) p
  /-- No other call is under way. -/
  others : ∀ {t : Ticket} {c : Call}, σ.desk.calls[t]? = some c →
    c.phase.ended = true ∨ (c.request, t) ∈ σ.work.live
  /-- The answers are those of calls that are alone. -/
  answered : ∀ {r : AnalysisRequest} {a : Outcome Finding}, (r, a) ∈ σ.work.answered →
    ∃ now, a = (serve s r (o r) now).1
  /-- The new records of the answers were stored, and nothing else. -/
  saved : ∃ fs : List Record, σ.desk.store = s.afterRecords fs ∧ (fs.map (·.identity)).Nodup ∧
    (∀ f ∈ fs, s.backend.Holds f) ∧ ∀ f, f ∈ fs ↔ ∃ r, σ.Answers r (.ok ⟨f, false⟩)
  /-- The analyst was asked about nothing that was stored. -/
  asked : ∃ new, σ.desk.asked = new ++ asked ∧ ∀ r ∈ new, r ∈ rs ∧ s.recordFor r = .ok none

variable {s : Store} {asked rs : List AnalysisRequest} {o : AnalysisRequest → Outcome Analysis}
  {σ τ : Pool}

namespace Orderly

variable {r r' : AnalysisRequest} {t t' : Ticket} {a : Outcome Finding} {p : Phase}
  (hσ : σ.Orderly s asked rs o) (hrs : (rs.map (·.identity)).Nodup)

include hσ

theorem mem_of_live (h : (r, t) ∈ σ.work.live) : r ∈ rs :=
  hσ.perm.subset (List.mem_append_right _ (List.mem_append_left _ (List.mem_map_of_mem h)))

theorem mem_of_answered (h : (r, a) ∈ σ.work.answered) : r ∈ rs :=
  hσ.perm.subset (List.mem_append_right _ (List.mem_append_right _ (List.mem_map_of_mem h)))

theorem mem_of_answers (h : σ.Answers r a) : r ∈ rs := by
  rcases h with h | ⟨t, h, -⟩
  · exact hσ.mem_of_answered h
  · exact hσ.mem_of_live h

/-- What is answered is what a call answers that is alone. -/
theorem serve_of_answers (h : σ.Answers r a) : ∃ now, a = (serve s r (o r) now).1 := by
  rcases h with h | ⟨t, hlive, hcall⟩
  · exact hσ.answered h
  · obtain ⟨p, hp, hcourse⟩ := hσ.calls hlive
    cases hcall.symm.trans hp
    generalize hdone : Phase.done a = p at hcourse
    cases hcourse <;> cases hdone
    exact ⟨_, rfl⟩

/-- A ticket is of one call. -/
theorem request_eq (h : (r, t) ∈ σ.work.live) (h' : (r', t) ∈ σ.work.live) : r = r' := by
  obtain ⟨p, hp, -⟩ := hσ.calls h
  obtain ⟨p', hp', -⟩ := hσ.calls h'
  cases hp.symm.trans hp'
  rfl

include hrs

/-- The calls of a pool are different. -/
theorem nodup :
    (σ.work.waiting ++ (σ.work.live.map Prod.fst ++ σ.work.answered.map Prod.fst)).Nodup :=
  hσ.perm.nodup_iff.mpr (hrs.of_map _)

/-- A call has one ticket. -/
theorem ticket_eq (h : (r, t) ∈ σ.work.live) (h' : (r, t') ∈ σ.work.live) : t = t' := by
  have hlive := (List.nodup_append.mp (List.nodup_append.mp (hσ.nodup hrs)).2.1).1
  exact congrArg Prod.snd (List.inj_on_of_nodup_map hlive h h' rfl)

/-- The answer of a live call was not taken. -/
theorem not_mem_answered (h : (r, t) ∈ σ.work.live) : (r, a) ∉ σ.work.answered := fun ha =>
  (List.nodup_append.mp (List.nodup_append.mp (hσ.nodup hrs)).2.1).2.2 r (List.mem_map_of_mem h) r
    (List.mem_map_of_mem ha) rfl

/-- A live call is answered if it is done. -/
theorem phase_of_answers (h : (r, t) ∈ σ.work.live) (hp : σ.desk.calls[t]? = some ⟨r, p⟩)
    (ha : σ.Answers r a) : p = .done a := by
  rcases ha with ha | ⟨t', h', ha⟩
  · exact absurd ha (hσ.not_mem_answered hrs h)
  · cases hσ.ticket_eq hrs h h'
    cases hp.symm.trans ha
    rfl

/-- Records of a procedure are stored by its own call only. -/
theorem identity_ne {f : Record} (hr : r ∈ rs) (hanswers : ∀ a, ¬ σ.Answers r a)
    (hf : ∃ r, σ.Answers r (.ok ⟨f, false⟩)) : r.identity ≠ f.identity := by
  obtain ⟨r', hr'⟩ := hf
  obtain ⟨now, hserve⟩ := hσ.serve_of_answers hr'
  rw [identity_of_serve hserve.symm]
  intro hid
  obtain rfl : r = r' := List.inj_on_of_nodup_map hrs hr (hσ.mem_of_answers hr') hid
  exact hanswers _ hr'

/-- What a call that is not answered finds in the store is what was there at the start. -/
theorem recordFor_eq (hr : r ∈ rs) (hanswers : ∀ a, ¬ σ.Answers r a) :
    σ.desk.store.recordFor r = s.recordFor r := by
  obtain ⟨fs, hstore, -, -, hfs⟩ := hσ.saved
  have hrecord : σ.desk.store.record? r.identity = s.record? r.identity := by
    rw [hstore]
    exact Store.record?_afterRecords_of_ne fun f hf =>
      hσ.identity_ne hrs hr hanswers ((hfs f).mp hf)
  rw [Store.recordFor, Store.recordFor, hrecord]

omit hrs in
theorem backend_eq : σ.desk.store.backend = s.backend := by
  obtain ⟨fs, hstore, -⟩ := hσ.saved
  rw [hstore, Store.backend_afterRecords]

/-- Nobody is at the procedure of a call that has not looked into the store. -/
theorem inFlight_eq_none (h : (r, t) ∈ σ.work.live) (hp : σ.desk.calls[t]? = some ⟨r, .fresh⟩) :
    σ.desk.inFlight[r.identity]? = none := by
  refine Std.TreeMap.getElem?_eq_none fun hmem => ?_
  obtain ⟨u, c, hc, hid, hunder⟩ := hσ.consistent.mem_inFlight_iff.mp hmem
  rcases hσ.others hc with hended | hlive
  · rw [Phase.underWay_of_ended hended] at hunder
    cases hunder
  · have hrequest : c.request = r :=
      List.inj_on_of_nodup_map hrs (hσ.mem_of_live hlive) (hσ.mem_of_live h) hid
    rw [hrequest] at hlive
    obtain rfl := hσ.ticket_eq hrs hlive h
    cases hc.symm.trans hp
    cases hunder

end Orderly

/-! ### One move -/

/-- The new records of answers were stored if the answers are the same, and the store too. -/
theorem saved_congr {d d' : Desk} {k k' : Work}
    (h : ∃ fs : List Record, d.store = s.afterRecords fs ∧ (fs.map (·.identity)).Nodup ∧
      (∀ f ∈ fs, s.backend.Holds f) ∧ ∀ f, f ∈ fs ↔ ∃ r, Answers ⟨k, d⟩ r (.ok ⟨f, false⟩))
    (hstore : d'.store = d.store)
    (hanswers : ∀ r f, Answers ⟨k', d'⟩ r (.ok ⟨f, false⟩) ↔ Answers ⟨k, d⟩ r (.ok ⟨f, false⟩)) :
    ∃ fs : List Record, d'.store = s.afterRecords fs ∧ (fs.map (·.identity)).Nodup ∧
      (∀ f ∈ fs, s.backend.Holds f) ∧ ∀ f, f ∈ fs ↔ ∃ r, Answers ⟨k', d'⟩ r (.ok ⟨f, false⟩) := by
  simpa only [hstore, hanswers] using h

namespace Orderly

variable {k : Work} {d : Desk} {r : AnalysisRequest} {t : Ticket} {p : Phase} {e : Event}
  {a : Outcome Finding}

/-- A call that starts is answered by nobody, and has not looked into the store. -/
theorem start (hσ : Orderly s asked rs o ⟨k, d⟩) {rest : List AnalysisRequest}
    (hwaiting : k.waiting = r :: rest) :
    Orderly s asked rs o ⟨{ k with waiting := rest, live := k.live ++ [(r, d.nextTicket)] },
      (d.submit r).2⟩ := by
  have hcalls : ∀ t : Ticket, (d.submit r).2.calls[t]? =
      if t = d.nextTicket then some ⟨r, .fresh⟩ else d.calls[t]? := fun t => by
    rw [Desk.submit, getElem?_insert_eq]
  have hkept : ∀ {t : Ticket} {c : Call}, d.calls[t]? = some c →
      (d.submit r).2.calls[t]? = some c := fun {t c} hc => by
    rw [hcalls, if_neg (Nat.ne_of_lt (hσ.consistent.ticket_lt hc)), hc]
  have hold : ∀ {r' : AnalysisRequest} {t : Ticket}, (r', t) ∈ k.live →
      (d.submit r).2.calls[t]? = d.calls[t]? := fun h => by
    obtain ⟨p, hp, -⟩ := hσ.calls h
    exact (hkept hp).trans hp.symm
  refine ⟨hσ.consistent.submit r, ?_, fun {r' t} h => ?_, fun {t c} hc => ?_, hσ.answered,
    saved_congr hσ.saved rfl fun r' f => ?_, hσ.asked⟩
  · have hperm := hσ.perm
    dsimp only at hperm ⊢
    rw [hwaiting] at hperm
    refine List.Perm.trans ?_ hperm
    rw [List.map_append, List.map_singleton, List.append_assoc, List.singleton_append,
      ← List.append_assoc, List.cons_append, ← List.append_assoc]
    exact List.perm_middle
  · rcases List.mem_append.mp h with h | h
    · obtain ⟨p, hp, hcourse⟩ := hσ.calls h
      exact ⟨p, hkept hp, hcourse⟩
    · cases List.mem_singleton.mp h
      exact ⟨.fresh, by rw [hcalls, if_pos rfl], .fresh⟩
  · rw [hcalls] at hc
    split at hc
    · next ht =>
      cases hc
      exact .inr (List.mem_append_right _ (List.mem_singleton.mpr (ht ▸ rfl)))
    · exact (hσ.others hc).imp_right fun h => List.mem_append_left _ h
  · refine or_congr Iff.rfl ⟨?_, ?_⟩
    · rintro ⟨t, h, hdone⟩
      rcases List.mem_append.mp h with h | h
      · exact ⟨t, h, (hold h).symm.trans hdone⟩
      · cases List.mem_singleton.mp h
        rw [hcalls, if_pos rfl] at hdone
        cases hdone
    · rintro ⟨t, h, hdone⟩
      exact ⟨t, List.mem_append_left _ h, hkept hdone⟩

variable (hσ : Orderly s asked rs o ⟨k, d⟩) (hrs : (rs.map (·.identity)).Nodup)

include hσ hrs

/-- What an event does to a pool: the call that it is about is brought on, and every other live call
stays as it is. -/
theorem exists_happen (hlive : (r, e.ticket) ∈ k.live) (hcall : d.calls[e.ticket]? = some ⟨r, p⟩)
    (hfits : e.fits p = true) (hdrop : ∀ t, e ≠ .drop t)
    (hconclude : ∀ t x, e = .conclude t x → x = o r)
    (hadmits : d.store.backend.Admits (.happen e)) :
    ∃ q, Desk.BringsOn d s r (o r) e.ticket p q (d.step e) ∧
      (∀ {r' : AnalysisRequest} {t : Ticket}, (r', t) ∈ k.live → t ≠ e.ticket →
        (d.step e).calls[t]? = d.calls[t]?) ∧ ∀ a, ¬ Answers ⟨k, d⟩ r a := by
  obtain ⟨p', hp', hcourse⟩ := hσ.calls hlive
  cases hcall.symm.trans hp'
  have hanswers : ∀ a, ¬ Answers ⟨k, d⟩ r a := fun a ha => by
    rw [hσ.phase_of_answers hrs hlive hcall ha] at hfits
    cases e <;> cases hfits
  obtain ⟨q, hq⟩ := Desk.exists_bringsOn hσ.consistent
    (hσ.recordFor_eq hrs (hσ.mem_of_live hlive) hanswers) hσ.backend_eq hcall hcourse
    (fun hp => hσ.inFlight_eq_none hrs hlive (hp ▸ hcall)) hfits hdrop hconclude
    (hσ.backend_eq ▸ hadmits)
  refine ⟨q, hq, fun {r' t} h ht => ?_, hanswers⟩
  rcases hq.stepped.calls_ne ht with heq | ⟨w, l, hw, hqueued, -⟩
  · exact heq
  · -- no live call waits for a lock
    obtain ⟨p', hp', hcourse'⟩ := hσ.calls h
    cases hw.symm.trans hp'
    dsimp only at hqueued
    rw [hqueued] at hcourse'
    cases hcourse'

omit hrs in
/-- What is answered after an event was answered before, or is what its call answers. -/
theorem answers_happen_iff {d' : Desk} {q : Phase} (hlive : (r, t) ∈ k.live)
    (hself : d'.calls[t]? = some ⟨r, q⟩)
    (hother : ∀ {r' : AnalysisRequest} {u : Ticket}, (r', u) ∈ k.live → u ≠ t →
      d'.calls[u]? = d.calls[u]?)
    (hanswers : ∀ a, ¬ Answers ⟨k, d⟩ r a) (r' : AnalysisRequest) (a : Outcome Finding) :
    Answers ⟨k, d'⟩ r' a ↔ Answers ⟨k, d⟩ r' a ∨ r' = r ∧ q = .done a := by
  constructor
  · rintro (h | ⟨u, h, hdone⟩)
    · exact .inl (.inl h)
    · by_cases hu : u = t
      · subst hu
        cases hself.symm.trans hdone
        exact .inr ⟨rfl, rfl⟩
      · exact .inl (.inr ⟨u, h, (hother h hu).symm.trans hdone⟩)
  · rintro ((h | ⟨u, h, hdone⟩) | ⟨rfl, rfl⟩)
    · exact .inl h
    · refine .inr ⟨u, h, (hother h ?_).trans hdone⟩
      rintro rfl
      obtain rfl := hσ.request_eq hlive h
      exact hanswers a (.inr ⟨_, h, hdone⟩)
    · exact .inr ⟨_, hlive, hself⟩

/-- A call that answers a new record has stored it after the others. -/
theorem saved_put {d' : Desk} {f : Record} (hlive : (r, t) ∈ k.live)
    (hanswers : ∀ a, ¬ Answers ⟨k, d⟩ r a) (hid : f.identity = r.identity)
    (hholds : s.backend.Holds f) (hput : d'.store = (d.store.putRecord f).2)
    (hnew : ∀ r' a, Answers ⟨k, d'⟩ r' a ↔
      Answers ⟨k, d⟩ r' a ∨ r' = r ∧ Phase.done (.ok ⟨f, false⟩) = .done a) :
    ∃ fs : List Record, d'.store = s.afterRecords fs ∧ (fs.map (·.identity)).Nodup ∧
      (∀ f ∈ fs, s.backend.Holds f) ∧ ∀ f, f ∈ fs ↔ ∃ r, Answers ⟨k, d'⟩ r (.ok ⟨f, false⟩) := by
  obtain ⟨fs, hfs, hdistinct, hall, hiff⟩ := hσ.saved
  refine ⟨fs ++ [f], ?_, ?_, ?_, fun g => ?_⟩
  · rw [Store.afterRecords_append, ← hfs]
    exact hput
  · rw [List.map_append, List.map_singleton]
    refine List.nodup_append.mpr ⟨hdistinct, List.nodup_singleton _, fun p hp p' hp' heq => ?_⟩
    obtain ⟨g, hg, rfl⟩ := List.mem_map.mp hp
    rw [List.mem_singleton.mp hp', hid] at heq
    exact hσ.identity_ne hrs (hσ.mem_of_live hlive) hanswers ((hiff g).mp hg) heq.symm
  · exact List.forall_mem_append.mpr ⟨hall, List.forall_mem_singleton.mpr hholds⟩
  · simp only [hnew, List.mem_append, List.mem_singleton, hiff, exists_or]
    refine or_congr Iff.rfl ⟨?_, ?_⟩
    · rintro rfl
      exact ⟨r, rfl, rfl⟩
    · rintro ⟨_, -, heq⟩
      cases heq
      rfl

theorem happen (hlive : (r, e.ticket) ∈ k.live) (hcall : d.calls[e.ticket]? = some ⟨r, p⟩)
    (hfits : e.fits p = true) (hdrop : ∀ t, e ≠ .drop t)
    (hconclude : ∀ t x, e = .conclude t x → x = o r)
    (hadmits : d.store.backend.Admits (.happen e)) : Orderly s asked rs o ⟨k, d.step e⟩ := by
  obtain ⟨q, hq, hother, hanswers⟩ :=
    hσ.exists_happen hrs hlive hcall hfits hdrop hconclude hadmits
  have hself : (d.step e).calls[e.ticket]? = some ⟨r, q⟩ := hq.stepped.calls_self
  have hnew := hσ.answers_happen_iff hlive hself hother hanswers
  refine ⟨hq.stepped.consistent, hσ.perm, fun {r' t} h => ?_, fun {t c} hc => ?_, hσ.answered, ?_,
    ?_⟩
  · by_cases ht : t = e.ticket
    · subst ht
      obtain rfl := hσ.request_eq h hlive
      exact ⟨q, hself, hq.course⟩
    · obtain ⟨p', hp', hcourse⟩ := hσ.calls h
      exact ⟨p', (hother h ht).trans hp', hcourse⟩
  · rcases hq.stepped.origin hc with ⟨rfl, rfl⟩ | ⟨-, w, hw, hrequest, rfl | ⟨l, hqueued, -⟩⟩
    · exact .inr hlive
    · exact hσ.others hw
    · rw [← hrequest]
      refine .inr ((hσ.others hw).resolve_left fun hended => ?_)
      rw [hqueued] at hended
      cases hended
  · rcases hq.writes.store with ⟨f, rfl, hid, hholds, hput⟩ | ⟨hstore, hq'⟩
    · exact hσ.saved_put hrs hlive hanswers hid hholds (by rw [hput]) hnew
    · refine saved_congr hσ.saved hstore fun r' f => (hnew r' _).trans (or_iff_left ?_)
      exact fun h => hq' f h.2
  · obtain ⟨new, hasked, hnone⟩ := hσ.asked
    rcases hq.writes.asked with heq | ⟨heq, hmissing⟩
    · exact ⟨new, heq.trans hasked, hnone⟩
    · refine ⟨r :: new, heq.trans (congrArg (r :: ·) hasked), List.forall_mem_cons.mpr ⟨?_, hnone⟩⟩
      exact ⟨hσ.mem_of_live hlive, hmissing⟩

section Collect

variable {before after : List (AnalysisRequest × Ticket)} (hlive : k.live = before ++ (r, t) :: after)

include hlive

/-- The calls that stay live when the answer of one is taken are those with other tickets. -/
theorem mem_others_iff {r' : AnalysisRequest} {u : Ticket} :
    (r', u) ∈ before ++ after ↔ (r', u) ∈ k.live ∧ u ≠ t := by
  have hmem : (r, t) ∈ k.live := by simp [hlive]
  constructor
  · intro h
    have h' : (r', u) ∈ k.live := by
      rw [hlive]
      exact (List.mem_append.mp h).elim (List.mem_append_left _)
        fun h => List.mem_append_right _ (List.mem_cons_of_mem _ h)
    refine ⟨h', ?_⟩
    rintro rfl
    obtain rfl := hσ.request_eq h' hmem
    have hdistinct := (List.nodup_append.mp (List.nodup_append.mp (hσ.nodup hrs)).2.1).1
    dsimp only at hdistinct
    rw [hlive] at hdistinct
    exact (List.nodup_cons.mp (List.nodup_middle.mp hdistinct.of_map)).1 h
  · rintro ⟨h, hu⟩
    rw [hlive] at h
    refine List.mem_append.mpr ((List.mem_append.mp h).imp_right fun h => ?_)
    refine (List.mem_cons.mp h).resolve_left ?_
    rintro ⟨⟩
    exact hu rfl

omit hrs in
/-- A call whose answer is taken is counted with the answered ones. -/
theorem perm_collect (a : Outcome Finding) :
    (k.waiting ++ ((before ++ after).map Prod.fst ++
      (k.answered ++ [(r, a)]).map Prod.fst)).Perm rs := by
  have hperm := hσ.perm
  dsimp only at hperm
  rw [hlive] at hperm
  refine (List.Perm.append_left _ ?_).trans hperm
  simp only [List.map_append, List.map_cons, List.map_nil]
  rw [← List.append_assoc, List.append_assoc _ (r :: _), List.cons_append]
  refine (List.perm_append_singleton r _).trans ?_
  rw [List.append_assoc]
  exact List.perm_middle.symm

/-- Taking the answer of a call changes nothing about what is answered. -/
theorem answers_collect_iff (hdone : d.calls[t]? = some ⟨r, .done a⟩) (r' : AnalysisRequest)
    (a' : Outcome Finding) :
    Answers ⟨{ k with live := before ++ after, answered := k.answered ++ [(r, a)] }, d.forget t⟩
      r' a' ↔ Answers ⟨k, d⟩ r' a' := by
  have hothers : ∀ {r' : AnalysisRequest} {u : Ticket},
      (r', u) ∈ before ++ after ↔ (r', u) ∈ k.live ∧ u ≠ t := hσ.mem_others_iff hrs hlive
  constructor
  · rintro (h | ⟨u, h, hcall⟩)
    · rcases List.mem_append.mp h with h | h
      · exact .inl h
      · cases List.mem_singleton.mp h
        exact .inr ⟨t, by simp [hlive], hdone⟩
    · obtain ⟨h, hu⟩ := hothers.mp h
      rw [Desk.calls_forget, if_neg hu] at hcall
      exact .inr ⟨u, h, hcall⟩
  · rintro (h | ⟨u, h, hcall⟩)
    · exact .inl (List.mem_append_left _ h)
    · by_cases hu : u = t
      · subst hu
        cases hdone.symm.trans hcall
        exact .inl (List.mem_append_right _ (List.mem_singleton_self _))
      · refine .inr ⟨u, hothers.mpr ⟨h, hu⟩, ?_⟩
        rw [Desk.calls_forget, if_neg hu]
        exact hcall

/-- The answer of a call is taken, and the call is forgotten. -/
theorem collect (hanswer : d.answer? t = some a) :
    Orderly s asked rs o ⟨{ k with live := before ++ after, answered := k.answered ++ [(r, a)] },
      d.forget t⟩ := by
  have hmem : (r, t) ∈ k.live := by simp [hlive]
  obtain ⟨p, hp, -⟩ := hσ.calls hmem
  obtain ⟨r₀, hdone⟩ := Desk.answer?_eq_some_iff.mp hanswer
  cases hp.symm.trans hdone
  -- only the call that is forgotten has left the desk, and its answer is with the others
  refine ⟨hσ.consistent.forget hdone rfl, hσ.perm_collect hlive a, fun {r' u} h => ?_,
    fun {u c} hc => ?_, fun {r' a'} h => ?_,
    saved_congr hσ.saved rfl fun r' f => hσ.answers_collect_iff hrs hlive hdone r' _, hσ.asked⟩
  · obtain ⟨h, hu⟩ := (hσ.mem_others_iff hrs hlive).mp h
    obtain ⟨p, hp, hcourse⟩ := hσ.calls h
    exact ⟨p, by rw [Desk.calls_forget, if_neg hu, hp], hcourse⟩
  · rw [Desk.calls_forget] at hc
    split at hc
    · cases hc
    · next hu =>
      exact (hσ.others hc).imp_right fun h => (hσ.mem_others_iff hrs hlive).mpr ⟨h, hu⟩
  · rcases List.mem_append.mp h with h | h
    · exact hσ.answered h
    · cases List.mem_singleton.mp h
      exact hσ.serve_of_answers (.inr ⟨t, hmem, hdone⟩)

end Collect

end Orderly

/-- A move keeps a pool orderly. -/
theorem Orderly.move (hσ : σ.Orderly s asked rs o) (hrs : (rs.map (·.identity)).Nodup)
    (h : Move o σ τ) : τ.Orderly s asked rs o := by
  cases h with
  | start _ hwaiting => exact hσ.start hwaiting
  | happen hlive hcall hfits hdrop hconclude hadmits =>
    exact hσ.happen hrs hlive hcall hfits hdrop hconclude hadmits
  | collect hlive hanswer => exact hσ.collect hrs hlive hanswer

theorem Orderly.run (hσ : σ.Orderly s asked rs o) (hrs : (rs.map (·.identity)).Nodup)
    (h : Run o σ τ) : τ.Orderly s asked rs o := by
  induction h with
  | refl => exact hσ
  | tail _ hmove ih => exact ih.move hrs hmove

/-! ### The end -/

/-- How many events are ahead of a call of a desk. -/
def ahead (d : Desk) (t : Ticket) : Nat :=
  ((d.calls[t]?).map fun c => c.phase.ahead).getD 0

/-- A bound of the moves ahead of a pool: a call starts, at most four events happen to it, and its
answer is taken. -/
def left (σ : Pool) : Nat :=
  6 * σ.work.waiting.length + (σ.work.live.map fun x => ahead σ.desk x.2 + 1).sum

theorem ahead_eq {d : Desk} {t : Ticket} {c : Call} (h : d.calls[t]? = some c) :
    ahead d t = c.phase.ahead := by
  rw [ahead, h]
  rfl

/-- Every move leaves fewer moves ahead. -/
theorem Orderly.left_lt (hσ : σ.Orderly s asked rs o) (hrs : (rs.map (·.identity)).Nodup)
    (h : Move o σ τ) : τ.left < σ.left := by
  cases h with
  | @start k d r rest _ hwaiting =>
    have hcalls : ∀ t : Ticket, (d.submit r).2.calls[t]? =
        if t = d.nextTicket then some ⟨r, .fresh⟩ else d.calls[t]? := fun t => by
      rw [Desk.submit, getElem?_insert_eq]
    have hlive : k.live.map (fun x => ahead (d.submit r).2 x.2 + 1) =
        k.live.map fun x => ahead d x.2 + 1 := by
      refine List.map_congr_left fun x hx => ?_
      obtain ⟨p, hp, -⟩ := hσ.calls (r := x.1) (t := x.2) hx
      rw [ahead, ahead, hcalls, if_neg (Nat.ne_of_lt (hσ.consistent.ticket_lt hp))]
    have hnew : ahead (d.submit r).2 d.nextTicket = 4 :=
      ahead_eq (c := ⟨r, .fresh⟩) (by rw [hcalls, if_pos rfl])
    simp only [left, hwaiting, List.map_append, List.map_singleton, List.sum_append,
      List.sum_singleton, hlive, hnew, List.length_cons]
    omega
  | @happen k d r p e hlive hcall hfits hdrop hconclude hadmits =>
    obtain ⟨q, hq, hother, -⟩ :=
      hσ.exists_happen hrs hlive hcall hfits hdrop hconclude hadmits
    have hself : ahead (d.step e) e.ticket < ahead d e.ticket := by
      rw [ahead_eq hq.stepped.calls_self, ahead_eq hcall]
      exact hq.ahead_lt
    refine Nat.add_lt_add_left (List.sum_lt_sum _ _ (fun x hx => ?_) ⟨_, hlive, ?_⟩) _
    · by_cases hx' : x.2 = e.ticket
      · rw [hx']
        exact Nat.succ_le_succ (Nat.le_of_lt hself)
      · rw [ahead, ahead, hother (show (x.1, x.2) ∈ k.live from hx) hx']
    · exact Nat.succ_lt_succ hself
  | @collect k d r t a before after hlive hanswer =>
    have hle : ∀ x ∈ before ++ after, ahead (d.forget t) x.2 + 1 ≤ ahead d x.2 + 1 := fun x _ => by
      rw [ahead, ahead, Desk.calls_forget]
      split
      · exact Nat.succ_le_succ (Nat.zero_le _)
      · exact Nat.le_refl _
    have hsum := List.sum_le_sum hle
    simp only [left, hlive, List.map_append, List.sum_append, List.map_cons, List.sum_cons] at hsum ⊢
    omega

theorem fixed_of_move (h : Move o σ τ) :
    τ.work.width = σ.work.width ∧ τ.work.close = σ.work.close := by
  cases h <;> exact ⟨rfl, rfl⟩

/-- Moves change neither the room for calls nor what is made of their answers. -/
theorem fixed_of_run (h : Run o σ τ) :
    τ.work.width = σ.work.width ∧ τ.work.close = σ.work.close := by
  induction h with
  | refl => exact ⟨rfl, rfl⟩
  | tail _ hmove ih =>
    obtain ⟨hwidth, hclose⟩ := fixed_of_move hmove
    exact ⟨hwidth.trans ih.1, hclose.trans ih.2⟩

/-- Moves leave fewer moves ahead, unless there are none. -/
theorem Orderly.eq_or_left_lt (hσ : σ.Orderly s asked rs o) (hrs : (rs.map (·.identity)).Nodup)
    (h : Run o σ τ) : σ = τ ∨ τ.left < σ.left := by
  induction h with
  | refl => exact .inl rfl
  | tail hrun hmove ih =>
    have hlt := (hσ.run hrs hrun).left_lt hrs hmove
    rcases ih with rfl | hlt'
    · exact .inr hlt
    · exact .inr (hlt.trans hlt')

/-- A pool with room for a call can move until all its calls are answered. -/
theorem Orderly.exists_move (hσ : σ.Orderly s asked rs o) (hwidth : 0 < σ.work.width)
    (h : ¬ σ.Finished) : ∃ τ, Move o σ τ := by
  obtain ⟨k, d⟩ := σ
  cases hlive : k.live with
  | nil =>
    cases hwaiting : k.waiting with
    | nil => exact absurd ⟨hlive, hwaiting⟩ h
    | cons r rest =>
      exact ⟨_, .start (by rw [hlive]; exact hwidth) hwaiting⟩
  | cons x live =>
    obtain ⟨r, t⟩ := x
    have hmem : (r, t) ∈ k.live := by simp [hlive]
    obtain ⟨p, hp, hcourse⟩ := hσ.calls hmem
    have hadmits : ∀ e : Event, (∀ t now, e = .save t now → now.Valid) →
        d.store.backend.Admits (.happen e) := fun e he => by
      cases d.store.backend with
      | memory => trivial
      | ledger =>
        cases e with
        | save t now => exact he t now rfl
        | _ => trivial
    cases hcourse with
    | fresh =>
      exact ⟨_, .happen (e := .look t) hmem hp rfl (fun _ h => by cases h)
        (fun _ _ h => by cases h) (hadmits _ fun _ _ h => by cases h)⟩
    | holding _ =>
      exact ⟨_, .happen (e := .recheck t 0) hmem hp rfl (fun _ h => by cases h)
        (fun _ _ h => by cases h) (hadmits _ fun _ _ h => by cases h)⟩
    | analyzing _ =>
      refine ⟨_, .happen (e := .conclude t (o r)) hmem hp rfl (fun _ h => by cases h)
        (fun _ _ h => ?_) (hadmits _ fun _ _ h => by cases h)⟩
      cases h
      rfl
    | storing _ _ =>
      refine ⟨_, .happen (e := .save t ⟨0, 0⟩) hmem hp rfl (fun _ h => by cases h)
        (fun _ _ h => by cases h) (hadmits _ fun _ _ h => ?_)⟩
      cases h
      exact Instant.valid_zero
    | done now =>
      have hfirst : k.live = [] ++ (r, t) :: live := hlive
      exact ⟨_, .collect hfirst (Desk.answer?_eq_some_iff.mpr ⟨r, hp⟩)⟩

/-- However far a pool with room for a call has come, it can come to its end. -/
theorem Orderly.exists_finished (hσ : σ.Orderly s asked rs o) (hrs : (rs.map (·.identity)).Nodup)
    (hwidth : 0 < σ.work.width) : ∃ τ, Run o σ τ ∧ τ.Finished := by
  generalize hn : σ.left = n
  induction n using Nat.strong_induction_on generalizing σ with
  | _ n ih =>
    by_cases hfinished : σ.Finished
    · exact ⟨σ, .refl, hfinished⟩
    · obtain ⟨ρ, hmove⟩ := hσ.exists_move hwidth hfinished
      obtain ⟨τ, hrun, hτ⟩ := ih _ (hn ▸ hσ.left_lt hrs hmove) (hσ.move hrs hmove)
        ((fixed_of_move hmove).1 ▸ hwidth) rfl
      exact ⟨τ, .head hmove hrun, hτ⟩

/-- A pool whose calls all wait. -/
def begun (width : Nat) (rs : List AnalysisRequest) (close : List Answered → Reply) (d : Desk) :
    Pool :=
  ⟨⟨width, rs, [], [], close⟩, d⟩

theorem left_begun (width : Nat) (rs : List AnalysisRequest) (close : List Answered → Reply)
    (d : Desk) : (begun width rs close d).left = 6 * rs.length := by
  simp [left, begun]

/-- A pool begins in order, if no call is under way. -/
theorem orderly_begun {d : Desk} (hd : d.Quiet) (width : Nat) (rs : List AnalysisRequest)
    (close : List Answered → Reply) (o : AnalysisRequest → Outcome Analysis) :
    (begun width rs close d).Orderly d.store d.asked rs o where
  consistent := hd.consistent
  perm := by simp [begun]
  calls h := by cases h
  others hc := .inl (hd.ended hc)
  answered h := by cases h
  saved := by
    refine ⟨[], rfl, List.nodup_nil, fun f hf => (by cases hf), fun f => ?_⟩
    refine iff_of_false (fun hf => by cases hf) ?_
    rintro ⟨r, h | ⟨t, h, -⟩⟩ <;> cases h
  asked := ⟨[], rfl, fun r hr => (by cases hr)⟩

/-- What a pool has come to by its end: every call is answered as a call is that is alone, and the
store has the new records of the answers and is otherwise as it was. -/
structure Settled (s : Store) (asked rs : List AnalysisRequest)
    (o : AnalysisRequest → Outcome Analysis) (answer : AnalysisRequest → Outcome Finding)
    (τ : Pool) : Prop where
  answered : τ.work.answered.Perm (rs.map fun r => (r, answer r))
  served : ∀ r ∈ rs, ∃ now, answer r = (serve s r (o r) now).1
  saved : ∀ r ∈ rs, ∀ f, answer r = .ok ⟨f, false⟩ →
    τ.desk.store.record? r.identity = .ok (some f)
  kept : ∀ i, (∀ r ∈ rs, r.identity = i → ∀ f, answer r ≠ .ok ⟨f, false⟩) →
    τ.desk.store.record? i = s.record? i
  written : ∃ fs, τ.desk.store = s.afterRecords fs ∧ (∀ f ∈ fs, s.backend.Holds f) ∧
    ∀ f, f ∈ fs ↔ ∃ r ∈ rs, answer r = .ok ⟨f, false⟩
  asked : ∃ new, τ.desk.asked = new ++ asked ∧ ∀ r ∈ new, r ∈ rs ∧ s.recordFor r = .ok none
  quiet : τ.desk.Quiet

theorem Orderly.exists_settled (hσ : σ.Orderly s asked rs o) (hrs : (rs.map (·.identity)).Nodup)
    (h : σ.Finished) : ∃ answer, σ.Settled s asked rs o answer := by
  have hperm : (σ.work.answered.map Prod.fst).Perm rs := by simpa [h.1, h.2] using hσ.perm
  have hdistinct : rs.Nodup := hrs.of_map
  have hanswered : ∀ r : AnalysisRequest, ∃ x, r ∈ rs → (r, x) ∈ σ.work.answered := fun r => by
    by_cases hr : r ∈ rs
    · obtain ⟨⟨r', x⟩, hx, rfl⟩ := List.mem_map.mp (hperm.mem_iff.mpr hr)
      exact ⟨x, fun _ => hx⟩
    · exact ⟨.error (.analysis .noProvider), fun hr' => absurd hr' hr⟩
  choose answer hanswer using hanswered
  have hanswers : ∀ r a, σ.Answers r a ↔ r ∈ rs ∧ answer r = a := by
    intro r a
    constructor
    · rintro (hra | ⟨t, hlive, -⟩)
      · have hr := hσ.mem_of_answered hra
        refine ⟨hr, ?_⟩
        have hfst : (σ.work.answered.map Prod.fst).Nodup := hperm.nodup_iff.mpr hdistinct
        exact congrArg Prod.snd (List.inj_on_of_nodup_map hfst (hanswer r hr) hra rfl)
      · rw [h.1] at hlive
        cases hlive
    · rintro ⟨hr, rfl⟩
      exact .inl (hanswer r hr)
  obtain ⟨fs, hstore, hfs, hholds, hmem⟩ := hσ.saved
  have hmem' : ∀ f, f ∈ fs ↔ ∃ r ∈ rs, answer r = .ok ⟨f, false⟩ := fun f => by
    simp only [hmem, hanswers]
  have hserved : ∀ r ∈ rs, ∃ now, answer r = (serve s r (o r) now).1 := fun r hr =>
    hσ.answered (hanswer r hr)
  have hidentity : ∀ r ∈ rs, ∀ f, answer r = .ok ⟨f, false⟩ → f.identity = r.identity := by
    intro r hr f hf
    obtain ⟨now, hserve⟩ := hserved r hr
    exact identity_of_serve (hserve.symm.trans hf)
  refine ⟨answer, ?_, hserved, fun r hr f hf => ?_, fun i hi => ?_, ⟨fs, hstore, hholds, hmem'⟩, hσ.asked,
    hσ.consistent, fun {t c} hc => ?_⟩
  · have hnodup : (rs.map fun r => (r, answer r)).Nodup :=
      hdistinct.map fun r r' heq => congrArg Prod.fst heq
    refine ((List.subperm_of_subset hnodup fun x hx => ?_).perm_of_length_le ?_).symm
    · obtain ⟨r, hr, rfl⟩ := List.mem_map.mp hx
      exact hanswer r hr
    · rw [List.length_map, ← hperm.length_eq, List.length_map]
  · rw [hstore, ← hidentity r hr f hf]
    exact Store.record?_afterRecords_of_mem hfs hholds ((hmem' f).mpr ⟨r, hr, hf⟩)
  · rw [hstore]
    refine Store.record?_afterRecords_of_ne fun f hf heq => ?_
    obtain ⟨r, hr, hrf⟩ := (hmem' f).mp hf
    exact hi r hr ((hidentity r hr f hrf).symm.trans heq.symm) f hrf
  · refine (hσ.others hc).resolve_right fun hlive => ?_
    rw [h.1] at hlive
    cases hlive

end Pool

end TierLineage
