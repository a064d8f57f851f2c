import TierLineage.Proofs.Flight.Works

/-!
# Every call is served at one moment

`Serves` says what a call does that has the store for itself: it answers from the store, or it
answers with a new record that it puts there, or it fails and leaves the store alone.  The calls of
a run are served one after the other in the order of their answers, whatever the order of the events
is: a call has its turn at the moment of its answer, and the store is at every moment what the calls
answered so far have made of it.
-/

namespace TierLineage.Flight

open TierLineage.Digest

/-- What a call that runs alone on a store answers, and what it leaves there. -/
structure Serves (r : AnalysisRequest) (s : Store) (answer : Outcome Finding) (s' : Store) :
    Prop where
  /-- A record that is answered is of the procedure and of the text. -/
  about : ∀ {f : Finding}, answer = .ok f → f.record.identity = r.identity ∧
    f.record.definitionHash = contentHash r.definition
  /-- A record that was in the store already stands there, and stays. -/
  cached : ∀ {f : Finding}, answer = .ok f → f.cached = true →
    s.record? r.identity = .ok (some f.record) ∧ s' = s
  /-- A new record takes its place in the store, and nothing else changes. -/
  computed : ∀ {f : Finding}, answer = .ok f → f.cached = false →
    s.putRecord f.record = (.ok (), s') ∧ s'.record? r.identity = .ok (some f.record) ∧
      ∀ p ≠ r.identity, s'.record? p = s.record? p
  /-- A failure leaves the store alone. -/
  failed : ∀ {e : Failure}, answer = .error e → s' = s
  /-- Whatever else is answered for a proper name, the store has no record of the text. -/
  missed : (∀ f : Finding, answer = .ok f → f.cached = false) → r.identity.validate = .ok () →
    ∀ f : Record, s.record? r.identity = .ok (some f) →
      f.definitionHash ≠ contentHash r.definition

/-- A call with its answer. -/
structure Answered where
  ticket : Ticket
  request : AnalysisRequest
  answer : Outcome Finding

/-- Calls that are served one after the other, from a first store to a last one. -/
inductive Served : Store → List Answered → Store → Prop where
  | nil (s : Store) : Served s [] s
  | snoc {s s' s'' : Store} {as : List Answered} {a : Answered} (h : Served s as s')
      (ha : Serves a.request s' a.answer s'') : Served s (as ++ [a]) s''

/-- What a call in a phase is answered. -/
def Phase.answer? : Phase → Option (Outcome Finding)
  | done o => some o
  | _ => none

theorem Phase.answer?_eq_none {p : Phase} (h : ∀ o, p ≠ .done o) : p.answer? = none := by
  cases p with
  | done o => exact absurd rfl (h o)
  | _ => rfl

namespace Desk

/-- The call that a move answers. -/
def answered? (d : Desk) : Move → Option Answered
  | .submit _ => none
  | .happen e =>
    match d.calls[e.ticket]?, (d.step e).answer? e.ticket with
    | some c, some o => if c.phase.ended then none else some ⟨e.ticket, c.request, o⟩
    | _, _ => none

/-- The calls that moves answer, in the order of their answers. -/
def answers (d : Desk) : List Move → List Answered
  | [] => []
  | m :: ms => (d.answered? m).toList ++ (d.move m).answers ms

/-- What the calls answered so far have made of a store. -/
structure Linearized (s : Store) (as : List Answered) (d : Desk) : Prop where
  /-- They were served one after the other. -/
  served : Served s as d.store
  /-- Each of them was served once. -/
  nodup : (as.map Answered.ticket).Nodup
  /-- They are the calls that are answered. -/
  mem_iff : ∀ {a : Answered}, a ∈ as ↔
    ∃ c, d.calls[a.ticket]? = some c ∧ c.request = a.request ∧ c.phase = .done a.answer

variable {d : Desk} {s : Store} {c : Call} {e : Event}

/-! ### One answer -/

theorem answer?_eq {t : Ticket} (hc : d.calls[t]? = some c) :
    d.answer? t = c.phase.answer? := by
  obtain ⟨request, phase⟩ := c
  cases phase <;> simp [answer?, hc, Phase.answer?]

/-- The store has no record of a text that a look into it does not find. -/
theorem ne_of_stored?_eq_none {p : ProcedureId} {digest : String}
    (h : d.stored? p digest = .ok none) {f : Record} (hf : d.store.record? p = .ok (some f)) :
    f.definitionHash ≠ digest := by
  rintro rfl
  rw [stored?, hf] at h
  simp [Except.map, Option.filter] at h

/-- A record from the store serves a call. -/
theorem Works.serves_cached (hd : d.Works) {r : AnalysisRequest} {f : Record}
    (hf : d.stored? r.identity (contentHash r.definition) = .ok (some f)) :
    Serves r d.store (.ok ⟨f, true⟩) d.store := by
  obtain ⟨hrecord, hhash⟩ := stored?_eq_some hf
  constructor
  · rintro f' ⟨⟩
    exact ⟨hd.sound.identity_eq hrecord, hhash⟩
  · rintro f' ⟨⟩ -
    exact ⟨hrecord, rfl⟩
  · rintro f' ⟨⟩ hcached
    cases hcached
  · rintro e ⟨⟩
  · intro hno
    cases hno _ rfl

/-- A failure serves a call whose text is not in the store. -/
theorem serves_failed {r : AnalysisRequest} {e : Failure}
    (h : r.identity.validate = .ok () →
      d.stored? r.identity (contentHash r.definition) = .ok none) :
    Serves r d.store (.error e) d.store := by
  constructor
  · rintro f ⟨⟩
  · rintro f ⟨⟩
  · rintro f ⟨⟩
  · exact fun _ => rfl
  · exact fun _ hvalid f hf => ne_of_stored?_eq_none (h hvalid) hf

/-- A new record serves a call whose text is not in the store. -/
theorem Works.serves_computed {r : AnalysisRequest} {a : Analysis} {now : Instant} {s' : Store}
    (hholds : d.store.backend.Holds (recordOf r a now))
    (h : d.stored? r.identity (contentHash r.definition) = .ok none)
    (hput : d.store.putRecord (recordOf r a now) = (.ok (), s')) :
    Serves r d.store (.ok ⟨recordOf r a now, false⟩) s' := by
  obtain ⟨-, hself, hother⟩ := Store.record?_of_putRecord hholds hput
  constructor
  · rintro f ⟨⟩
    exact ⟨rfl, rfl⟩
  · rintro f ⟨⟩ hcached
    cases hcached
  · rintro f ⟨⟩ -
    exact ⟨hput, hself, hother⟩
  · rintro e ⟨⟩
  · exact fun _ _ f hf => ne_of_stored?_eq_none h hf

/-- The event that answers a call serves it, on the store of that moment. -/
theorem Works.serves (hd : d.Works) (hc : d.calls[e.ticket]? = some c)
    (he : d.store.backend.Admits (.happen e)) (hc' : c.phase.ended = false) {o : Outcome Finding}
    {s : Store} {asked : List AnalysisRequest}
    (h : Turn d c.request e c.phase (.done o) s asked) : Serves c.request d.store o s := by
  generalize hp : c.phase = p at h hc'
  generalize hq : Phase.done o = q at h
  cases h with
  | idle hfit =>
    subst hq
    cases hc'
  | refused hvalid =>
    cases hq
    exact serves_failed fun hok => by cases hvalid.symm.trans hok
  | unread hs => exact absurd hs (stored?_ne_error hd.sound)
  | found hs =>
    cases hq
    exact hd.serves_cached hs
  | rejected hs =>
    cases hq
    exact serves_failed fun _ => hs
  | unreadAgain hs => exact absurd hs (stored?_ne_error hd.sound)
  | foundAgain hs =>
    cases hq
    exact hd.serves_cached hs
  | failed =>
    cases hq
    exact serves_failed fun _ => hd.missing hc (by rw [hp]; rfl)
  | saved hput =>
    cases hq
    exact serves_computed (Backend.holds_recordOf (hd.takes hc) he _)
      (hd.missing hc (by rw [hp]; rfl)) hput
  | unsaved hput =>
    exact absurd hput (Store.putRecord_ne_error (Backend.holds_recordOf (hd.takes hc) he _))
  | _ => cases hq

/-- An event that does not answer its call leaves the store alone. -/
theorem Turn.store_eq {r : AnalysisRequest} {p q : Phase} {s : Store}
    {asked : List AnalysisRequest} (h : Turn d r e p q s asked)
    (hq : p.ended = true ∨ ∀ o, q ≠ .done o) : s = d.store := by
  cases h with
  | saved hput => exact absurd rfl ((hq.resolve_left (by simp [Phase.ended])) _)
  | unsaved hput => exact absurd rfl ((hq.resolve_left (by simp [Phase.ended])) _)
  | _ => rfl

/-! ### One move -/

/-- A move that answers no call and leaves the store and the answered calls alone. -/
theorem Linearized.idle {as : List Answered} {d' : Desk} (h : Linearized s as d)
    (hstore : d'.store = d.store)
    (hdone : ∀ {t : Ticket} {r : AnalysisRequest} {o : Outcome Finding},
      (∃ c, d'.calls[t]? = some c ∧ c.request = r ∧ c.phase = .done o) ↔
        ∃ c, d.calls[t]? = some c ∧ c.request = r ∧ c.phase = .done o) : Linearized s as d' where
  served := hstore ▸ h.served
  nodup := h.nodup
  mem_iff := h.mem_iff.trans hdone.symm

/-- A new call is not answered. -/
theorem Linearized.submit {as : List Answered} (h : Linearized s as d) (hd : d.Consistent)
    (r : AnalysisRequest) : Linearized s as (d.submit r).2 := by
  refine h.idle rfl fun {t r' o} => ?_
  rw [Desk.submit, getElem?_insert_eq]
  split
  · next ht =>
    subst ht
    constructor
    · rintro ⟨c, hc, -, hdone⟩
      cases hc
      cases hdone
    · rintro ⟨c, hc, -⟩
      exact absurd (hd.ticket_lt hc) (Nat.lt_irrefl _)
  · rfl

/-- An event does not answer other calls than the one it is about. -/
theorem Stepped.done_iff {t u : Ticket} {q : Phase} {d' : Desk} (h : Stepped d t c q d')
    (hu : u ≠ t) {r : AnalysisRequest} {o : Outcome Finding} :
    (∃ c, d'.calls[u]? = some c ∧ c.request = r ∧ c.phase = .done o) ↔
      ∃ c, d.calls[u]? = some c ∧ c.request = r ∧ c.phase = .done o := by
  rcases h.calls_ne hu with heq | ⟨w, l, hw, hq, hw'⟩
  · rw [heq]
  · simp [hw, hw', hq]

/-- The call that an event answers. -/
theorem answered?_eq {q : Phase} (hc : d.calls[e.ticket]? = some c) (hended : c.phase.ended = false)
    (hq : Stepped d e.ticket c q (d.step e)) :
    d.answered? (.happen e) = q.answer?.map fun o => ⟨e.ticket, c.request, o⟩ := by
  have hanswer := answer?_eq hq.calls_self
  simp only [answered?, hc, hanswer]
  cases q.answer? with
  | none => rfl
  | some o => simp [hended]

/-- A call that has not ended is not answered. -/
theorem not_done_of_ended {t : Ticket} (hc : d.calls[t]? = some c) (hended : c.phase.ended = false)
    {r : AnalysisRequest} {o : Outcome Finding} :
    ¬∃ c', d.calls[t]? = some c' ∧ c'.request = r ∧ c'.phase = .done o := by
  rintro ⟨c', hc', -, hdone⟩
  cases hc.symm.trans hc'
  rw [hdone] at hended
  cases hended

/-- An event that answers its call serves it after the calls answered so far. -/
theorem Linearized.snoc {as : List Answered} {d' : Desk} {t : Ticket} {o : Outcome Finding}
    (h : Linearized s as d) (hc : d.calls[t]? = some c) (hended : c.phase.ended = false)
    (hq : Stepped d t c (.done o) d') (hserves : Serves c.request d.store o d'.store) :
    Linearized s (as ++ [⟨t, c.request, o⟩]) d' where
  served := h.served.snoc hserves
  nodup := by
    rw [List.map_append]
    refine List.nodup_append.mpr ⟨h.nodup, by simp, fun t' ht' u hu => ?_⟩
    obtain ⟨a, ha, rfl⟩ := List.mem_map.mp ht'
    rw [List.mem_singleton.mp hu]
    intro hticket
    obtain ⟨c', hc', hrest⟩ := h.mem_iff.mp ha
    rw [hticket] at hc'
    exact not_done_of_ended hc hended ⟨c', hc', hrest⟩
  mem_iff {a} := by
    rw [List.mem_append, List.mem_singleton, h.mem_iff]
    by_cases hu : a.ticket = t
    · rw [hu, or_iff_right (not_done_of_ended hc hended), hq.calls_self]
      obtain ⟨ticket, request, answer⟩ := a
      obtain rfl : ticket = t := hu
      constructor
      · rintro ⟨⟩
        exact ⟨_, rfl, rfl, rfl⟩
      · rintro ⟨c', hc', hrequest, hanswer⟩
        cases hc'
        cases hrequest
        cases hanswer
        rfl
    · rw [hq.done_iff hu, or_iff_left]
      rintro rfl
      exact hu rfl

/-- An event that does not answer its call leaves the calls answered so far alone. -/
theorem Linearized.unanswered {as : List Answered} {d' : Desk} {t : Ticket} {q : Phase}
    (h : Linearized s as d) (hc : d.calls[t]? = some c) (hended : c.phase.ended = false)
    (hq : Stepped d t c q d') (hne : ∀ o, q ≠ .done o) (hstore : d'.store = d.store) :
    Linearized s as d' := by
  refine h.idle hstore fun {u r o} => ?_
  by_cases hu : u = t
  · subst hu
    refine iff_of_false ?_ (not_done_of_ended hc hended)
    rintro ⟨c', hc', -, hdone⟩
    cases hq.calls_self.symm.trans hc'
    exact hne o hdone
  · exact hq.done_iff hu

/-- An event keeps it so that the calls answered so far have made the store what it is. -/
theorem Linearized.step {as : List Answered} (h : Linearized s as d) (hd : d.Works)
    (he : d.store.backend.Admits (.happen e)) :
    Linearized s (as ++ (d.answered? (.happen e)).toList) (d.step e) := by
  cases hc : d.calls[e.ticket]? with
  | none =>
    have hanswered : d.answered? (.happen e) = none := by simp only [answered?, hc]
    rwa [step_of_calls_eq_none hc, hanswered, Option.toList_none, List.append_nil]
  | some c =>
    cases hended : c.phase.ended with
    | true =>
      have hanswered : d.answered? (.happen e) = none := by
        cases ha : (d.step e).answer? e.ticket <;> simp [answered?, hc, ha, hended]
      rwa [step_of_ended hc hended, hanswered, Option.toList_none, List.append_nil]
    | false =>
      obtain ⟨q, hq, hturn⟩ := step_spec hd.consistent hc
      rw [answered?_eq hc hended hq]
      by_cases hdone : ∃ o, q = .done o
      · obtain ⟨o, rfl⟩ := hdone
        exact h.snoc hc hended hq (hd.serves hc he hended hturn)
      · have hne : ∀ o, q ≠ .done o := fun o ho => hdone ⟨o, ho⟩
        rw [Phase.answer?_eq_none hne, Option.map_none, Option.toList_none, List.append_nil]
        exact h.unanswered hc hended hq hne (hturn.store_eq (.inr hne))

/-! ### Runs -/

/-- A move keeps it so that the calls answered so far have made the store what it is. -/
theorem Linearized.move {as : List Answered} (h : Linearized s as d) (hd : d.Works) {m : Move}
    (hm : d.store.backend.Admits m) :
    Linearized s (as ++ (d.answered? m).toList) (d.move m) := by
  cases m with
  | submit r => simpa [answered?, Desk.move] using h.submit hd.consistent r
  | happen e => exact h.step hd hm

theorem Linearized.run {as : List Answered} (h : Linearized s as d) (hd : d.Works)
    {moves : List Move} (hm : ∀ m ∈ moves, d.store.backend.Admits m) :
    Linearized s (as ++ d.answers moves) (d.run moves) := by
  induction moves generalizing d as with
  | nil => simpa [answers, Desk.run] using h
  | cons m ms ih =>
    have hm' := hm m (List.mem_cons_self ..)
    obtain ⟨hd', hbackend⟩ := hd.move hm'
    rw [answers, ← List.append_assoc]
    refine ih (h.move hd hm') hd' fun n hn => ?_
    rw [hbackend]
    exact hm n (List.mem_cons_of_mem m hn)

theorem linearized_empty (policy : InFlightPolicy) (s : Store) :
    Linearized s [] (empty policy s) where
  served := .nil s
  nodup := List.nodup_nil
  mem_iff := by simp [empty]

theorem answers_append (d : Desk) (before after : List Move) :
    d.answers (before ++ after) = d.answers before ++ (d.run before).answers after := by
  induction before generalizing d with
  | nil => rfl
  | cons m ms ih => rw [List.cons_append, answers, answers, ih, List.append_assoc]; rfl

/-- **Linearizability**: in every run on a store that works, and at every moment of it, the calls
answered so far were served one after the other in the order of their answers and have made the
store what it is; what follows only adds to them. -/
theorem linearized_run (policy : InFlightPolicy) {s : Store} (hs : s.Sound)
    {before after : List Move} (hm : ∀ m ∈ before ++ after, s.backend.Admits m) :
    Linearized s ((empty policy s).answers before) ((empty policy s).run before) ∧
      (empty policy s).answers (before ++ after) =
        (empty policy s).answers before ++ ((empty policy s).run before).answers after := by
  refine ⟨?_, answers_append _ _ _⟩
  have hbefore : ∀ m ∈ before, (empty policy s).store.backend.Admits m := fun m hmem =>
    hm m (List.mem_append_left _ hmem)
  exact (linearized_empty policy s).run (works_empty policy hs) hbefore

/-- A call that has the ledger for itself is answered with a new record. -/
theorem linearized_run_sample :
    Linearized (.empty .ledger)
      [⟨0, sampleRequest "a", .ok ⟨recordOf (sampleRequest "a") sampleAnalysis ⟨0, 0⟩, false⟩⟩]
      ((empty .wait (.empty .ledger)).run
        (.submit (sampleRequest "a") :: .happen (.look 0) :: sampleMoves 0)) := by
  have hm : ∀ m ∈ (.submit (sampleRequest "a") :: .happen (.look 0) :: sampleMoves 0) ++ [],
      Backend.ledger.Admits m := by
    intro m hm
    simp only [sampleMoves, List.append_nil, List.mem_cons, List.not_mem_nil, or_false] at hm
    rcases hm with rfl | rfl | rfl | rfl | rfl
    · exact (by decide : (Ledger.recordKey (sampleRequest "a").identity).utf8ByteSize ≤ 511)
    · trivial
    · trivial
    · trivial
    · exact Instant.valid_zero
  exact (linearized_run .wait (Store.sound_empty .ledger) hm).1

end Desk

end TierLineage.Flight
