import TierLineage.Proofs.Flight.SingleFlight
import TierLineage.Proofs.Store.Lineage

/-!
# A desk on a store that works

A store *works* for a desk if every procedure can be looked up in it and every record that comes up
can be written to it.  Then nothing happens to a call that the store is to blame for, and while the
analyst is at work for a call, or its record is not stored yet, no record of its text is in the
store.
-/

namespace TierLineage

open TierLineage.Digest TierLineage.Flight

/-- Whether records of a procedure have a key that a store of a kind takes. -/
def Backend.Takes : Backend → ProcedureId → Prop
  | memory, _ => True
  | ledger, p => (Ledger.recordKey p).utf8ByteSize ≤ Ledger.keyLimit

/-- Whether a store of a kind is up to a move: procedures have keys that are not too long, and
records are stored at moments that dates can have. -/
def Backend.Admits : Backend → Move → Prop
  | memory, _ => True
  | ledger, .submit r => Takes ledger r.identity
  | ledger, .happen (.save _ now) => now.Valid
  | ledger, .happen _ => True

theorem Backend.holds_recordOf {b : Backend} {r : AnalysisRequest} {t : Ticket} {now : Instant}
    (hr : b.Takes r.identity) (hnow : b.Admits (.happen (.save t now))) (a : Analysis) :
    b.Holds (Desk.recordOf r a now) := by
  cases b with
  | memory => trivial
  | ledger => exact ⟨hr, hnow⟩

namespace Flight

/-- Whether the analyst was asked for a call and what it said is not stored. -/
def Phase.owing : Phase → Bool
  | analyzing _ _ => true
  | storing _ _ => true
  | _ => false

theorem Phase.held?_of_owing {p : Phase} (h : p.owing = true) : ∃ l, p.held? = some l := by
  cases p <;> simp_all [owing, held?]

namespace Desk

/-- A desk whose store works, and that asks the analyst only for what is not stored. -/
structure Works (d : Desk) : Prop where
  consistent : d.Consistent
  sound : d.store.Sound
  takes : ∀ {t : Ticket} {c : Call}, d.calls[t]? = some c → d.store.backend.Takes c.request.identity
  missing : ∀ {t : Ticket} {c : Call}, d.calls[t]? = some c → c.phase.owing = true →
    d.stored? c.request.identity (contentHash c.request.definition) = .ok none

variable {d : Desk} {t : Ticket} {c : Call} {e : Event}

/-- A desk without calls works with every sound store. -/
theorem works_empty (policy : InFlightPolicy) {s : Store} (hs : s.Sound) :
    (empty policy s).Works where
  consistent := consistent_empty policy s
  sound := hs
  takes hc := by simp [empty] at hc
  missing hc := by simp [empty] at hc

/-- What is stored of a text is found under its procedure. -/
theorem stored?_eq_some {p : ProcedureId} {digest : String} {f : Record}
    (h : d.stored? p digest = .ok (some f)) :
    d.store.record? p = .ok (some f) ∧ f.definitionHash = digest := by
  rw [stored?] at h
  cases hr : d.store.record? p with
  | error e =>
    rw [hr] at h
    cases h
  | ok o =>
    rw [hr] at h
    obtain ⟨hf, hhash⟩ := Option.filter_eq_some_iff.mp (Except.ok.inj h)
    exact ⟨by rw [hf], by simpa using hhash⟩

theorem stored?_ne_error (hs : d.store.Sound) {p : ProcedureId} {digest : String} {e : Failure} :
    d.stored? p digest ≠ .error e := by
  obtain ⟨o, ho⟩ := hs.record?_eq p
  rw [stored?, ho]
  exact fun h => by cases h

theorem stored?_eq_none (hs : d.store.Sound) {p : ProcedureId} {digest : String}
    (h : ∀ f, d.store.record? p = .ok (some f) → f.definitionHash ≠ digest) :
    d.stored? p digest = .ok none := by
  obtain ⟨o, ho⟩ := hs.record?_eq p
  rw [stored?, ho]
  cases o with
  | none => rfl
  | some f => simp [Except.map, Option.filter, h f ho]

/-- The look into the store depends on what is found there. -/
theorem stored?_congr {d' : Desk} {p : ProcedureId} (h : d'.store.record? p = d.store.record? p)
    (digest : String) : d'.stored? p digest = d.stored? p digest := by
  rw [stored?, stored?, h]

/-- What an event does to the store: nothing, or it puts the new record of the call there. -/
theorem Works.turn_store (hd : d.Works) (hc : d.calls[e.ticket]? = some c)
    (he : d.store.backend.Admits (.happen e)) {q : Phase} {s : Store} {asked : List AnalysisRequest}
    (h : Turn d c.request e c.phase q s asked) :
    s = d.store ∨ ∃ now l a, c.phase = .storing l a ∧
      q = .done (.ok ⟨recordOf c.request a now, false⟩) ∧
      d.store.backend.Holds (recordOf c.request a now) ∧
      d.store.putRecord (recordOf c.request a now) = (.ok (), s) := by
  generalize hp : c.phase = p at h
  cases h with
  | saved hput =>
    exact .inr ⟨_, _, _, rfl, rfl, Backend.holds_recordOf (hd.takes hc) he _, hput⟩
  | unsaved hput =>
    exact absurd hput (Store.putRecord_ne_error (Backend.holds_recordOf (hd.takes hc) he _))
  | _ => exact .inl rfl

/-- What an event does to the records: at most the one of the call's procedure changes, and then
the call has had the lock and ends. -/
theorem Works.record?_step (hd : d.Works) (hc : d.calls[e.ticket]? = some c)
    (he : d.store.backend.Admits (.happen e)) {q : Phase} {s : Store} {asked : List AnalysisRequest}
    (h : Turn d c.request e c.phase q s asked) :
    s.Sound ∧ s.backend = d.store.backend ∧
      ∀ p, s.record? p = d.store.record? p ∨
        p = c.request.identity ∧ q.ended = true ∧ ∃ l a, c.phase = .storing l a := by
  rcases hd.turn_store hc he h with rfl | ⟨now, l, a, hp, rfl, hholds, hput⟩
  · exact ⟨hd.sound, rfl, fun p => .inl rfl⟩
  · obtain ⟨hbackend, -, hother⟩ := Store.record?_of_putRecord hholds hput
    refine ⟨hd.sound.putRecord hholds hput, hbackend, fun p => ?_⟩
    by_cases hid : p = c.request.identity
    · exact .inr ⟨hid, rfl, l, a, hp⟩
    · exact .inl (hother p hid)

/-- The analyst is asked for what is not stored. -/
theorem Works.missing_turn (hd : d.Works) (hc : d.calls[e.ticket]? = some c) {q : Phase} {s : Store}
    {asked : List AnalysisRequest} (h : Turn d c.request e c.phase q s asked)
    (hq : q.owing = true) :
    d.stored? c.request.identity (contentHash c.request.definition) = .ok none := by
  generalize hp : c.phase = p at h
  cases h with
  | idle hfit => exact hd.missing hc (hp ▸ hq)
  | questioned hs => exact hs
  | analyzed => exact hd.missing hc (by rw [hp]; rfl)
  | _ => cases hq

/-- An event keeps a desk working. -/
theorem Works.step (hd : d.Works) (he : d.store.backend.Admits (.happen e)) :
    (d.step e).Works ∧ (d.step e).store.backend = d.store.backend := by
  cases hc : d.calls[e.ticket]? with
  | none =>
    rw [step_of_calls_eq_none hc]
    exact ⟨hd, rfl⟩
  | some c =>
    obtain ⟨q, hq, hturn⟩ := step_spec hd.consistent hc
    obtain ⟨hsound, hbackend, hrecord⟩ := hd.record?_step hc he hturn
    refine ⟨⟨hq.consistent, hsound, fun {u w} hw => ?_, fun {u w} hw howing => ?_⟩, hbackend⟩
    · rw [hbackend]
      rcases hq.origin hw with ⟨-, rfl⟩ | ⟨-, w', hw', hrequest, -⟩
      · have htakes := hd.takes hc
        exact htakes
      · exact hrequest ▸ hd.takes hw'
    · rcases hq.origin hw with ⟨-, rfl⟩ | ⟨hu, w', hw', -, rfl | ⟨l, -, hl⟩⟩
      · rw [stored?_congr ((hrecord c.request.identity).resolve_right ?_)]
        · exact hd.missing_turn hc hturn howing
        · rintro ⟨-, hended, -⟩
          cases q <;> simp_all [Phase.owing, Phase.ended]
      · rw [stored?_congr ((hrecord w'.request.identity).resolve_right ?_)]
        · exact hd.missing hw' howing
        · rintro ⟨hid, -, l, a, hp⟩
          obtain ⟨m, hm⟩ := Phase.held?_of_owing howing
          exact hu (hd.consistent.eq_of_identity_eq hw' hc hid hm (by rw [hp]; rfl))
      · rw [hl] at howing
        cases howing

/-- A new call keeps a desk working. -/
theorem Works.submit (hd : d.Works) {r : AnalysisRequest}
    (hr : d.store.backend.Takes r.identity) : (d.submit r).2.Works := by
  have hcalls : ∀ {u : Ticket} {w : Call}, (d.submit r).2.calls[u]? = some w →
      w = ⟨r, .fresh⟩ ∨ d.calls[u]? = some w := fun {u w} hw => by
    rw [Desk.submit, getElem?_insert_eq] at hw
    split at hw
    · exact .inl (Option.some.inj hw).symm
    · exact .inr hw
  refine ⟨hd.consistent.submit r, hd.sound, fun {u w} hw => ?_, fun {u w} hw howing => ?_⟩
  · rcases hcalls hw with rfl | hw
    · exact hr
    · exact hd.takes hw
  · rcases hcalls hw with rfl | hw
    · cases howing
    · exact hd.missing hw howing

/-- A move keeps a desk working. -/
theorem Works.move (hd : d.Works) {m : Move} (hm : d.store.backend.Admits m) :
    (d.move m).Works ∧ (d.move m).store.backend = d.store.backend := by
  cases m with
  | submit r =>
    refine ⟨hd.submit ?_, rfl⟩
    cases hb : d.store.backend with
    | memory => trivial
    | ledger =>
      rw [hb] at hm
      exact hm
  | happen e => exact hd.step hm

/-- A run keeps a desk working. -/
theorem Works.run (hd : d.Works) {moves : List Move} (hm : ∀ m ∈ moves, d.store.backend.Admits m) :
    (d.run moves).Works ∧ (d.run moves).store.backend = d.store.backend := by
  induction moves generalizing d with
  | nil => exact ⟨hd, rfl⟩
  | cons m ms ih =>
    obtain ⟨hd', hbackend⟩ := hd.move (hm m (List.mem_cons_self ..))
    obtain ⟨hrun, hbackend'⟩ := ih hd' fun n hn => by
      rw [hbackend]
      exact hm n (List.mem_cons_of_mem m hn)
    exact ⟨hrun, hbackend'.trans hbackend⟩

/-! ### A procedure to ask about -/

/-- A question about a text of the one procedure of the samples. -/
def sampleRequest (text : String) : AnalysisRequest :=
  ⟨⟨sampleAlias, "p"⟩, text⟩

/-- What the analyst says in the samples. -/
def sampleAnalysis : Analysis :=
  ⟨"nothing", none, [], false⟩

/-- How a call goes on that has the lock: it asks, and stores what it is told. -/
def sampleMoves (t : Ticket) : List Move :=
  [.happen (.recheck t 0), .happen (.conclude t (.ok sampleAnalysis)), .happen (.save t ⟨0, 0⟩)]

end Desk

end Flight

end TierLineage
