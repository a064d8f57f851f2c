import TierLineage.Proofs.Flight.Works
import TierLineage.Proofs.Store.Records

/-!
# Calls that nothing gets in the way of

`serve` says what a call answers that has the store for itself, and what it leaves there, if the
analyst says this or that.  On a desk where no other call is at its procedure a call comes to this
answer in four events at most, whatever happens to other calls meanwhile: `Course` says how far it
has come, and every event that fits brings it on.
-/

namespace TierLineage

open TierLineage.Digest

/-- The stored record of the text that is asked about, if there is one. -/
def Store.recordFor (s : Store) (r : AnalysisRequest) : Outcome (Option Record) :=
  (s.record? r.identity).map fun o => o.filter fun f => f.definitionHash == contentHash r.definition

namespace Flight

/-! ### One call -/

/-- What a call answers that has a store for itself, and what it leaves there, if the analyst says
something and the record is stored at some moment. -/
def serve (s : Store) (r : AnalysisRequest) (o : Outcome Analysis) (now : Instant) :
    Outcome Finding × Store :=
  match r.identity.validate with
  | .error e => (.error (.refused e), s)
  | .ok () =>
    match s.recordFor r with
    | .error e => (.error e, s)
    | .ok (some f) => (.ok ⟨f, true⟩, s)
    | .ok none =>
      match o with
      | .error e => (.error e, s)
      | .ok a =>
        let f := Desk.recordOf r a now
        ((s.putRecord f).1.map fun _ => ⟨f, false⟩, (s.putRecord f).2)

/-- Whether a store has no record of the text that is asked about. -/
structure Misses (s : Store) (r : AnalysisRequest) : Prop where
  valid : r.identity.validate = .ok ()
  missing : s.recordFor r = .ok none

/-- How far a call has come that nothing gets in the way of, by what is in the store and what the
analyst says. -/
inductive Course (s : Store) (r : AnalysisRequest) (o : Outcome Analysis) : Phase → Prop where
  | fresh : Course s r o .fresh
  | holding {l : LockId} (h : Misses s r) : Course s r o (.holding l)
  | analyzing {l : LockId} {since : Nat} (h : Misses s r) : Course s r o (.analyzing l since)
  | storing {l : LockId} {a : Analysis} (h : Misses s r) (ho : o = .ok a) :
    Course s r o (.storing l a)
  | done (now : Instant) : Course s r o (.done (serve s r o now).1)

/-- The number of events ahead of a call that nothing gets in the way of. -/
def Phase.ahead : Phase → Nat
  | fresh => 4
  | holding _ => 3
  | analyzing _ _ => 2
  | storing _ _ => 1
  | _ => 0

/-- What an event about a request leaves: the new record of a call that it answers, or the store as it
was. -/
structure Writes (d : Desk) (s : Store) (r : AnalysisRequest) (q : Phase) (d' : Desk) : Prop where
  store : (∃ f, q = .done (.ok ⟨f, false⟩) ∧ f.identity = r.identity ∧ s.backend.Holds f ∧
    d.store.putRecord f = (.ok (), d'.store)) ∨ d'.store = d.store ∧ ∀ f, q ≠ .done (.ok ⟨f, false⟩)
  asked : d'.asked = d.asked ∨ d'.asked = r :: d.asked ∧ s.recordFor r = .ok none

variable {s : Store} {r : AnalysisRequest} {o : Outcome Analysis} {now : Instant}

theorem serve_of_refused {e : Refusal} (h : r.identity.validate = .error e) :
    serve s r o now = (.error (.refused e), s) := by
  simp only [serve, h]

theorem serve_of_unread {e : Failure} (hvalid : r.identity.validate = .ok ())
    (h : s.recordFor r = .error e) : serve s r o now = (.error e, s) := by
  simp only [serve, hvalid, h]

theorem serve_of_found {f : Record} (hvalid : r.identity.validate = .ok ())
    (h : s.recordFor r = .ok (some f)) : serve s r o now = (.ok ⟨f, true⟩, s) := by
  simp only [serve, hvalid, h]

theorem Misses.serve_failed {e : Failure} (h : Misses s r) :
    serve s r (.error e) now = (.error e, s) := by
  simp only [serve, h.valid, h.missing]

theorem Misses.serve_analyzed {a : Analysis} (h : Misses s r) :
    (serve s r (.ok a) now).1 =
      (s.putRecord (Desk.recordOf r a now)).1.map fun _ => ⟨Desk.recordOf r a now, false⟩ := by
  simp only [serve, h.valid, h.missing]

/-- A new record that is answered is that of the analysis, and only what is missing is answered with
a new record. -/
theorem misses_of_serve {f : Record} (h : (serve s r o now).1 = .ok ⟨f, false⟩) :
    Misses s r ∧ ∃ a, o = .ok a ∧ f = Desk.recordOf r a now := by
  unfold serve at h
  split at h
  · cases h
  · next hvalid =>
    split at h
    · cases h
    · cases h
    · next hmissing =>
      refine ⟨⟨hvalid, hmissing⟩, ?_⟩
      split at h
      · cases h
      · next a =>
        cases hput : (s.putRecord (Desk.recordOf r a now)).1 with
        | error e =>
          dsimp only at h
          rw [hput] at h
          cases h
        | ok _ =>
          dsimp only at h
          rw [hput] at h
          cases h
          exact ⟨a, rfl, rfl⟩

theorem identity_of_serve {f : Record} (h : (serve s r o now).1 = .ok ⟨f, false⟩) :
    f.identity = r.identity := by
  obtain ⟨-, a, -, rfl⟩ := misses_of_serve h
  rfl

namespace Desk

variable {d : Desk} {t : Ticket} {e : Event} {p : Phase}

/-- Whether an event brings a call on: it comes nearer to its answer, and what is written is what it
answers. -/
structure BringsOn (d : Desk) (s : Store) (r : AnalysisRequest) (o : Outcome Analysis) (t : Ticket)
    (p q : Phase) (d' : Desk) : Prop where
  stepped : Stepped d t ⟨r, p⟩ q d'
  course : Course s r o q
  ahead_lt : q.ahead < p.ahead
  writes : Writes d s r q d'

/-- An event that writes nothing. -/
theorem writes_nothing {d' : Desk} {q : Phase} (hstore : d'.store = d.store)
    (hasked : d'.asked = d.asked) (hq : ∀ f, q ≠ .done (.ok ⟨f, false⟩)) : Writes d s r q d' :=
  ⟨.inr ⟨hstore, hq⟩, .inl hasked⟩

variable (hd : d.Consistent) (hseen : d.store.recordFor r = s.recordFor r)

include hd hseen

/-- A call looks into the store, and has the lock of its procedure if nobody else is at it. -/
theorem bringsOn_look (hc : d.calls[t]? = some ⟨r, .fresh⟩) (hfree : d.inFlight[r.identity]? = none)
    (o : Outcome Analysis) : ∃ q, BringsOn d s r o t .fresh q (d.step (.look t)) := by
  have hstep : d.step (.look t) = d.look t ⟨r, .fresh⟩ := by simp [step, hc]
  have hdone : ∀ x, x = (serve s r o ⟨0, 0⟩).1 → (∀ f, x ≠ .ok ⟨f, false⟩) →
      BringsOn d s r o t .fresh (.done x) (d.setPhase t (.done x)) := by
    rintro x rfl hx
    refine ⟨stepped_setPhase hd hc rfl (by simp), .done _, Nat.zero_lt_succ 3, ?_⟩
    exact writes_nothing (by simp) (by simp) fun f hf => hx f (Phase.done.inj hf)
  rw [hstep, look]
  split
  · next e he => exact ⟨_, hdone _ (by rw [serve_of_refused he]) fun f hf => by cases hf⟩
  · next hvalid =>
    split
    · next e he =>
      exact ⟨_, hdone _ (by rw [serve_of_unread hvalid (hseen.symm.trans he)]) fun f hf => by cases hf⟩
    · next f hf =>
      exact ⟨_, hdone _ (by rw [serve_of_found hvalid (hseen.symm.trans hf)]) fun f hf => by cases hf⟩
    · next hmissing =>
      obtain ⟨q, hq, -⟩ := stepped_join hd hc rfl hmissing
      have heq := join_of_inFlight_eq_none (t := t) (c := ⟨r, .fresh⟩) hfree
      have hphase : (d.join t ⟨r, .fresh⟩).calls[t]? = some ⟨r, .holding d.nextLock⟩ := by
        simp [heq, calls_setPhase, hc]
      obtain rfl : q = .holding d.nextLock :=
        congrArg Call.phase (Option.some.inj (hq.calls_self.symm.trans hphase))
      refine ⟨_, hq, .holding ⟨hvalid, hseen.symm.trans hmissing⟩, Nat.lt_succ_self 3, ?_⟩
      exact writes_nothing (by simp [heq]) (by simp [heq]) fun f hf => by cases hf

/-- Every event that fits brings on a call that nothing gets in the way of, unless its caller gives
up. -/
theorem exists_bringsOn (hbackend : d.store.backend = s.backend)
    (hc : d.calls[e.ticket]? = some ⟨r, p⟩) (hp : Course s r o p)
    (hfree : p = .fresh → d.inFlight[r.identity]? = none) (hfits : e.fits p = true)
    (hdrop : ∀ t, e ≠ .drop t) (hconclude : ∀ t x, e = .conclude t x → x = o)
    (hadmits : s.backend.Admits (.happen e)) :
    ∃ q, BringsOn d s r o e.ticket p q (d.step e) := by
  have hdone : ∀ x now, x = (serve s r o now).1 → Course s r o (.done x) := by
    rintro x now rfl
    exact .done now
  obtain ⟨q, hq, hturn⟩ := step_spec hd hc
  generalize hstore : (d.step e).store = s' at hturn
  generalize hasked : (d.step e).asked = asked at hturn
  dsimp only at hturn
  cases hp with
  | fresh =>
    cases e with
    | look t => exact bringsOn_look hd hseen hc (hfree rfl) o
    | drop t => exact absurd rfl (hdrop t)
    | _ => cases hfits
  | @holding l hmisses =>
    cases hturn with
    | idle hfits' => rw [hfits] at hfits'; cases hfits'
    | dropped _ => exact absurd rfl (hdrop _)
    | unreadAgain he => cases he.symm.trans (hseen.trans hmisses.missing)
    | foundAgain hf => cases hf.symm.trans (hseen.trans hmisses.missing)
    | questioned hmissing =>
      exact ⟨_, hq, .analyzing hmisses, Nat.lt_succ_self 2, .inr ⟨hstore, fun f hf => by cases hf⟩,
        .inr ⟨hasked, hmisses.missing⟩⟩
  | analyzing hmisses =>
    cases hturn with
    | idle hfits' => rw [hfits] at hfits'; cases hfits'
    | dropped _ => exact absurd rfl (hdrop _)
    | analyzed =>
      exact ⟨_, hq, .storing hmisses (hconclude _ _ rfl).symm, Nat.lt_succ_self 1,
        writes_nothing hstore hasked fun f hf => by cases hf⟩
    | @failed _ _ _ f =>
      have ho := hconclude _ _ rfl
      refine ⟨_, hq, hdone _ ⟨0, 0⟩ ?_, Nat.zero_lt_succ 1, writes_nothing hstore hasked fun f hf => ?_⟩
      · rw [← ho, hmisses.serve_failed]
      · cases hf
  | @storing l a hmisses ho =>
    cases hturn with
    | idle hfits' => rw [hfits] at hfits'; cases hfits'
    | dropped _ => exact absurd rfl (hdrop _)
    | @saved _ now _ _ _ hput =>
      have hfst := Store.putRecord_fst_congr hbackend (f := recordOf r a now) rfl
      rw [hput] at hfst
      refine ⟨_, hq, hdone _ now ?_, Nat.zero_lt_succ 0, .inl ⟨_, rfl, rfl, ?_, ?_⟩, .inl hasked⟩
      · rw [ho, hmisses.serve_analyzed, ← hfst]
        rfl
      · rw [← hbackend]
        refine Store.holds_of_putRecord hput fun hb => ?_
        rw [← hbackend, hb] at hadmits
        exact hadmits
      · rw [hstore]
        exact hput
    | @unsaved _ now _ _ _ f hput =>
      have hfst := Store.putRecord_fst_congr hbackend (f := recordOf r a now) rfl
      rw [hput] at hfst
      refine ⟨_, hq, hdone _ now ?_, Nat.zero_lt_succ 0, writes_nothing ?_ hasked fun f hf => ?_⟩
      · rw [ho, hmisses.serve_analyzed, ← hfst]
        rfl
      · rw [hstore]
        exact Store.eq_of_putRecord_error hput
      · cases hf
  | done now => cases e <;> cases hfits

end Desk

end Flight

end TierLineage
