import TierLineage.Proofs.Flight.Run

/-!
# One analysis of a procedure at a time

In every run, and whatever becomes of the calls, the analyst is at work on a procedure for one call
at most, all calls under way at a procedure take part in one lock, and the table of locks has the
procedures with calls under way and no others.
-/

namespace TierLineage.Flight

/-- Whether a call has looked into the store without success and is not ended. -/
def Phase.underWay : Phase → Bool
  | queued _ => true
  | holding _ => true
  | analyzing _ _ => true
  | storing _ _ => true
  | _ => false

theorem Phase.underWay_iff {p : Phase} : p.underWay = true ↔ ∃ l, p.lock? = some l := by
  cases p <;> simp [underWay, lock?]

theorem Phase.underWay_of_ended {p : Phase} (h : p.ended = true) : p.underWay = false := by
  cases p <;> simp_all [underWay, ended]

namespace Desk

/-- What calls for one procedure share at a moment. -/
structure SingleFlight (d : Desk) : Prop where
  /-- The analyst is at work on a procedure for one call at most. -/
  analyzing_unique : ∀ {t u : Ticket} {c c' : Call} {l l' : LockId} {since since' : Nat},
    d.calls[t]? = some c → d.calls[u]? = some c' → c.request.identity = c'.request.identity →
      c.phase = .analyzing l since → c'.phase = .analyzing l' since' → t = u
  /-- Calls under way at one procedure take part in one lock. -/
  lock_shared : ∀ {t u : Ticket} {c c' : Call},
    d.calls[t]? = some c → d.calls[u]? = some c' → c.request.identity = c'.request.identity →
      c.phase.underWay = true → c'.phase.underWay = true →
        ∃ l, c.phase.lock? = some l ∧ c'.phase.lock? = some l
  /-- The table has the procedures with calls under way. -/
  mem_inFlight_iff : ∀ {p : ProcedureId}, p ∈ d.inFlight ↔
    ∃ (t : Ticket) (c : Call), d.calls[t]? = some c ∧ c.request.identity = p ∧
      c.phase.underWay = true
  /-- Once all calls have ended, no procedure is left in the table. -/
  inFlightCount_eq_zero :
    (∀ {t : Ticket} {c : Call}, d.calls[t]? = some c → c.phase.ended = true) → d.inFlightCount = 0

namespace Consistent

variable {d : Desk} {t u : Ticket} {c c' : Call}

/-- Calls under way at one procedure take part in the lock that the table has for it. -/
theorem lock_shared (hd : d.Consistent) (hc : d.calls[t]? = some c) (hc' : d.calls[u]? = some c')
    (hid : c.request.identity = c'.request.identity) (h : c.phase.underWay = true)
    (h' : c'.phase.underWay = true) : ∃ l, c.phase.lock? = some l ∧ c'.phase.lock? = some l := by
  obtain ⟨l, hl⟩ := Phase.underWay_iff.mp h
  obtain ⟨l', hl'⟩ := Phase.underWay_iff.mp h'
  have hin := hd.inFlight_eq hc hl
  have hin' := hd.inFlight_eq hc' hl'
  rw [hid, hin'] at hin
  cases hin
  exact ⟨l, hl, hl'⟩

/-- Two calls that have a lock for one procedure are the same call. -/
theorem eq_of_identity_eq (hd : d.Consistent) (hc : d.calls[t]? = some c)
    (hc' : d.calls[u]? = some c') (hid : c.request.identity = c'.request.identity) {l l' : LockId}
    (hl : c.phase.held? = some l) (hl' : c'.phase.held? = some l') : t = u := by
  have hin := hd.inFlight_eq hc (Phase.lock?_of_held? hl)
  have hin' := hd.inFlight_eq hc' (Phase.lock?_of_held? hl')
  rw [hid, hin'] at hin
  cases hin
  exact hd.eq_of_held? hc hc' hl hl'

/-- The table has the procedures with calls under way. -/
theorem mem_inFlight_iff (hd : d.Consistent) {p : ProcedureId} : p ∈ d.inFlight ↔
    ∃ (t : Ticket) (c : Call), d.calls[t]? = some c ∧ c.request.identity = p ∧
      c.phase.underWay = true := by
  constructor
  · intro hp
    have hin := Std.TreeMap.getElem?_eq_some_getElem hp
    obtain ⟨t, ht⟩ := Option.ne_none_iff_exists'.mp (hd.holder_ne_none hin)
    obtain ⟨c, hc, hl⟩ := hd.holder_iff.mp ht
    have hin' := hd.inFlight_eq hc (Phase.lock?_of_held? hl)
    refine ⟨t, c, hc, hd.procedure_eq hin' hin, ?_⟩
    exact Phase.underWay_iff.mpr ⟨_, Phase.lock?_of_held? hl⟩
  · rintro ⟨t, c, hc, rfl, hu⟩
    obtain ⟨l, hl⟩ := Phase.underWay_iff.mp hu
    exact Std.TreeMap.mem_iff_isSome_getElem?.mpr (by rw [hd.inFlight_eq hc hl]; rfl)

theorem inFlightCount_eq_zero (hd : d.Consistent)
    (hend : ∀ {t : Ticket} {c : Call}, d.calls[t]? = some c → c.phase.ended = true) :
    d.inFlightCount = 0 := by
  have hempty : d.inFlight.isEmpty = true := by
    refine Std.TreeMap.isEmpty_iff_forall_not_mem.mpr fun p hp => ?_
    obtain ⟨t, c, hc, -, hu⟩ := hd.mem_inFlight_iff.mp hp
    rw [Phase.underWay_of_ended (hend hc)] at hu
    cases hu
  rw [Std.TreeMap.isEmpty_eq_size_eq_zero] at hempty
  simpa [inFlightCount] using hempty

end Consistent

/-- **Single flight**: at every moment of every run, under either policy, calls for one procedure
share one lock and at most one of them has the analyst at work, and the table of locks has the
procedures with calls under way and no others. -/
theorem singleFlight_run (policy : InFlightPolicy) (s : Store) (moves : List Move) :
    ((empty policy s).run moves).SingleFlight := by
  have hd := (consistent_empty policy s).run moves
  constructor
  · intro t u c c' l l' since since' hc hc' hid hl hl'
    exact hd.eq_of_identity_eq hc hc' hid (by rw [hl]; rfl) (by rw [hl']; rfl)
  · exact hd.lock_shared
  · exact hd.mem_inFlight_iff
  · exact hd.inFlightCount_eq_zero

end Desk

end TierLineage.Flight
