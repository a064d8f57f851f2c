import Mathlib.Tactic.Common
import TierLineage.Proofs.Flight.Lookup

/-!
# The desk is consistent

`Consistent` says how calls, locks and the table of locks under way belong together: a call takes
part in the lock that the table holds for its procedure, a lock knows exactly the calls that have it
or wait for it, every lock of the table is had by some call, and the number of references to a lock
is what these calls and the table account for.  It holds of a desk without calls, and every event
keeps it.
-/

namespace TierLineage.Flight

namespace Desk

/-- How the calls of a desk, its locks and its table of locks belong together. -/
structure Consistent (d : Desk) : Prop where
  /-- Tickets are given out in order. -/
  ticket_lt : ∀ {t : Ticket} {c : Call}, d.calls[t]? = some c → t < d.nextTicket
  /-- Locks are numbered in order. -/
  lock_lt : ∀ {p : ProcedureId} {l : LockId}, d.inFlight[p]? = some l → l < d.nextLock
  /-- A lock belongs to one procedure. -/
  procedure_eq : ∀ {p q : ProcedureId} {l : LockId},
    d.inFlight[p]? = some l → d.inFlight[q]? = some l → p = q
  /-- A call takes part in the lock of its procedure. -/
  inFlight_eq : ∀ {t : Ticket} {c : Call} {l : LockId},
    d.calls[t]? = some c → c.phase.lock? = some l → d.inFlight[c.request.identity]? = some l
  /-- A lock knows who has it. -/
  holder_iff : ∀ {t : Ticket} {l : LockId}, (d.lock l).holder = some t ↔
    ∃ c, d.calls[t]? = some c ∧ c.phase.held? = some l
  /-- A lock knows who waits for it. -/
  mem_queue_iff : ∀ {t : Ticket} {l : LockId}, t ∈ (d.lock l).queue ↔
    ∃ c, d.calls[t]? = some c ∧ c.phase = .queued l
  /-- Nobody waits twice. -/
  queue_nodup : ∀ {l : LockId}, (d.lock l).queue.Nodup
  /-- A lock under way is had by a call. -/
  holder_ne_none : ∀ {p : ProcedureId} {l : LockId}, d.inFlight[p]? = some l → (d.lock l).holder ≠ none
  /-- One reference is the table's, two belong to the holder and two to each call that waits. -/
  references_eq : ∀ {p : ProcedureId} {l : LockId}, d.inFlight[p]? = some l →
    (d.lock l).references = 2 * (d.lock l).queue.length + 3

variable {d : Desk} {t u : Ticket} {c : Call} {l : LockId}

namespace Consistent

/-! ### What follows -/

/-- Two calls that have one lock are the same call. -/
theorem eq_of_held? (hd : d.Consistent) {c' : Call} (hc : d.calls[t]? = some c)
    (hc' : d.calls[u]? = some c') (hl : c.phase.held? = some l) (hl' : c'.phase.held? = some l) :
    t = u := by
  have ht := hd.holder_iff.mpr ⟨c, hc, hl⟩
  have hu := hd.holder_iff.mpr ⟨c', hc', hl'⟩
  exact Option.some.inj (ht.symm.trans hu)

/-- A lock that does not belong to a procedure has neither holder nor queue. -/
theorem holder_eq_none (hd : d.Consistent) (h : ∀ p : ProcedureId, d.inFlight[p]? ≠ some l) :
    (d.lock l).holder = none ∧ (d.lock l).queue = [] := by
  constructor
  · by_contra hne
    obtain ⟨t, ht⟩ := Option.ne_none_iff_exists'.mp hne
    obtain ⟨c, hc, hl⟩ := hd.holder_iff.mp ht
    exact h _ (hd.inFlight_eq hc (Phase.lock?_of_held? hl))
  · by_contra hne
    obtain ⟨t, ht⟩ := List.exists_mem_of_ne_nil _ hne
    obtain ⟨c, hc, hl⟩ := hd.mem_queue_iff.mp ht
    exact h _ (hd.inFlight_eq hc (Phase.lock?_eq_some_iff.mpr (.inr hl)))

/-- A call does not wait for a lock that it has. -/
theorem not_mem_queue (hd : d.Consistent) (hh : (d.lock l).holder = some t) :
    t ∉ (d.lock l).queue := by
  intro hq
  obtain ⟨w, hw, hwl⟩ := hd.holder_iff.mp hh
  obtain ⟨w', hw', hwq⟩ := hd.mem_queue_iff.mp hq
  cases hw.symm.trans hw'
  simp [hwq, Phase.held?] at hwl

/-- The heir of a lock waits for it. -/
theorem queued_of_heir? (hd : d.Consistent) (h : (d.lock l).heir? t = some u) :
    ∃ c, d.calls[u]? = some c ∧ c.phase = .queued l := by
  rw [Lock.heir?] at h
  split at h
  · exact hd.mem_queue_iff.mp (List.mem_of_mem_head? h)
  · cases h

/-- The heir of a lock is not the call that lets go of it. -/
theorem heir?_ne (hd : d.Consistent) : (d.lock l).heir? t ≠ some t := by
  intro h
  obtain ⟨c, hc, hq⟩ := hd.queued_of_heir? h
  have ht : (d.lock l).holder = some t := by
    rw [Lock.heir?] at h
    by_contra hne
    rw [if_neg hne] at h
    cases h
  obtain ⟨c', hc', hl⟩ := hd.holder_iff.mp ht
  cases hc.symm.trans hc'
  simp [hq, Phase.held?] at hl

end Consistent

/-! ### Changes that touch no lock -/

/-- A desk without calls is consistent. -/
theorem consistent_empty (policy : InFlightPolicy) (s : Store) : (empty policy s).Consistent := by
  constructor <;> simp [empty, lock, Lock.free]

/-- Whether a change of a desk brings one call into a new state, and of the locks touches only what this
call has and what it waits for. -/
structure MovesOnly (d : Desk) (t : Ticket) (c : Call) (e : Desk) : Prop where
  calls_eq : ∀ u : Ticket, e.calls[u]? = if u = t then some c else d.calls[u]?
  ticket_lt : t < e.nextTicket
  ticket_le : d.nextTicket ≤ e.nextTicket
  /-- Procedures keep their locks. -/
  inFlight_eq : ∀ {p : ProcedureId} {l : LockId}, d.inFlight[p]? = some l → e.inFlight[p]? = some l
  /-- The call takes part in the lock of its procedure. -/
  inFlight_self : ∀ {l : LockId},
    c.phase.lock? = some l → e.inFlight[c.request.identity]? = some l
  holder_iff : ∀ {u : Ticket} {l : LockId}, (e.lock l).holder = some u ↔
    if u = t then c.phase.held? = some l else (d.lock l).holder = some u
  mem_queue_iff : ∀ {u : Ticket} {l : LockId}, u ∈ (e.lock l).queue ↔
    if u = t then c.phase = .queued l else u ∈ (d.lock l).queue

/-- When one call moves, calls and locks still know of each other; what is left to show is about the
table of locks and the locks in it. -/
theorem Consistent.of_movesOnly {e : Desk} (hd : d.Consistent) (h : d.MovesOnly t c e)
    (hlock : ∀ {p : ProcedureId} {l : LockId}, e.inFlight[p]? = some l → l < e.nextLock)
    (hprocedure : ∀ {p q : ProcedureId} {l : LockId},
      e.inFlight[p]? = some l → e.inFlight[q]? = some l → p = q)
    (hqueue : ∀ {l : LockId}, (e.lock l).queue.Nodup)
    (hholder : ∀ {p : ProcedureId} {l : LockId}, e.inFlight[p]? = some l → (e.lock l).holder ≠ none)
    (hreferences : ∀ {p : ProcedureId} {l : LockId}, e.inFlight[p]? = some l →
      (e.lock l).references = 2 * (e.lock l).queue.length + 3) : e.Consistent where
  ticket_lt {u c'} hc' := by
    rw [h.calls_eq] at hc'
    split at hc'
    · next hu => exact hu ▸ h.ticket_lt
    · exact Nat.lt_of_lt_of_le (hd.ticket_lt hc') h.ticket_le
  lock_lt := hlock
  procedure_eq := hprocedure
  inFlight_eq {u c' l} hc' hl := by
    rw [h.calls_eq] at hc'
    split at hc'
    · cases hc'
      exact h.inFlight_self hl
    · exact h.inFlight_eq (hd.inFlight_eq hc' hl)
  holder_iff {u l} := by
    rw [h.holder_iff, h.calls_eq]
    split
    · simp
    · exact hd.holder_iff
  mem_queue_iff {u l} := by
    rw [h.mem_queue_iff, h.calls_eq]
    split
    · simp
    · exact hd.mem_queue_iff
  queue_nodup := hqueue
  holder_ne_none := hholder
  references_eq := hreferences

/-- A call that takes part in no lock, or that was not taken yet, neither has a lock nor waits for one. -/
theorem Consistent.apart (hd : d.Consistent)
    (h : ∀ {c : Call}, d.calls[t]? = some c → c.phase.lock? = none) :
    (d.lock l).holder ≠ some t ∧ t ∉ (d.lock l).queue := by
  constructor
  · intro hh
    obtain ⟨c, hc, hl⟩ := hd.holder_iff.mp hh
    cases (h hc).symm.trans (Phase.lock?_of_held? hl)
  · intro hq
    obtain ⟨c, hc, hl⟩ := hd.mem_queue_iff.mp hq
    cases (h hc).symm.trans (Phase.lock?_eq_some_iff.mpr (.inr hl))

/-- A new call touches no lock. -/
theorem Consistent.submit (hd : d.Consistent) (r : AnalysisRequest) :
    (d.submit r).2.Consistent := by
  have hapart : ∀ {l : LockId}, (d.lock l).holder ≠ some d.nextTicket ∧
      d.nextTicket ∉ (d.lock l).queue :=
    hd.apart fun hc => absurd (hd.ticket_lt hc) (Nat.lt_irrefl _)
  have hmoves : d.MovesOnly d.nextTicket ⟨r, .fresh⟩ (d.submit r).2 :=
    { calls_eq := fun u => by rw [Desk.submit, getElem?_insert_eq]
      ticket_lt := Nat.lt_succ_self _
      ticket_le := Nat.le_succ _
      inFlight_eq := id
      inFlight_self := nofun
      holder_iff := fun {u l} => by
        change (d.lock l).holder = some u ↔ _
        by_cases hu : u = d.nextTicket <;> simp [hu, hapart.1, Phase.held?]
      mem_queue_iff := fun {u l} => by
        change u ∈ (d.lock l).queue ↔ _
        by_cases hu : u = d.nextTicket <;> simp [hu, hapart.2] }
  exact hd.of_movesOnly hmoves hd.lock_lt hd.procedure_eq hd.queue_nodup hd.holder_ne_none
    hd.references_eq

/-- A change of phase in which a call keeps its part in a lock touches no lock. -/
theorem Consistent.setPhase (hd : d.Consistent) (hc : d.calls[t]? = some c) {p : Phase}
    (hheld : p.held? = c.phase.held?) (hqueued : ∀ l, p = .queued l ↔ c.phase = .queued l) :
    (d.setPhase t p).Consistent := by
  have hmoves : d.MovesOnly t { c with phase := p } (d.setPhase t p) :=
    { calls_eq := fun u => by rw [calls_setPhase, hc, Option.map_some]
      ticket_lt := by rw [nextTicket_setPhase]; exact hd.ticket_lt hc
      ticket_le := Nat.le_of_eq (nextTicket_setPhase d t p).symm
      inFlight_eq := fun h => by rwa [inFlight_setPhase]
      inFlight_self := fun {l} h => by
        rw [Phase.lock?_eq_some_iff, hheld, hqueued, ← Phase.lock?_eq_some_iff] at h
        have hin := hd.inFlight_eq hc h
        rwa [inFlight_setPhase]
      holder_iff := fun {u l} => by
        rw [lock_setPhase]
        by_cases hu : u = t
        · simp [hu, hd.holder_iff, hc, hheld]
        · simp [hu]
      mem_queue_iff := fun {u l} => by
        rw [lock_setPhase]
        by_cases hu : u = t
        · simp [hu, hd.mem_queue_iff, hc, hqueued]
        · simp [hu] }
  refine hd.of_movesOnly hmoves ?_ ?_ ?_ ?_ ?_ <;>
    simp only [inFlight_setPhase, lock_setPhase, nextLock_setPhase]
  · exact hd.lock_lt
  · exact hd.procedure_eq
  · exact hd.queue_nodup
  · exact hd.holder_ne_none
  · exact hd.references_eq

/-- Consistency depends on the calls, the locks and the table of locks only. -/
theorem Consistent.congr {e : Desk} (hd : d.Consistent)
    (hcalls : ∀ t : Ticket, e.calls[t]? = d.calls[t]?)
    (hflight : ∀ p : ProcedureId, e.inFlight[p]? = d.inFlight[p]?)
    (hlock : ∀ l, e.lock l = d.lock l) (hticket : e.nextTicket = d.nextTicket)
    (hnext : e.nextLock = d.nextLock) : e.Consistent := by
  constructor <;> simp only [hcalls, hflight, hlock, hticket, hnext]
  · exact hd.ticket_lt
  · exact hd.lock_lt
  · exact hd.procedure_eq
  · exact hd.inFlight_eq
  · exact hd.holder_iff
  · exact hd.mem_queue_iff
  · exact hd.queue_nodup
  · exact hd.holder_ne_none
  · exact hd.references_eq

/-! ### Letting go of a lock -/

section Finish

variable (hd : d.Consistent) (hc : d.calls[t]? = some c) (hl : c.phase.lock? = some l)
  (last : Phase)

include hd hc hl

/-- A call that takes part in a lock has it or waits for it. -/
theorem Consistent.holder_or_mem_queue :
    (d.lock l).holder = some t ∨ t ∈ (d.lock l).queue := by
  rcases Phase.lock?_eq_some_iff.mp hl with h | h
  · exact .inl (hd.holder_iff.mpr ⟨c, hc, h⟩)
  · exact .inr (hd.mem_queue_iff.mpr ⟨c, hc, h⟩)

/-- The calls after one of them has ended. -/
theorem Consistent.calls_finish (u : Ticket) :
    (d.finish t c last).calls[u]? =
      if u = t then some { c with phase := last }
      else if (d.lock l).heir? t = some u then
        (d.calls[u]?).map fun c => { c with phase := .holding l }
      else d.calls[u]? := by
  rw [finish_eq last hl, (frame_leave _ _ _).2.2.2.1, calls_putLock, calls_pass, calls_setPhase, hc]
  by_cases hu : u = t
  · subst hu
    simp [hd.heir?_ne]
  · simp [hu]

/-- What a call leaves behind when it ends: the lock goes to the heir and stays in the table, or it
goes away with its last call. -/
theorem Consistent.finish_eq_ite :
    d.finish t c last =
      let e := ((d.setPhase t last).pass ((d.lock l).heir? t) l).putLock l ((d.lock l).without t)
      if (d.lock l).queue = [] then
        { e with inFlight := d.inFlight.erase c.request.identity, locks := e.locks.erase l }
      else e.putLock l ((d.lock l).without t).unshare := by
  have hid := hd.inFlight_eq hc hl
  have href : ((d.lock l).without t).references = 2 * (d.lock l).queue.length + 2 := by
    rw [Lock.without]
    split <;> simp [hd.references_eq hid]
  rw [finish_eq last hl, leave, lock_putLock_self, href, inFlight_putLock,
    (frame_pass _ _ _).2.2.2.1, inFlight_setPhase, hid]
  by_cases hq : (d.lock l).queue = []
  · rw [if_pos ⟨rfl, by simp [hq]⟩, if_pos hq]
  · have hlen : (d.lock l).queue.length ≠ 0 := fun h => hq (List.eq_nil_of_length_eq_zero h)
    rw [if_neg (by omega), if_neg hq]

/-- The table of locks after a call has ended. -/
theorem Consistent.inFlight_finish (q : ProcedureId) :
    (d.finish t c last).inFlight[q]? =
      if q = c.request.identity ∧ (d.lock l).queue = [] then none else d.inFlight[q]? := by
  rw [hd.finish_eq_ite hc hl last]
  by_cases hq : (d.lock l).queue = []
  · simp [hq, getElem?_erase_eq]
  · simp [hq, (frame_pass _ _ _).2.2.2.1]

/-- The locks after a call has ended. -/
theorem Consistent.lock_finish (m : LockId) :
    (d.finish t c last).lock m =
      if m = l then
        if (d.lock l).queue = [] then Lock.free else ((d.lock l).without t).unshare
      else d.lock m := by
  have hpass : ∀ m, ((d.setPhase t last).pass ((d.lock l).heir? t) l).lock m = d.lock m := by
    simp [(frame_pass _ _ _).2.2.2.2.2.2]
  rw [hd.finish_eq_ite hc hl last]
  by_cases hq : (d.lock l).queue = []
  · rw [if_pos hq, lock_eraseLock, lock_putLock, hpass, if_pos hq]
    split <;> rfl
  · rw [if_neg hq, lock_putLock, lock_putLock, hpass, if_neg hq]
    split <;> rfl

/-- A lock that nobody waits for is had by the only call that takes part in it. -/
theorem Consistent.eq_of_queue_eq_nil (hq : (d.lock l).queue = []) {c' : Call}
    (hc' : d.calls[u]? = some c') (hl' : c'.phase.lock? = some l) : u = t := by
  have ht := hd.holder_or_mem_queue hc hl
  have hu := hd.holder_or_mem_queue hc' hl'
  simp only [hq, List.not_mem_nil, or_false] at ht hu
  exact Option.some.inj (hu.symm.trans ht)

/-- Who has a lock after a call has ended: the heir of its lock, and everybody else who had one. -/
theorem Consistent.holder_finish (m : LockId) :
    ((d.finish t c last).lock m).holder = some u ↔
      (m = l ∧ (d.lock l).heir? t = some u) ∨ ((d.lock m).holder = some u ∧ u ≠ t) := by
  rw [hd.lock_finish hc hl last]
  by_cases hm : m = l
  · subst hm
    by_cases hq : (d.lock m).queue = []
    · have hpart := hd.holder_or_mem_queue hc hl
      simp only [hq, List.not_mem_nil, or_false] at hpart
      simp [hq, Lock.free, Lock.heir?, hpart, eq_comm]
    · simp [hq, Lock.unshare, Lock.holder_without]
  · simp only [hm, if_false, false_and, false_or, iff_self_and]
    rintro hu rfl
    obtain ⟨c', hc', hl'⟩ := hd.holder_iff.mp hu
    cases hc.symm.trans hc'
    exact hm (Option.some.inj ((Phase.lock?_of_held? hl').symm.trans hl))

/-- Who waits for a lock after a call has ended: everybody who did, the heir apart. -/
theorem Consistent.mem_queue_finish (m : LockId) :
    u ∈ ((d.finish t c last).lock m).queue ↔
      u ∈ (d.lock m).queue ∧ u ≠ t ∧ (d.lock l).heir? t ≠ some u := by
  rw [hd.lock_finish hc hl last]
  by_cases hm : m = l
  · subst hm
    by_cases hq : (d.lock m).queue = []
    · simp [hq, Lock.free]
    · simp [hq, Lock.unshare, Lock.mem_queue_without hd.queue_nodup hd.not_mem_queue]
  · simp only [hm, if_false, iff_self_and]
    intro hu
    obtain ⟨c', hc', hq⟩ := hd.mem_queue_iff.mp hu
    constructor
    · rintro rfl
      cases hc.symm.trans hc'
      exact hm (Option.some.inj ((Phase.lock?_eq_some_iff.mpr (.inr hq)).symm.trans hl))
    · intro hheir
      obtain ⟨w, hw, hwq⟩ := hd.queued_of_heir? hheir
      cases hc'.symm.trans hw
      cases hq.symm.trans hwq
      exact hm rfl

/-- A lock that stays in the table is another one, or somebody waits for it. -/
theorem Consistent.inFlight_of_finish {p : ProcedureId} {m : LockId}
    (h : (d.finish t c last).inFlight[p]? = some m) :
    d.inFlight[p]? = some m ∧ (m = l → (d.lock l).queue ≠ []) := by
  rw [hd.inFlight_finish hc hl last] at h
  split at h
  · cases h
  · next hne =>
    refine ⟨h, ?_⟩
    rintro rfl hq
    exact hne ⟨hd.procedure_eq h (hd.inFlight_eq hc hl), hq⟩

/-- A call that takes part in a lock after another one has ended did so before. -/
theorem Consistent.exists_call_of_finish (hlast : last.ended = true) {c' : Call} {m : LockId}
    (hc' : (d.finish t c last).calls[u]? = some c') (hm : c'.phase.lock? = some m) :
    u ≠ t ∧ ∃ w, d.calls[u]? = some w ∧ w.request = c'.request ∧ w.phase.lock? = some m := by
  rw [hd.calls_finish hc hl last] at hc'
  split at hc'
  · cases hc'
    cases (Phase.lock?_of_ended hlast).symm.trans hm
  · next hut =>
    refine ⟨hut, ?_⟩
    split at hc'
    · next hheir =>
      obtain ⟨w, hw, hq⟩ := hd.queued_of_heir? hheir
      rw [hw] at hc'
      cases hc'
      exact ⟨w, hw, rfl, by rw [hq]; exact hm⟩
    · exact ⟨c', hc', rfl, hm⟩

/-- Who has a lock after a call has ended is told by the calls. -/
theorem Consistent.holder_finish_iff (hlast : last.ended = true) (m : LockId) :
    ((d.finish t c last).lock m).holder = some u ↔
      ∃ c', (d.finish t c last).calls[u]? = some c' ∧ c'.phase.held? = some m := by
  rw [hd.holder_finish hc hl last, hd.calls_finish hc hl last, hd.holder_iff]
  by_cases hut : u = t
  · simp [hut, hd.heir?_ne, Phase.held?_of_ended hlast]
  by_cases hheir : (d.lock l).heir? t = some u
  · obtain ⟨w, hw, hq⟩ := hd.queued_of_heir? hheir
    simp [hut, hheir, hw, hq, Phase.held?, eq_comm]
  · simp [hut, hheir]

/-- Who waits for a lock after a call has ended is told by the calls. -/
theorem Consistent.mem_queue_finish_iff (hlast : last.ended = true) (m : LockId) :
    u ∈ ((d.finish t c last).lock m).queue ↔
      ∃ c', (d.finish t c last).calls[u]? = some c' ∧ c'.phase = .queued m := by
  rw [hd.mem_queue_finish hc hl last, hd.calls_finish hc hl last, hd.mem_queue_iff]
  by_cases hut : u = t
  · have hne : last ≠ .queued m := fun h => by simp [h, Phase.ended] at hlast
    simp [hut, hne]
  by_cases hheir : (d.lock l).heir? t = some u
  · obtain ⟨w, hw, -⟩ := hd.queued_of_heir? hheir
    simp [hut, hheir, hw]
  · simp [hut, hheir]

/-- A call that ends leaves a consistent desk. -/
theorem Consistent.finish {last : Phase} (hlast : last.ended = true) :
    (d.finish t c last).Consistent where
  ticket_lt {u c'} hc' := by
    rw [(frame_finish d t c last).2.2.2.1]
    rw [hd.calls_finish hc hl last] at hc'
    have := @hd.ticket_lt
    grind
  lock_lt hp := by
    rw [(frame_finish d t c last).2.2.2.2]
    exact hd.lock_lt (hd.inFlight_of_finish hc hl last hp).1
  procedure_eq hp hq :=
    hd.procedure_eq (hd.inFlight_of_finish hc hl last hp).1 (hd.inFlight_of_finish hc hl last hq).1
  inFlight_eq {u c' m} hc' hm := by
    obtain ⟨hut, w, hw, hrequest, hwm⟩ := hd.exists_call_of_finish hc hl last hlast hc' hm
    have hin := hd.inFlight_eq hw hwm
    rw [← hrequest, hd.inFlight_finish hc hl last, if_neg, hin]
    -- a call of the same procedure takes part in the same lock, which then has no queue
    rintro ⟨hp, hq⟩
    rw [hp, hd.inFlight_eq hc hl] at hin
    cases hin
    exact hut (hd.eq_of_queue_eq_nil hc hl hq hw hwm)
  holder_iff := hd.holder_finish_iff hc hl last hlast _
  mem_queue_iff := hd.mem_queue_finish_iff hc hl last hlast _
  queue_nodup {m} := by
    rw [hd.lock_finish hc hl last]
    split
    · split
      · exact List.nodup_nil
      · exact Lock.queue_without_nodup hd.queue_nodup
    · exact hd.queue_nodup
  holder_ne_none {p m} hp := by
    obtain ⟨hin, hq⟩ := hd.inFlight_of_finish hc hl last hp
    rw [hd.lock_finish hc hl last]
    split
    · next h =>
      rw [if_neg (hq h)]
      exact Lock.holder_without_ne_none (hq h) (hd.holder_ne_none (hd.inFlight_eq hc hl))
    · exact hd.holder_ne_none hin
  references_eq {p m} hp := by
    obtain ⟨hin, hq⟩ := hd.inFlight_of_finish hc hl last hp
    rw [hd.lock_finish hc hl last]
    split
    · next h =>
      rw [if_neg (hq h)]
      exact Lock.references_without (hd.holder_or_mem_queue hc hl) (hq h) hd.queue_nodup
        (hd.references_eq (hd.inFlight_eq hc hl))
    · exact hd.references_eq hin

end Finish

/-! ### Taking part in a lock -/

/-- The first call of a procedure makes a lock and has it. -/
theorem join_of_inFlight_eq_none (h : d.inFlight[c.request.identity]? = none) :
    d.join t c =
      (putLock { d with
          inFlight := d.inFlight.insert c.request.identity d.nextLock
          locks := d.locks.insert d.nextLock Lock.free.share
          nextLock := d.nextLock + 1 } d.nextLock ⟨some t, [], 3⟩).setPhase t
        (.holding d.nextLock) := by
  simp [join, obtain, h, lock, Lock.free, Lock.share]

/-- Under the policy to wait, every other call of a procedure waits at the end of the queue. -/
theorem Consistent.join_of_wait (hd : d.Consistent) (hp : d.policy = .wait)
    (h : d.inFlight[c.request.identity]? = some l) :
    d.join t c =
      (d.putLock l ⟨(d.lock l).holder, (d.lock l).queue ++ [t], (d.lock l).references + 2⟩).setPhase
        t (.queued l) := by
  obtain ⟨u, hu⟩ := Option.ne_none_iff_exists'.mp (hd.holder_ne_none h)
  simp [join, obtain, h, Lock.share, hu, hp]

/-- Under the policy to reject, every other call of a procedure is rejected and leaves no trace. -/
theorem Consistent.join_of_reject (hd : d.Consistent) (hp : d.policy = .reject)
    (h : d.inFlight[c.request.identity]? = some l) :
    d.join t c =
      putLock (putLock (d.setPhase t (.done (.error (.conflict
          (.inFlight c.request.identity.display))))) l (d.lock l).share) l (d.lock l) := by
  obtain ⟨u, hu⟩ := Option.ne_none_iff_exists'.mp (hd.holder_ne_none h)
  have href := hd.references_eq h
  have hne : (d.lock l).references ≠ 1 := by omega
  simp only [join, obtain, h, Lock.share, Lock.unshare, hp, leave, setPhase_putLock,
    lock_putLock_self, inFlight_putLock, inFlight_setPhase, hu]
  rw [if_neg (by simp [hne]), ← hu]
  rfl

/-- The table of locks after the first call of a procedure. -/
theorem inFlight_join_new (h : d.inFlight[c.request.identity]? = none) (p : ProcedureId) :
    (d.join t c).inFlight[p]? =
      if p = c.request.identity then some d.nextLock else d.inFlight[p]? := by
  simp [join_of_inFlight_eq_none h, getElem?_insert_eq]

/-- The locks after the first call of a procedure. -/
theorem lock_join_new (h : d.inFlight[c.request.identity]? = none) (m : LockId) :
    (d.join t c).lock m = if m = d.nextLock then ⟨some t, [], 3⟩ else d.lock m := by
  simp only [join_of_inFlight_eq_none h, lock_setPhase, lock_putLock]
  split
  · rfl
  · next hm => simp [lock, getElem?_insert_eq, hm]

/-- The locks after a call that waits. -/
theorem Consistent.lock_join_wait (hd : d.Consistent) (hp : d.policy = .wait)
    (h : d.inFlight[c.request.identity]? = some l) (m : LockId) : (d.join t c).lock m =
      if m = l then ⟨(d.lock l).holder, (d.lock l).queue ++ [t], (d.lock l).references + 2⟩
      else d.lock m := by
  simp [hd.join_of_wait hp h, lock_putLock]

section Join

variable (hd : d.Consistent) (hc : d.calls[t]? = some c) (hl : c.phase.lock? = none)

include hd hc hl

theorem Consistent.movesOnly_join_new (h : d.inFlight[c.request.identity]? = none) :
    d.MovesOnly t { c with phase := .holding d.nextLock } (d.join t c) := by
  obtain ⟨hholder, hqueue⟩ := hd.holder_eq_none fun p hp => Nat.lt_irrefl _ (hd.lock_lt hp)
  have hapart : ∀ {l : LockId}, (d.lock l).holder ≠ some t ∧ t ∉ (d.lock l).queue :=
    hd.apart fun hc' => by cases hc.symm.trans hc'; exact hl
  constructor
  case calls_eq => simp [join_of_inFlight_eq_none h, calls_setPhase, hc]
  case ticket_lt => simpa [join_of_inFlight_eq_none h] using hd.ticket_lt hc
  case ticket_le => simp [join_of_inFlight_eq_none h]
  case inFlight_eq =>
    intro p l hp
    rw [inFlight_join_new h, if_neg, hp]
    rintro rfl
    cases h.symm.trans hp
  case inFlight_self =>
    intro l hm
    rw [inFlight_join_new h, if_pos rfl]
    exact hm
  case holder_iff =>
    intro u m
    rw [lock_join_new h]
    by_cases hm : m = d.nextLock <;> by_cases hu : u = t <;>
      simp [hm, hu, hholder, hapart.1, Phase.held?, eq_comm (a := t) (b := u),
        eq_comm (a := d.nextLock) (b := m)]
  case mem_queue_iff =>
    intro u m
    rw [lock_join_new h]
    by_cases hm : m = d.nextLock <;> by_cases hu : u = t <;> simp [hm, hu, hqueue, hapart.2]

/-- The first call of a procedure leaves a consistent desk. -/
theorem Consistent.join_new (h : d.inFlight[c.request.identity]? = none) :
    (d.join t c).Consistent := by
  -- a lock of the table is the new one, or was there before
  have hold : ∀ {p : ProcedureId} {m : LockId}, (d.join t c).inFlight[p]? = some m →
      p = c.request.identity ∧ m = d.nextLock ∨ m ≠ d.nextLock ∧ d.inFlight[p]? = some m := by
    intro p m hp
    rw [inFlight_join_new h] at hp
    split at hp
    · next hid => exact .inl ⟨hid, (Option.some.inj hp).symm⟩
    · exact .inr ⟨Nat.ne_of_lt (hd.lock_lt hp), hp⟩
  have hnext : (d.join t c).nextLock = d.nextLock + 1 := by simp [join_of_inFlight_eq_none h]
  refine hd.of_movesOnly (hd.movesOnly_join_new hc hl h) (fun {p m} hp => ?_)
    (fun {p q m} hp hq => ?_) (fun {m} => ?_) (fun {p m} hp => ?_) fun {p m} hp => ?_
  · rw [hnext]
    rcases hold hp with ⟨-, rfl⟩ | ⟨-, hp⟩
    · exact Nat.lt_succ_self _
    · exact Nat.lt_succ_of_lt (hd.lock_lt hp)
  · rcases hold hp with ⟨rfl, rfl⟩ | ⟨hm, hp⟩
    · exact (hold hq).elim (fun h => h.1.symm) fun h => absurd rfl h.1
    · exact (hold hq).elim (fun h => absurd h.2 hm) fun h => hd.procedure_eq hp h.2
  · rw [lock_join_new h]
    split
    · exact List.nodup_nil
    · exact hd.queue_nodup
  · rw [lock_join_new h]
    rcases hold hp with ⟨-, rfl⟩ | ⟨hm, hp⟩
    · simp
    · rw [if_neg hm]
      exact hd.holder_ne_none hp
  · rw [lock_join_new h]
    rcases hold hp with ⟨-, rfl⟩ | ⟨hm, hp⟩
    · simp
    · rw [if_neg hm]
      exact hd.references_eq hp

theorem Consistent.movesOnly_join_wait (hp : d.policy = .wait)
    (h : d.inFlight[c.request.identity]? = some l) :
    d.MovesOnly t { c with phase := .queued l } (d.join t c) := by
  have hapart : ∀ {l : LockId}, (d.lock l).holder ≠ some t ∧ t ∉ (d.lock l).queue :=
    hd.apart fun hc' => by cases hc.symm.trans hc'; exact hl
  have hflight : (d.join t c).inFlight = d.inFlight := by simp [hd.join_of_wait hp h]
  constructor
  case calls_eq => simp [hd.join_of_wait hp h, calls_setPhase, hc]
  case ticket_lt => simpa [hd.join_of_wait hp h] using hd.ticket_lt hc
  case ticket_le => simp [hd.join_of_wait hp h]
  case inFlight_eq =>
    intro p m hin
    rwa [hflight]
  case inFlight_self =>
    intro m hm
    cases hm
    rwa [hflight]
  case holder_iff =>
    intro u m
    rw [hd.lock_join_wait hp h]
    by_cases hm : m = l <;> by_cases hu : u = t <;> simp [hm, hu, hapart.1, Phase.held?]
  case mem_queue_iff =>
    intro u m
    rw [hd.lock_join_wait hp h]
    by_cases hm : m = l <;> by_cases hu : u = t <;>
      simp [hm, hu, hapart.2, eq_comm (a := l) (b := m)]

/-- A call that waits leaves a consistent desk. -/
theorem Consistent.join_wait (hp : d.policy = .wait)
    (h : d.inFlight[c.request.identity]? = some l) : (d.join t c).Consistent := by
  have hflight : (d.join t c).inFlight = d.inFlight := by simp [hd.join_of_wait hp h]
  have hnext : (d.join t c).nextLock = d.nextLock := by simp [hd.join_of_wait hp h]
  refine hd.of_movesOnly (hd.movesOnly_join_wait hc hl hp h) ?_ ?_ (fun {m} => ?_)
    (fun {p m} hin => ?_) fun {p m} hin => ?_
  · rw [hflight, hnext]
    exact hd.lock_lt
  · rw [hflight]
    exact hd.procedure_eq
  · rw [hd.lock_join_wait hp h]
    split
    · have hapart : t ∉ (d.lock l).queue :=
        (hd.apart fun hc' => by cases hc.symm.trans hc'; exact hl).2
      exact List.nodup_append.mpr ⟨hd.queue_nodup, by simp,
        fun u hu v hv he => hapart (List.mem_singleton.mp hv ▸ he ▸ hu)⟩
    · exact hd.queue_nodup
  · rw [hflight] at hin
    rw [hd.lock_join_wait hp h]
    split
    · exact hd.holder_ne_none h
    · exact hd.holder_ne_none hin
  · rw [hflight] at hin
    rw [hd.lock_join_wait hp h]
    split
    · simp only [hd.references_eq h, List.length_append, List.length_singleton]
      omega
    · exact hd.references_eq hin

theorem Consistent.join_reject (hp : d.policy = .reject)
    (h : d.inFlight[c.request.identity]? = some l) : (d.join t c).Consistent := by
  have hset : (d.setPhase t (.done (.error (.conflict
      (.inFlight c.request.identity.display))))).Consistent := by
    refine hd.setPhase hc ?_ fun m => ?_
    · cases hph : c.phase <;> simp_all [Phase.held?, Phase.lock?]
    · cases hph : c.phase <;> simp_all [Phase.lock?]
  rw [hd.join_of_reject hp h]
  refine hset.congr (fun u => rfl) (fun q => rfl) (fun m => ?_) rfl rfl
  simp only [lock_putLock, lock_setPhase]
  split
  · next hm => rw [hm]
  · rfl

/-- A call that takes part in the lock of its procedure leaves a consistent desk. -/
theorem Consistent.join : (d.join t c).Consistent := by
  cases h : d.inFlight[c.request.identity]? with
  | none => exact hd.join_new hc hl h
  | some l =>
    cases hp : d.policy with
    | wait => exact hd.join_wait hc hl hp h
    | reject => exact hd.join_reject hc hl hp h

end Join

end Desk

end TierLineage.Flight
