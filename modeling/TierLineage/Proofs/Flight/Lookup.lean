import TierLineage.Flight
import TierLineage.Proofs.Order

/-!
# What changes of a desk show

Every change of a `Desk` is described by what is found afterwards: the call under a ticket, the lock
under a number, the lock of a procedure.  Nothing else about a change is used later on.

A call *has* a lock from the moment the lock is given to it until it ends, and *takes part* in it
from the moment it asks for it.  When a call that has a lock lets go of it, the first call in the
queue is its heir.
-/

namespace TierLineage.Flight

/-! ### Phases -/

namespace Phase

/-- The lock that a call has. -/
def held? : Phase → Option LockId
  | holding l => some l
  | analyzing l _ => some l
  | storing l _ => some l
  | _ => none

/-- Whether a call is answered or given up. -/
def ended : Phase → Bool
  | done _ => true
  | dropped => true
  | _ => false

theorem lock?_eq_some_iff {p : Phase} {l : LockId} :
    p.lock? = some l ↔ p.held? = some l ∨ p = .queued l := by
  cases p <;> simp [lock?, held?]

theorem lock?_of_held? {p : Phase} {l : LockId} (h : p.held? = some l) : p.lock? = some l :=
  lock?_eq_some_iff.mpr (.inl h)

theorem lock?_of_ended {p : Phase} (h : p.ended = true) : p.lock? = none := by
  cases p <;> simp_all [lock?, ended]

theorem held?_of_lock?_eq_none {p : Phase} (h : p.lock? = none) : p.held? = none := by
  cases p <;> simp_all [held?, lock?]

theorem held?_of_ended {p : Phase} (h : p.ended = true) : p.held? = none :=
  held?_of_lock?_eq_none (lock?_of_ended h)

end Phase

/-! ### Locks -/

/-- A lock after a call has let go of it: if the call had it, the first one of the queue has it now,
and if the call waited for it, it does not wait any more. -/
def Lock.without (k : Lock) (t : Ticket) : Lock :=
  if k.holder = some t then ⟨k.queue.head?, k.queue.tail, k.references - 1⟩
  else ⟨k.holder, k.queue.filter (· != t), k.references - 1⟩

/-- The call that gets a lock when another one lets go of it. -/
def Lock.heir? (k : Lock) (t : Ticket) : Option Ticket :=
  if k.holder = some t then k.queue.head? else none

namespace Lock

variable {k : Lock} {t u : Ticket}

theorem holder_without :
    (k.without t).holder = some u ↔ k.heir? t = some u ∨ (k.holder = some u ∧ u ≠ t) := by
  rw [without, heir?]
  by_cases h : k.holder = some t
  · simp only [h, if_true, Option.some.injEq]
    refine ⟨.inl, fun hu => hu.resolve_right fun ⟨he, hne⟩ => hne he.symm⟩
  · simp only [h, if_false, reduceCtorEq, false_or]
    exact ⟨fun hu => ⟨hu, fun he => h (he ▸ hu)⟩, And.left⟩

theorem holder_without_ne_none (hq : k.queue ≠ []) (hk : k.holder ≠ none) :
    (k.without t).holder ≠ none := by
  rw [without]
  split
  · simpa using hq
  · exact hk

theorem mem_queue_without (hnodup : k.queue.Nodup) (ht : k.holder = some t → t ∉ k.queue) :
    u ∈ (k.without t).queue ↔ u ∈ k.queue ∧ u ≠ t ∧ k.heir? t ≠ some u := by
  rw [without, heir?]
  by_cases h : k.holder = some t
  · simp only [h, if_true]
    cases hq : k.queue with
    | nil => simp
    | cons n rest =>
      rw [hq] at hnodup
      have hn := (List.nodup_cons.mp hnodup).1
      have ht := ht h
      rw [hq] at ht
      simp only [List.tail_cons, List.head?_cons, List.mem_cons, ne_eq, Option.some.injEq]
      constructor
      · intro hu
        exact ⟨.inr hu, fun he => ht (he ▸ List.mem_cons_of_mem _ hu), fun he => hn (he ▸ hu)⟩
      · rintro ⟨hu, -, hne⟩
        exact hu.resolve_left fun he => hne he.symm
  · simp [h]

theorem queue_without_nodup (hnodup : k.queue.Nodup) : (k.without t).queue.Nodup := by
  rw [without]
  split
  · exact hnodup.sublist (List.tail_sublist _)
  · exact hnodup.filter _

/-- Whoever lets go of a lock that others wait for leaves the lock to one of them, and two
references less. -/
theorem references_without (hpart : k.holder = some t ∨ t ∈ k.queue) (hq : k.queue ≠ [])
    (hnodup : k.queue.Nodup) (href : k.references = 2 * k.queue.length + 3) :
    (k.without t).unshare.references = 2 * (k.without t).queue.length + 3 := by
  have hlen : 0 < k.queue.length := List.length_pos_iff.mpr hq
  rw [without, unshare]
  split
  · simp only [List.length_tail]
    omega
  · next h =>
    have ht := hpart.resolve_left h
    have herase : k.queue.filter (· != t) = k.queue.erase t := (hnodup.erase_eq_filter t).symm
    simp only [herase, List.length_erase_of_mem ht]
    omega

end Lock

namespace Desk

variable (d : Desk)

/-! ### Single changes -/

theorem calls_setPhase (t u : Ticket) (p : Phase) :
    (d.setPhase t p).calls[u]? =
      if u = t then (d.calls[t]?).map fun c => { c with phase := p } else d.calls[u]? := by
  rw [setPhase]
  split
  · next c hc => simp only [getElem?_insert_eq, hc, Option.map_some]
  · next hc =>
    by_cases h : u = t
    · simp [h, hc]
    · simp [h]

@[simp] theorem policy_setPhase (t : Ticket) (p : Phase) :
    (d.setPhase t p).policy = d.policy := by
  rw [setPhase]; split <;> rfl

@[simp] theorem store_setPhase (t : Ticket) (p : Phase) : (d.setPhase t p).store = d.store := by
  rw [setPhase]; split <;> rfl

@[simp] theorem asked_setPhase (t : Ticket) (p : Phase) : (d.setPhase t p).asked = d.asked := by
  rw [setPhase]; split <;> rfl

@[simp] theorem inFlight_setPhase (t : Ticket) (p : Phase) :
    (d.setPhase t p).inFlight = d.inFlight := by
  rw [setPhase]; split <;> rfl

@[simp] theorem nextTicket_setPhase (t : Ticket) (p : Phase) :
    (d.setPhase t p).nextTicket = d.nextTicket := by
  rw [setPhase]; split <;> rfl

@[simp] theorem nextLock_setPhase (t : Ticket) (p : Phase) :
    (d.setPhase t p).nextLock = d.nextLock := by
  rw [setPhase]; split <;> rfl

@[simp] theorem lock_setPhase (t : Ticket) (p : Phase) (l : LockId) :
    (d.setPhase t p).lock l = d.lock l := by
  rw [setPhase]; split <;> rfl

theorem lock_putLock (l m : LockId) (k : Lock) :
    (d.putLock l k).lock m = if m = l then k else d.lock m := by
  simp only [lock, putLock, getElem?_insert_eq]
  split <;> rfl

theorem lock_eraseLock (f : Std.TreeMap ProcedureId LockId) (l m : LockId) :
    Desk.lock { d with inFlight := f, locks := d.locks.erase l } m =
      if m = l then Lock.free else d.lock m := by
  simp only [lock, getElem?_erase_eq]
  split <;> rfl

@[simp] theorem lock_putLock_self (l : LockId) (k : Lock) : (d.putLock l k).lock l = k := by
  simp [lock_putLock]

@[simp] theorem policy_putLock (l : LockId) (k : Lock) : (d.putLock l k).policy = d.policy := rfl

@[simp] theorem store_putLock (l : LockId) (k : Lock) : (d.putLock l k).store = d.store := rfl

@[simp] theorem asked_putLock (l : LockId) (k : Lock) : (d.putLock l k).asked = d.asked := rfl

@[simp] theorem calls_putLock (l : LockId) (k : Lock) : (d.putLock l k).calls = d.calls := rfl

@[simp] theorem inFlight_putLock (l : LockId) (k : Lock) :
    (d.putLock l k).inFlight = d.inFlight := rfl

@[simp] theorem nextTicket_putLock (l : LockId) (k : Lock) :
    (d.putLock l k).nextTicket = d.nextTicket := rfl

@[simp] theorem nextLock_putLock (l : LockId) (k : Lock) :
    (d.putLock l k).nextLock = d.nextLock := rfl

/-! ### Letting go of a lock -/

/-- The heir of a lock has it from now on. -/
def pass (d : Desk) (heir : Option Ticket) (l : LockId) : Desk :=
  match heir with
  | some t => d.setPhase t (.holding l)
  | none => d

theorem calls_pass (heir : Option Ticket) (l : LockId) (u : Ticket) :
    (d.pass heir l).calls[u]? =
      if heir = some u then (d.calls[u]?).map fun c => { c with phase := .holding l }
      else d.calls[u]? := by
  cases heir with
  | none => rfl
  | some t =>
    rw [pass, calls_setPhase]
    by_cases h : u = t
    · subst h
      simp
    · rw [if_neg h, if_neg fun he => h (Option.some.inj he).symm]

/-- A desk and what becomes of it agree in what calls cannot change by letting go of a lock. -/
theorem frame_pass (heir : Option Ticket) (l : LockId) :
    (d.pass heir l).policy = d.policy ∧ (d.pass heir l).store = d.store ∧
      (d.pass heir l).asked = d.asked ∧ (d.pass heir l).inFlight = d.inFlight ∧
      (d.pass heir l).nextTicket = d.nextTicket ∧ (d.pass heir l).nextLock = d.nextLock ∧
      ∀ m, (d.pass heir l).lock m = d.lock m := by
  cases heir <;> simp [pass]

theorem setPhase_putLock (t : Ticket) (p : Phase) (l : LockId) (k : Lock) :
    (d.putLock l k).setPhase t p = (d.setPhase t p).putLock l k := by
  rw [setPhase, setPhase, calls_putLock]
  split <;> rfl

theorem release_eq (t : Ticket) (l : LockId) :
    d.release t l =
      (d.pass ((d.lock l).heir? t) l).putLock l ((d.lock l).without t) := by
  rw [release, Lock.without, Lock.heir?, Lock.unshare]
  by_cases h : (d.lock l).holder = some t
  · simp only [h, if_true]
    split
    · next next rest hq => simp [hq, pass, setPhase_putLock]
    · next hq => simp [hq, pass]
  · simp [h, pass]

variable {d} {t : Ticket} {c : Call} {l : LockId}

theorem finish_eq (last : Phase) (hl : c.phase.lock? = some l) :
    d.finish t c last =
      (((d.setPhase t last).pass ((d.lock l).heir? t) l).putLock l ((d.lock l).without t)).leave
        c.request.identity l := by
  simp only [finish, hl, release_eq, lock_setPhase]

theorem finish_of_lock?_eq_none (last : Phase) (hl : c.phase.lock? = none) :
    d.finish t c last = d.setPhase t last := by
  simp only [finish, hl]

/-- Letting go of the own reference changes nothing but the table and the lock. -/
theorem frame_leave (d : Desk) (p : ProcedureId) (l : LockId) :
    (d.leave p l).policy = d.policy ∧ (d.leave p l).store = d.store ∧
      (d.leave p l).asked = d.asked ∧ (d.leave p l).calls = d.calls ∧
      (d.leave p l).nextTicket = d.nextTicket ∧ (d.leave p l).nextLock = d.nextLock := by
  rw [leave]
  split <;> simp

/-- A call ends without any change to what it shares with others, its lock apart. -/
theorem frame_finish (d : Desk) (t : Ticket) (c : Call) (last : Phase) :
    (d.finish t c last).policy = d.policy ∧ (d.finish t c last).store = d.store ∧
      (d.finish t c last).asked = d.asked ∧ (d.finish t c last).nextTicket = d.nextTicket ∧
      (d.finish t c last).nextLock = d.nextLock := by
  cases hl : c.phase.lock? with
  | none => simp [finish_of_lock?_eq_none last hl]
  | some l =>
    obtain ⟨hp, hs, ha, -, hn, hk⟩ := frame_leave
      (((d.setPhase t last).pass ((d.lock l).heir? t) l).putLock l ((d.lock l).without t))
      c.request.identity l
    obtain ⟨hp', hs', ha', -, hn', hk', -⟩ :=
      frame_pass (d.setPhase t last) ((d.lock l).heir? t) l
    rw [finish_eq last hl, hp, hs, ha, hn, hk]
    simp [hp', hs', ha', hn', hk']

end Desk

end TierLineage.Flight
