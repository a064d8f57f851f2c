import Mathlib.Data.List.Chain
import TierLineage.Model.Session
import TierLineage.Sample.Warehouse

/-!
# The spacing of requests

A pacer takes down when a request is made, not when it is sent, and lets the next one go no sooner than the
interval after that moment.  So what a request has waited is lost to the spacing: the next one may follow it
as closely as it had followed the making of the one before.  What remains is that every request is sent at
least the interval after the one before it was made, thus at least the interval after the last but one was
sent; and no stretch of time as long as the interval sees more than two requests.

All of this is one law of two requests in a row (`Told.Follows`), which every step of a session keeps.
-/

namespace TierLineage.Model

/-! ### One request -/

namespace Pacer

variable {p : Pacer} {now : Nat}

/-- A request is sent the interval after the moment taken down, or at once if that is over. -/
theorem send_fst_of_le (hlast : 0 < p.last) (hnow : p.last ≤ now) :
    (p.send now).1 = max now (p.last + p.interval) := by
  simp only [send, wait]
  split <;> omega

/-- A request made before the moment taken down waits for all of the interval. -/
theorem send_fst_of_lt (hnow : now < p.last) : (p.send now).1 = now + p.interval := by
  simp only [send, wait]
  split <;> omega

theorem send_fst_of_new (hnew : p.last = 0) : (p.send now).1 = now := by
  simp [send, wait, hnew]

theorem le_send_fst (p : Pacer) (now : Nat) : now ≤ (p.send now).1 :=
  Nat.le_add_right ..

theorem send_fst_le (p : Pacer) (now : Nat) : (p.send now).1 ≤ now + p.interval := by
  simp only [send, wait]
  split <;> omega

end Pacer

/-! ### Two requests in a row -/

namespace Told

variable {interval : Nat} {t t' : Told} {ts : List Told}

/-- How a request follows the one before it. -/
structure Follows (interval : Nat) (t t' : Told) : Prop where
  made_le : t.made ≤ t.sent
  sent_le : t.sent ≤ t.made + interval
  after : t.sent ≤ t'.made
  /-- The moment zero is taken down as one; only a request that is made at it again is sent a millisecond sooner. -/
  sent_eq : t'.sent = if t'.made = 0 then interval else max t'.made (max t.made 1 + interval)

/-- Whether two requests are sent at least the interval apart, up to a millisecond. -/
def Spaced (interval : Nat) (t t' : Told) : Prop :=
  interval ≤ t'.sent - t.sent + 1

/-- Whether the first of two requests has not waited, up to a millisecond, or the second was made late enough
by itself. -/
def Unhurried (interval : Nat) (t t' : Told) : Prop :=
  t.sent ≤ max t.made 1 + 1 ∨ interval ≤ t'.made - t.sent + 1

theorem Follows.le (h : Follows interval t t') : t.made + interval ≤ t'.sent := by
  obtain ⟨hmade, hsent, hafter, heq⟩ := h
  split at heq <;> omega

theorem Follows.mono (h : Follows interval t t') : t.sent ≤ t'.sent := by
  obtain ⟨hmade, hsent, hafter, heq⟩ := h
  split at heq <;> omega

/-- The spacing is kept just where there is nothing to lose. -/
theorem Follows.spaced_iff (h : Follows interval t t') :
    Spaced interval t t' ↔ Unhurried interval t t' := by
  obtain ⟨hmade, hsent, hafter, heq⟩ := h
  rw [Spaced, Unhurried]
  split at heq <;> omega

theorem le_of_isChain (h : (t :: ts).IsChain (Follows interval)) : ∀ u ∈ ts, t.sent ≤ u.sent := by
  induction ts generalizing t with
  | nil => simp
  | cons t' ts ih =>
    obtain ⟨hfollows, hrest⟩ := List.isChain_cons_cons.mp h
    intro u hu
    rcases List.mem_cons.mp hu with rfl | hu
    · exact hfollows.mono
    · exact hfollows.mono.trans (ih hrest u hu)

/-- From the last but one on, requests are the interval apart. -/
theorem apart_of_isChain (h : (t :: t' :: ts).IsChain (Follows interval)) :
    ∀ u ∈ ts, t.sent + interval ≤ u.sent := by
  obtain ⟨hfirst, hrest⟩ := List.isChain_cons_cons.mp h
  rcases ts with _ | ⟨t'', ts⟩
  · simp
  · obtain ⟨hsecond, hlater⟩ := List.isChain_cons_cons.mp hrest
    have hthird : t.sent + interval ≤ t''.sent :=
      (Nat.add_le_add_right hfirst.after interval).trans hsecond.le
    intro u hu
    rcases List.mem_cons.mp hu with rfl | hu
    · exact hthird
    · exact hthird.trans (le_of_isChain hlater u hu)

/-- Whether a request is sent in a stretch of time of some length. -/
def sentWithin (start length : Nat) (t : Told) : Bool :=
  decide (start ≤ t.sent ∧ t.sent < start + length)

theorem countP_sentWithin_le (h : ts.IsChain (Follows interval)) (start : Nat) :
    ts.countP (sentWithin start interval) ≤ 2 := by
  induction ts with
  | nil => simp
  | cons t ts ih =>
    by_cases ht : sentWithin start interval t = true
    · rcases ts with _ | ⟨t', ts⟩
      · exact List.countP_le_length.trans (by simp)
      · -- whatever comes after the second request is sent too late
        have hlate : ts.countP (sentWithin start interval) = 0 := by
          rw [List.countP_eq_zero]
          intro u hu
          have hu := apart_of_isChain h u hu
          simp only [sentWithin, decide_eq_true_eq] at ht ⊢
          omega
        have hsecond : [t'].countP (sentWithin start interval) ≤ 1 := List.countP_le_length
        rw [List.countP_cons_of_pos ht, ← List.singleton_append, List.countP_append, hlate]
        omega
    · rw [List.countP_cons_of_neg ht]
      exact ih h.tail

end Told

/-! ### Sessions -/

namespace Session

/-- The least time between requests. -/
def interval (s : Session) : Nat := s.speaker.client.pacer.interval

@[simp]
theorem interval_ask (s : Session) (q : Inquiry) : (s.ask q).2.interval = s.interval := rfl

theorem made_ask (s : Session) (q : Inquiry) : (s.ask q).1.made = s.clock + q.pause := rfl

theorem sent_ask (s : Session) (q : Inquiry) :
    (s.ask q).1.sent = (s.speaker.client.pacer.send (s.clock + q.pause)).1 := rfl

theorem clock_ask (s : Session) (q : Inquiry) : (s.ask q).2.clock = (s.ask q).1.sent := rfl

theorem pacer_ask (s : Session) (q : Inquiry) :
    (s.ask q).2.speaker.client.pacer = ⟨s.interval, max (s.ask q).1.made 1⟩ := rfl

theorem askAll_cons (s : Session) (q : Inquiry) (qs : List Inquiry) :
    (s.askAll (q :: qs)).1 = (s.ask q).1 :: ((s.ask q).2.askAll qs).1 := rfl

/-- Each request follows the one before it. -/
theorem follows_ask (s : Session) (q q' : Inquiry) :
    Told.Follows s.interval (s.ask q).1 ((s.ask q).2.ask q').1 := by
  have hmade : (s.ask q).1.made ≤ (s.ask q).1.sent := Pacer.le_send_fst ..
  have hafter : (s.ask q).1.sent ≤ ((s.ask q).2.ask q').1.made := by
    rw [made_ask, clock_ask]
    omega
  refine ⟨hmade, Pacer.send_fst_le .., hafter, ?_⟩
  rw [sent_ask, ← made_ask, pacer_ask]
  split
  · rw [Pacer.send_fst_of_lt] <;> dsimp only <;> omega
  · rw [Pacer.send_fst_of_le] <;> dsimp only <;> omega

theorem isChain_askAll (s : Session) (qs : List Inquiry) :
    (s.askAll qs).1.IsChain (Told.Follows s.interval) := by
  induction qs generalizing s with
  | nil => exact .nil
  | cons q qs ih =>
    rcases qs with _ | ⟨q', qs⟩
    · exact .singleton _
    · have hrest := ih (s.ask q).2
      rw [askAll_cons, askAll_cons]
      rw [askAll_cons] at hrest
      exact List.isChain_cons_cons.mpr ⟨s.follows_ask q q', hrest⟩

/-- **What the pacer keeps**: in every session a request follows the one before it by one law, and so is sent at
least the interval after that one was made.  It is sent the interval after that one was sent just if that one
has not waited, or if the question itself came late.  No stretch of time as long as the interval sees more than
two requests. -/
theorem spaced_askAll (s : Session) (qs : List Inquiry) :
    (s.askAll qs).1.IsChain (fun t t' => Told.Follows s.interval t t' ∧ t.made + s.interval ≤ t'.sent ∧
        (Told.Spaced s.interval t t' ↔ Told.Unhurried s.interval t t')) ∧
      ∀ start, (s.askAll qs).1.countP (Told.sentWithin start s.interval) ≤ 2 := by
  have hchain := isChain_askAll s qs
  exact ⟨hchain.imp fun _ _ h => ⟨h, h.le, h.spaced_iff⟩, Told.countP_sentWithin_le hchain⟩

/-! ### Questions in a hurry -/

/-- Of three questions of which the first is sent at once, the third is sent as long after the second as the
second was made after the first, however long the interval is. -/
theorem sent_third (s : Session) (q q' q'' : Inquiry) (hnew : s.speaker.client.pacer.last = 0)
    (hclock : 0 < s.clock + q.pause) (hpause : q'.pause ≤ s.interval) (hpause' : q''.pause ≤ q'.pause) :
    (((s.ask q).2.ask q').2.ask q'').1.sent = ((s.ask q).2.ask q').1.sent + q'.pause := by
  have hfirst : (s.ask q).1.sent = (s.ask q).1.made := Pacer.send_fst_of_new hnew
  have hmade := made_ask s q
  have hmade' := made_ask (s.ask q).2 q'
  have hmade'' := made_ask ((s.ask q).2.ask q').2 q''
  have hsecond := (follows_ask s q q').sent_eq
  have hthird := (follows_ask (s.ask q).2 q' q'').sent_eq
  rw [clock_ask] at hmade' hmade''
  rw [interval_ask] at hthird
  split at hsecond <;> split at hthird <;> omega

/-- A session with a model that takes a request a second. -/
def hurriedSession : Session :=
  start ⟨.ofKey "sk-test" 60, "gpt-4o", 2000, "Unknown."⟩

/-- A question to which nothing is sent back. -/
def hurriedInquiry (pause : Nat) : Inquiry :=
  ⟨pause, ⟨⟨Warehouse.erp, "load"⟩, "SELECT 1"⟩, fun _ => none⟩

/-- Three questions, made at 1000, 1001 and 2000. -/
def hurriedInquiries : List Inquiry :=
  [hurriedInquiry 1000, hurriedInquiry 1, hurriedInquiry 0]

/-- The spacing is not kept in every session: here the third question follows the second after a millisecond. -/
theorem not_spaced_hurried : (hurriedSession.askAll hurriedInquiries).1.map Told.sent = [1000, 2000, 2001] ∧
    ¬ (hurriedSession.askAll hurriedInquiries).1.IsChain (Told.Spaced hurriedSession.interval) := by
  refine ⟨rfl, fun h => ?_⟩
  rw [hurriedInquiries, askAll_cons, askAll_cons, askAll_cons] at h
  have hspaced := (List.isChain_cons_cons.mp (List.isChain_cons_cons.mp h).2).1
  have hinterval : hurriedSession.interval = 1000 := rfl
  have hthird := sent_third hurriedSession (hurriedInquiry 1000) (hurriedInquiry 1) (hurriedInquiry 0)
    rfl (by decide) (by decide) (by decide)
  have hpause : (hurriedInquiry 1).pause = 1 := rfl
  rw [Told.Spaced] at hspaced
  omega

end Session

end TierLineage.Model
