import TierLineage.Model.Line
import TierLineage.Proofs.Model.Spacing

/-!
# Requests that overlap

Questions to a model may come while others wait.  A request is told how long to wait when it is
made, by the last request that was sent before; those that are sent while it waits make no
difference to it.  So every request follows some request before it by the law of two requests in a
row, but not always the one right before it: requests that wait at the same time are sent at the
same time, and nothing is left of the spacing.

The argument is one fact about a request from its making on (`Paced`), which everything that happens
at the line keeps.
-/

namespace TierLineage.Model

/-! ### What happens at a line -/

/-- What happens to a request. -/
inductive Happening where
  | enter (number : Nat)
  | send (number : Nat) (request : AnalysisRequest)
  | leave (number : Nat)

/-- A line, the time, and the requests that were sent so far. -/
structure Traffic where
  line : Line
  clock : Nat
  told : List Told

namespace Traffic

/-- A line to which no request has come. -/
def start (s : Speaker) (exchange : Question → Option Received) : Traffic :=
  ⟨.start s exchange, 0, []⟩

/-- Let something happen after a pause.  A request is sent at the moment at which it is due, and at
no other. -/
def step (x : Traffic) (pause : Nat) (h : Happening) : Traffic :=
  let now := x.clock + pause
  match h with
  | .enter n => ⟨x.line.enter n now now, now, x.told⟩
  | .leave n => ⟨x.line.leave n now now, now, x.told⟩
  | .send n r =>
    match (x.line.passage? n).filter fun p => decide (p.due = now) with
    | some p => ⟨x.line.send p r now now, now, x.told ++ [⟨p.made, now, x.line.answer r⟩]⟩
    | none => { x with clock := now }

/-- Let one thing happen after another. -/
def run (x : Traffic) (hs : List (Nat × Happening)) : Traffic :=
  hs.foldl (fun x h => x.step h.1 h.2) x

/-- A question that comes to a line without others is asked as in a session. -/
theorem ask_alone {x : Traffic} (hpassing : x.line.passing = []) (hwaiting : x.line.waiting = [])
    (hpermits : 0 < x.line.speaker.client.permits) (pause n : Nat) (r : AnalysisRequest) :
    let asked := (⟨x.line.speaker, x.line.usage, x.clock⟩ : Session).ask ⟨pause, r, x.line.exchange⟩
    (x.step pause (.enter n)).step (asked.1.sent - asked.1.made) (.send n r) =
      ⟨⟨asked.2.speaker, x.line.exchange, asked.2.usage, [], []⟩, asked.2.clock, x.told ++ [asked.1]⟩ := by
  obtain ⟨⟨s, e, u, ps, ns⟩, clock, told⟩ := x
  obtain rfl : ps = [] := hpassing
  obtain rfl : ns = [] := hwaiting
  have hroom : (⟨s, e, u, [], []⟩ : Line).HasRoom := hpermits
  intro asked
  have hsent : clock + pause + (asked.1.sent - asked.1.made) = asked.1.sent := by
    have hle : asked.1.made ≤ asked.1.sent := Nat.le_add_right ..
    have hmade : asked.1.made = clock + pause := rfl
    omega
  have henter : (⟨⟨s, e, u, [], []⟩, clock, told⟩ : Traffic).step pause (.enter n) =
      ⟨⟨s, e, u, [⟨n, asked.1.made, asked.1.sent⟩], []⟩, clock + pause, told⟩ := by
    rw [step, Line.enter, if_pos hroom]
    rfl
  rw [henter, step]
  dsimp only
  rw [hsent]
  have hpassage : (⟨s, e, u, [⟨n, asked.1.made, asked.1.sent⟩], []⟩ : Line).passage? n =
      some ⟨n, asked.1.made, asked.1.sent⟩ := by simp [Line.passage?]
  rw [hpassage, Option.filter_some, decide_eq_true rfl, if_pos rfl]
  simp only [Line.send, Line.leave, List.eraseP_cons, beq_self_eq_true]
  rfl
end Traffic

/-! ### One request -/

/-- The pacer after requests. -/
def Pacer.after (p : Pacer) (ts : List Told) : Pacer :=
  (ts.getLast?).elim p fun t => p.mark t.made

theorem Pacer.after_concat (p : Pacer) (ts : List Told) (t : Told) :
    p.after (ts ++ [t]) = (p.after ts).mark t.made := by
  rw [after, after, List.getLast?_concat, Option.elim_some]
  cases ts.getLast? <;> rfl

theorem Pacer.wait_le (p : Pacer) (now : Nat) : p.wait now ≤ p.interval := by
  rw [wait]
  split <;> omega

theorem Pacer.interval_after (p : Pacer) (ts : List Told) : (p.after ts).interval = p.interval := by
  rw [after]
  cases ts.getLast? <;> rfl

/-- Whether a request is sent as the pacer told it when it was made, after some of the requests that
were sent before and while others were still waiting. -/
def Paced (p : Pacer) (before : List Told) (made sent : Nat) : Prop :=
  ∃ past during, before = past ++ during ∧ (∀ u ∈ past, u.sent ≤ made) ∧ (∀ u ∈ during, made ≤ u.sent) ∧
    sent = made + (p.after past).wait made

namespace Paced

variable {p : Pacer} {before : List Told} {made sent : Nat}

/-- A request that is made now is told to wait by all requests that were sent. -/
theorem now (h : ∀ u ∈ before, u.sent ≤ made) : Paced p before made (made + (p.after before).wait made) :=
  ⟨before, [], (List.append_nil before).symm, h, nofun, rfl⟩

/-- A request that is sent while another one waits makes no difference to that one. -/
theorem concat (h : Paced p before made sent) {u : Told} (hu : made ≤ u.sent) :
    Paced p (before ++ [u]) made sent := by
  obtain ⟨past, during, rfl, hpast, hduring, hsent⟩ := h
  refine ⟨past, during ++ [u], List.append_assoc .., hpast, ?_, hsent⟩
  intro v hv
  rcases List.mem_append.mp hv with hv | hv
  · exact hduring v hv
  · rw [List.mem_singleton.mp hv]
    exact hu

theorem made_le (h : Paced p before made sent) : made ≤ sent := by
  obtain ⟨past, during, -, -, -, rfl⟩ := h
  exact Nat.le_add_right ..

theorem sent_le (h : Paced p before made sent) : sent ≤ made + p.interval := by
  obtain ⟨past, during, -, -, -, rfl⟩ := h
  exact Nat.add_le_add_left ((Pacer.wait_le _ _).trans_eq (p.interval_after past)) made

end Paced

/-! ### The line -/

namespace Traffic

/-- What holds of a line between two things that happen at it. -/
structure Kept (p : Pacer) (x : Traffic) : Prop where
  pacer : x.line.speaker.client.pacer = p.after x.told
  sent_le : ∀ t ∈ x.told, t.sent ≤ x.clock
  passing : ∀ q ∈ x.line.passing, q.made ≤ x.clock ∧ Paced p x.told q.made q.due
  told : ∀ before t after, x.told = before ++ t :: after → Paced p before t.made t.sent

variable {p : Pacer} {x : Traffic} {n now : Nat}

theorem kept_start (s : Speaker) (exchange : Question → Option Received) :
    (start s exchange).Kept s.client.pacer where
  pacer := rfl
  sent_le := nofun
  passing := nofun
  told before t after h := by simp [start] at h

namespace Kept

/-- Time passes, and requests leave. -/
theorem later (h : x.Kept p) (hnow : x.clock ≤ now) {l : Line} (hspeaker : l.speaker = x.line.speaker)
    (hpassing : ∀ q ∈ l.passing, q ∈ x.line.passing) : (⟨l, now, x.told⟩ : Traffic).Kept p where
  pacer := by rw [hspeaker, h.pacer]
  sent_le t ht := (h.sent_le t ht).trans hnow
  passing q hq := (h.passing q (hpassing q hq)).imp_left fun hmade => hmade.trans hnow
  told := h.told

/-- A request is made. -/
theorem grant (h : x.Kept p) (n : Nat) :
    (⟨x.line.grant n x.clock x.clock, x.clock, x.told⟩ : Traffic).Kept p where
  pacer := h.pacer
  sent_le := h.sent_le
  passing q hq := by
    rcases List.mem_append.mp hq with hq | hq
    · exact h.passing q hq
    · rw [List.mem_singleton.mp hq]
      refine ⟨Nat.le_refl _, ?_⟩
      dsimp only
      rw [h.pacer]
      exact .now h.sent_le
  told := h.told

theorem grantNext (h : x.Kept p) :
    (⟨x.line.grantNext x.clock x.clock, x.clock, x.told⟩ : Traffic).Kept p := by
  rw [Line.grantNext]
  split
  · exact h
  · next n ns hwaiting =>
    split
    · have hrest : (⟨{ x.line with waiting := ns }, x.clock, x.told⟩ : Traffic).Kept p :=
        h.later (Nat.le_refl _) rfl fun _ hq => hq
      exact hrest.grant n
    · exact h

theorem leave (h : x.Kept p) (n : Nat) :
    (⟨x.line.leave n x.clock x.clock, x.clock, x.told⟩ : Traffic).Kept p := by
  have hrest : (⟨{ x.line with
      passing := x.line.passing.eraseP (·.number == n)
      waiting := x.line.waiting.erase n }, x.clock, x.told⟩ : Traffic).Kept p :=
    h.later (Nat.le_refl _) rfl fun _ hq => List.mem_of_mem_eraseP hq
  exact hrest.grantNext

/-- A request is sent when it is due. -/
theorem send (h : x.Kept p) {q : Passage} (hq : q ∈ x.line.passing) (hdue : q.due = x.clock)
    (r : AnalysisRequest) (answer : Outcome Analysis) :
    (⟨x.line.send q r x.clock x.clock, x.clock, x.told ++ [⟨q.made, x.clock, answer⟩]⟩ : Traffic).Kept
      p := by
  have hsent : (⟨{ x.line with
      speaker := { x.line.speaker with client := x.line.speaker.client.mark q.made }
      usage := (x.line.speaker.ask x.line.exchange r x.line.usage).2 }, x.clock,
      x.told ++ [⟨q.made, x.clock, answer⟩]⟩ : Traffic).Kept p := by
    refine ⟨?_, fun t ht => ?_, fun q' hq' => ?_, fun before t after heq => ?_⟩
    · rw [Pacer.after_concat, ← h.pacer]
      rfl
    · rcases List.mem_append.mp ht with ht | ht
      · exact h.sent_le t ht
      · rw [List.mem_singleton.mp ht]
    · obtain ⟨hmade, hpaced⟩ := h.passing q' hq'
      exact ⟨hmade, hpaced.concat hmade⟩
    · -- it is the last one, or one of those before
      rcases List.eq_nil_or_concat after with rfl | ⟨front, last, rfl⟩
      · obtain ⟨rfl, hlast⟩ := List.append_inj' heq rfl
        cases hlast
        exact hdue ▸ (h.passing q hq).2
      · rw [List.concat_eq_append, ← List.cons_append, ← List.append_assoc] at heq
        obtain ⟨hfront, -⟩ := List.append_inj' heq rfl
        exact h.told before t front hfront
  exact hsent.leave q.number

theorem step (h : x.Kept p) (pause : Nat) (e : Happening) : (x.step pause e).Kept p := by
  have hlater : (⟨x.line, x.clock + pause, x.told⟩ : Traffic).Kept p :=
    h.later (Nat.le_add_right ..) rfl fun _ hq => hq
  cases e with
  | enter n =>
    rw [Traffic.step, Line.enter]
    split
    · exact hlater.grant n
    · exact hlater.later (Nat.le_refl _) rfl fun _ hq => hq
  | leave n => exact hlater.leave n
  | send n r =>
    rw [Traffic.step]
    split
    · next q hq =>
      obtain ⟨hfind, hdue⟩ := Option.filter_eq_some_iff.mp hq
      exact hlater.send (List.mem_of_find?_eq_some hfind) (of_decide_eq_true hdue) r _
    · exact hlater

theorem run (h : x.Kept p) (hs : List (Nat × Happening)) : (x.run hs).Kept p := by
  induction hs generalizing x with
  | nil => exact h
  | cons e hs ih => exact ih (h.step e.1 e.2)

end Kept

end Traffic

/-! ### What a request heeds -/

namespace Told

/-- How a request goes by those that were sent before it: it follows the last one of those that had
been sent when it was made, and is told to wait by the pacer alone if there were none; the others
were sent while it waited. -/
structure Heeds (p : Pacer) (past during : List Told) (t : Told) : Prop where
  sent_le : ∀ u ∈ past, u.sent ≤ t.made
  le_sent : ∀ u ∈ during, t.made ≤ u.sent
  sent_eq : past = [] → t.sent = t.made + p.wait t.made
  follows : ∀ u, past.getLast? = some u → Follows p.interval u t

/-- Two requests that follow the same one and both wait are sent at the same moment, up to a
millisecond. -/
theorem Follows.together {interval : Nat} {u t t' : Told} (h : Follows interval u t)
    (h' : Follows interval u t') (ht : t.made < t.sent) (ht' : t'.made < t'.sent) :
    t'.sent ≤ t.sent + 1 := by
  have hsent := h.sent_eq
  have hsent' := h'.sent_eq
  have hmade := h.made_le
  have hafter := h.after
  have hafter' := h'.after
  split at hsent <;> split at hsent' <;> omega

end Told

namespace Traffic.Kept

variable {p : Pacer} {x : Traffic} {past during before after : List Told} {t u : Told}

/-- A request that is paced by requests of a line follows the last one of them. -/
theorem follows (h : x.Kept p) (htold : x.told = past ++ [u] ++ during) (hu : u.sent ≤ t.made)
    (hsent : t.sent = t.made + (p.after (past ++ [u])).wait t.made) : Told.Follows p.interval u t := by
  have hpaced : Paced p past u.made u.sent := h.told past u during (by rw [htold, List.append_assoc]; rfl)
  have hinterval := p.interval_after past
  have hmark : (p.after (past ++ [u])).wait t.made = ((p.after past).mark u.made).wait t.made := by
    rw [Pacer.after_concat]
  have hmade := hpaced.made_le
  refine ⟨hmade, hpaced.sent_le, hu, ?_⟩
  rw [hsent, hmark]
  have hlast : ((p.after past).mark u.made).last = max u.made 1 := rfl
  have hkept : ((p.after past).mark u.made).interval = p.interval := hinterval
  split
  · next hzero =>
    have hlt : (((p.after past).mark u.made).send t.made).1 = t.made + p.interval :=
      hkept ▸ Pacer.send_fst_of_lt (by omega)
    rw [Pacer.send] at hlt
    dsimp only at hlt
    omega
  · have hle : (((p.after past).mark u.made).send t.made).1 =
        max t.made (max u.made 1 + p.interval) :=
      hkept ▸ Pacer.send_fst_of_le (by omega) (by omega)
    rw [Pacer.send] at hle
    dsimp only at hle
    omega

/-- Every request that was sent heeds those before it. -/
theorem exists_heeds (h : x.Kept p) (htold : x.told = before ++ t :: after) :
    ∃ past during, before = past ++ during ∧ t.Heeds p past during := by
  obtain ⟨past, during, rfl, hpast, hduring, hsent⟩ := h.told before t after htold
  refine ⟨past, during, rfl, hpast, hduring, fun hnil => ?_, fun u hu => ?_⟩
  · rw [hsent, hnil]
    rfl
  · obtain ⟨front, rfl⟩ := List.getLast?_eq_some_iff.mp hu
    have hsplit : x.told = front ++ [u] ++ (during ++ t :: after) := by
      rw [htold, List.append_assoc]
    exact h.follows hsplit (hpast u (by simp)) hsent

end Traffic.Kept

/-- **What the pacer keeps.**  In every session a request follows the one before it by one law: it
is sent at least the interval after that one was made, and the interval after that one was sent just
if that one has not waited or the question itself came late; no stretch of time as long as the
interval sees more than two requests.  Where questions come while others wait, the same law relates a
request to the last one that had been sent when it was made, and what is sent while it waits makes
no difference to it; a request that follows the same one and waits as well is sent at the same
moment. -/
theorem pacer_keeps (s : Speaker) (exchange : Question → Option Received) :
    (∀ usage clock qs, ((⟨s, usage, clock⟩ : Session).askAll qs).1.IsChain (fun t t' =>
          Told.Follows s.client.pacer.interval t t' ∧ t.made + s.client.pacer.interval ≤ t'.sent ∧
          (Told.Spaced s.client.pacer.interval t t' ↔ Told.Unhurried s.client.pacer.interval t t')) ∧
        ∀ start, ((⟨s, usage, clock⟩ : Session).askAll qs).1.countP
          (Told.sentWithin start s.client.pacer.interval) ≤ 2) ∧
      ∀ hs before t after, ((Traffic.start s exchange).run hs).told = before ++ t :: after →
        ∃ past during, before = past ++ during ∧ t.Heeds s.client.pacer past during ∧
          ∀ u, past.getLast? = some u → u.made + s.client.pacer.interval ≤ t.sent ∧
            (Told.Spaced s.client.pacer.interval u t ↔ Told.Unhurried s.client.pacer.interval u t) ∧
            ∀ t', Told.Follows s.client.pacer.interval u t' → t'.made < t'.sent → t.made < t.sent →
              t.sent ≤ t'.sent + 1 := by
  refine ⟨fun usage clock qs => (⟨s, usage, clock⟩ : Session).spaced_askAll qs,
    fun hs before t after htold => ?_⟩
  have hkept := (Traffic.kept_start s exchange).run hs
  obtain ⟨past, during, hbefore, hheeds⟩ := hkept.exists_heeds htold
  refine ⟨past, during, hbefore, hheeds, fun u hu => ?_⟩
  have hfollows := hheeds.follows u hu
  exact ⟨hfollows.le, hfollows.spaced_iff, fun t' h' ht' ht => h'.together hfollows ht' ht⟩

/-! ### Questions at once -/

/-- A client that takes 15 requests a minute, and three questions to it: the first is sent at once,
and while the second and the third wait nothing is sent. -/
def crowdedTraffic : Traffic :=
  let r : AnalysisRequest := ⟨⟨Warehouse.erp, "load"⟩, "SELECT 1"⟩
  (Traffic.start ⟨.ofKey "sk-test" 15, "gpt-4o", 2000, "Unknown."⟩ fun _ => none).run
    [(0, .enter 0), (0, .send 0 r), (0, .enter 1), (0, .enter 2), (4000, .send 1 r), (0, .send 2 r)]

/-- The spacing is kept neither in every session nor among requests that wait together. -/
theorem not_spaced :
    ((Session.hurriedSession.askAll Session.hurriedInquiries).1.map Told.sent = [1000, 2000, 2001] ∧
      ¬ (Session.hurriedSession.askAll Session.hurriedInquiries).1.IsChain
        (Told.Spaced Session.hurriedSession.interval)) ∧
    crowdedTraffic.told.map Told.sent = [0, 4000, 4000] ∧
      ¬ crowdedTraffic.told.IsChain (Told.Spaced 4000) := by
  refine ⟨Session.not_spaced_hurried, by decide +kernel, fun h => ?_⟩
  have hsent : crowdedTraffic.told.map Told.sent = [0, 4000, 4000] := by decide +kernel
  have hchain := (List.isChain_map Told.sent (R := fun m n => 4000 ≤ n - m + 1)).mpr h
  rw [hsent] at hchain
  revert hchain
  decide

end TierLineage.Model
