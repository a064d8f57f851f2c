import Mathlib.Algebra.BigOperators.Group.List.Basic
import Mathlib.Algebra.Ring.Int.Defs
import Mathlib.Data.List.Induction
import TierLineage.Model.Session
import TierLineage.Sample.Warehouse

/-!
# What the counters of a model's use tell

A call ends in one of three ways: it fails before there is a completion, and then nothing is counted; it
gets a completion without an answer, which is counted and refused; or it gets an answer.  So after any calls,
made by any models that share their counters, each counter is the total of what the completions so far
report, as a word of 64 bits.  A session is such a sequence of calls, whenever its questions are sent.
-/

namespace TierLineage

/-! ### Words -/

namespace Usage

theorem wrapped_zero : wrapped 0 = 0 :=
  Int.zero_bmod

/-- A total that has wrapped around goes on as if it had not. -/
theorem wrapped_add (n m : Int) : wrapped (wrapped n + m) = wrapped (n + m) :=
  Int.bmod_add_bmod

end Usage

namespace Model

open Usage

/-! ### Calls -/

/-- What a completion reports to have been asked. -/
def Completion.promptTokens (c : Completion) : Int :=
  c.tokens.elim 0 (·.prompt)

/-- What a completion reports to have been answered. -/
def Completion.completionTokens (c : Completion) : Int :=
  (c.tokens.bind (·.completion)).getD 0

/-- The completion in what a provider sends back: all of the body of a success, if it can be read. -/
def Received.completion? (r : Received) : Option Completion :=
  if r.succeeded && r.complete then (r.content.decode Completion.read).toOption else none

/-- A call: the model that is asked, what it is asked about, and what is sent back to the question. -/
structure Call where
  speaker : Speaker
  request : AnalysisRequest
  exchange : Question → Option Received

namespace Call

variable {k : Call} {u : Usage}

/-- What is sent back, if there is a question and an answer to it. -/
def received (k : Call) : Option Received :=
  (k.speaker.question k.request).toOption.bind k.exchange

/-- The completion that a call gets. -/
def completion? (k : Call) : Option Completion :=
  k.received.bind (·.completion?)

/-- The answer to a call, and the counters after it. -/
def make (k : Call) (u : Usage) : Outcome Analysis × Usage :=
  k.speaker.ask k.exchange k.request u

/-- The ways in which a call ends. -/
inductive Ends (k : Call) (u : Usage) : Outcome Analysis × Usage → Prop
  | failed (f : Failure) (h : k.completion? = none) : Ends k u (.error f, u)
  | empty {c : Completion} (h : k.completion? = some c) (hc : c.contents.head?.join = none) :
    Ends k u (.error (k.speaker.unreadable "No completion in response"), c.count u)
  | answered {c : Completion} {raw : String} {a : Analysis} (h : k.completion? = some c)
    (hc : c.contents.head?.join = some raw)
    (ha : Answer.analyze raw k.request.identity.connection k.speaker.fallbackSummary = a) :
    Ends k u (.ok a, if a.fallback then (c.count u).countFallback else c.count u)

theorem completion_spec (s : Speaker) (q : Question) (received : Option Received) :
    (∃ c, s.completion q received = .ok c ∧ received.bind (·.completion?) = some c) ∨
      ∃ f, s.completion q received = .error f ∧ received.bind (·.completion?) = none := by
  cases received with
  | none => exact .inr ⟨_, rfl, rfl⟩
  | some r =>
    rw [Option.bind_some, Speaker.completion, Received.completion?]
    by_cases hsucceeded : r.succeeded = true
    · rw [if_pos hsucceeded, hsucceeded, Bool.true_and]
      cases r.complete with
      | false => exact .inr ⟨_, rfl, rfl⟩
      | true =>
        rw [if_pos rfl]
        cases r.content.decode Completion.read with
        | ok c => exact .inl ⟨c, rfl, rfl⟩
        | error e => exact .inr ⟨_, rfl, rfl⟩
    · rw [if_neg hsucceeded, Bool.eq_false_iff.mpr hsucceeded]
      split <;> exact .inr ⟨_, rfl, rfl⟩

theorem ends_make (k : Call) (u : Usage) : Ends k u (k.make u) := by
  rw [make, Speaker.ask]
  cases hquestion : k.speaker.question k.request with
  | error f => exact .failed f (by rw [completion?, received, hquestion]; rfl)
  | ok q =>
    have hreceived : k.received = k.exchange q := by
      rw [received, hquestion]
      rfl
    rcases completion_spec k.speaker q (k.exchange q) with ⟨c, hok, hc⟩ | ⟨f, herror, hc⟩
    · rw [← hreceived] at hc
      simp only [hok, Speaker.conclude]
      cases hraw : c.contents.head?.join with
      | none => exact .empty hc hraw
      | some raw => exact .answered hc hraw rfl
    · rw [← hreceived] at hc
      simp only [herror]
      exact .failed f hc

end Call

/-! ### Sequences of calls -/

/-- The answers to calls that are made one after the other, and the counters after them. -/
def history (ks : List Call) : List (Outcome Analysis) × Usage :=
  ks.foldl (fun s k => (s.1 ++ [(k.make s.2).1], (k.make s.2).2)) ([], .zero)

theorem history_concat (ks : List Call) (k : Call) : history (ks ++ [k]) =
    ((history ks).1 ++ [(k.make (history ks).2).1], (k.make (history ks).2).2) :=
  List.foldl_concat ..

/-- Whether an answer is an analysis of a text that could not be read. -/
def fellBack (answer : Outcome Analysis) : Bool :=
  answer.toOption.any (·.fallback)

@[simp] theorem fellBack_error (f : Failure) : fellBack (.error f) = false := rfl

@[simp] theorem fellBack_ok (a : Analysis) : fellBack (.ok a) = a.fallback := rfl

/-- Whether the counters tell what calls and their answers add up to. -/
structure Accounts (ks : List Call) (answers : List (Outcome Analysis)) (u : Usage) : Prop where
  requests : u.requests = wrapped (ks.countP (·.completion?.isSome))
  promptTokens : u.promptTokens = wrapped (ks.map fun k => k.completion?.elim 0 (·.promptTokens)).sum
  completionTokens : u.completionTokens = wrapped (ks.map fun k => k.completion?.elim 0 (·.completionTokens)).sum
  fallbacks : u.fallbacks = wrapped (answers.countP fellBack)

section Accounts

variable {ks : List Call} {k : Call} {answers : List (Outcome Analysis)} {u : Usage} {c : Completion}
  {x : Outcome Analysis × Usage} {n : Int}

theorem requests_count (c : Completion) (u : Usage) : (c.count u).requests = wrapped (u.requests + 1) := by
  rw [Completion.count]
  split <;> rfl

theorem promptTokens_count (h : u.promptTokens = wrapped n) :
    (c.count u).promptTokens = wrapped (n + c.promptTokens) := by
  rw [Completion.count, Completion.promptTokens]
  cases c.tokens with
  | none => simpa [countRequest] using h
  | some t => simp [countTokens, countRequest, h, wrapped_add]

theorem completionTokens_count (h : u.completionTokens = wrapped n) :
    (c.count u).completionTokens = wrapped (n + c.completionTokens) := by
  rw [Completion.count, Completion.completionTokens]
  cases c.tokens with
  | none => simpa [countRequest] using h
  | some t => simp [countTokens, countRequest, h, wrapped_add]

theorem fallbacks_count (c : Completion) (u : Usage) : (c.count u).fallbacks = u.fallbacks := by
  rw [Completion.count]
  split <;> rfl

/-- Each call counts what it adds to the totals. -/
theorem Accounts.step (h : Accounts ks answers u) (hends : k.Ends u x) :
    Accounts (ks ++ [k]) (answers ++ [x.1]) x.2 := by
  cases hends with
  | failed f hc =>
    exact ⟨by simp [hc, h.requests], by simp [hc, h.promptTokens], by simp [hc, h.completionTokens],
      by simp [h.fallbacks]⟩
  | @empty c hc _ =>
    exact ⟨by simp [hc, requests_count, h.requests, wrapped_add],
      by simp [hc, promptTokens_count h.promptTokens],
      by simp [hc, completionTokens_count h.completionTokens],
      by simp [fallbacks_count, h.fallbacks]⟩
  | @answered c _ a hc _ _ =>
    -- a fallback changes no other counter
    have hfallback : ∀ v : Usage, (if a.fallback then v.countFallback else v) =
        { v with fallbacks := if a.fallback then wrapped (v.fallbacks + 1) else v.fallbacks } := fun v => by
      split <;> rfl
    rw [hfallback]
    refine ⟨by simp [hc, requests_count, h.requests, wrapped_add],
      by simp [hc, promptTokens_count h.promptTokens],
      by simp [hc, completionTokens_count h.completionTokens], ?_⟩
    cases hread : a.fallback <;> simp [hread, fallbacks_count, h.fallbacks, wrapped_add]

end Accounts

theorem accounts_history (ks : List Call) : Accounts ks (history ks).1 (history ks).2 := by
  induction ks using List.reverseRecOn with
  | nil => exact ⟨wrapped_zero.symm, wrapped_zero.symm, wrapped_zero.symm, wrapped_zero.symm⟩
  | append_singleton ks k ih =>
    rw [history_concat]
    exact ih.step (k.ends_make _)

/-! ### Sessions -/

/-- A question of a session, as a call of the model. -/
def Inquiry.call (s : Speaker) (q : Inquiry) : Call := ⟨s, q.request, q.exchange⟩

/-- When a question is sent has no part in the answers to those after it. -/
theorem Session.speaker_ask (s : Session) (q : Inquiry) : (s.ask q).2.speaker.ask = s.speaker.ask := by
  rw [ask]
  rfl

theorem Session.answer_ask (s : Session) (q : Inquiry) :
    (s.ask q).1.answer = (s.speaker.ask q.exchange q.request s.usage).1 := by
  rw [ask]

theorem Session.usage_ask (s : Session) (q : Inquiry) :
    (s.ask q).2.usage = (s.speaker.ask q.exchange q.request s.usage).2 := by
  rw [ask]

theorem Session.askAll_eq (s : Session) (k : Speaker) (h : s.speaker.ask = k.ask) (qs : List Inquiry)
    (answers : List (Outcome Analysis)) :
    (qs.map (Inquiry.call k)).foldl (fun x c => (x.1 ++ [(c.make x.2).1], (c.make x.2).2)) (answers, s.usage) =
      (answers ++ (s.askAll qs).1.map Told.answer, (s.askAll qs).2.usage) := by
  induction qs generalizing s answers with
  | nil => simp [askAll]
  | cons q qs ih =>
    have hmake : (q.call k).make s.usage = k.ask q.exchange q.request s.usage := rfl
    rw [List.map_cons, List.foldl_cons, hmake, ← h, ← answer_ask, ← usage_ask,
      ih _ ((s.speaker_ask q).trans h), List.append_assoc, List.singleton_append, askAll, List.map_cons]

/-- A session answers and counts as its calls do one after the other. -/
theorem history_calls (k : Speaker) (qs : List Inquiry) : history (qs.map (Inquiry.call k)) =
    (((Session.start k).askAll qs).1.map Told.answer, ((Session.start k).askAll qs).2.usage) :=
  Session.askAll_eq (Session.start k) k rfl qs []

/-- The counters of a session account for its calls. -/
theorem accounts_askAll (k : Speaker) (qs : List Inquiry) :
    Accounts (qs.map (Inquiry.call k)) (((Session.start k).askAll qs).1.map Told.answer)
      ((Session.start k).askAll qs).2.usage := by
  have h := accounts_history (qs.map (Inquiry.call k))
  rwa [history_calls] at h

theorem Received.completion?_eq_none_iff {r : Received} : r.completion? = none ↔
    ¬(200 ≤ r.status ∧ r.status < 300) ∨ r.complete = false ∨
      ∀ c, r.content.decode Completion.read ≠ .ok c := by
  rw [completion?, succeeded, ← Bool.decide_and]
  by_cases hstatus : 200 ≤ r.status ∧ r.status < 300
  · cases r.complete with
    | false => simp
    | true =>
      cases r.content.decode Completion.read <;> simp [hstatus, Except.toOption]
  · simp [hstatus]

/-- **The counters account for every call**: after any calls, each counter is the total of what the completions so
far and their answers add up to.  A next call without a completion fails and changes no counter; one with a
completion that holds no content fails as well, but is counted. -/
theorem history_accounts (ks : List Call) : Accounts ks (history ks).1 (history ks).2 ∧ ∀ k : Call,
    ((k.received = none ∨ ∃ r, k.received = some r ∧
        (¬(200 ≤ r.status ∧ r.status < 300) ∨ r.complete = false ∨
          ∀ c, r.content.decode Completion.read ≠ .ok c)) →
      ∃ f, history (ks ++ [k]) = ((history ks).1 ++ [.error f], (history ks).2)) ∧
    ∀ c, k.completion? = some c → c.contents.head?.join = none →
      (history (ks ++ [k])).1 = (history ks).1 ++ [.error (k.speaker.unreadable "No completion in response")] ∧
        (history (ks ++ [k])).2.requests = wrapped ((history ks).2.requests + 1) := by
  refine ⟨accounts_history ks, fun k => ?_⟩
  rw [history_concat]
  have hends := k.ends_make (history ks).2
  generalize k.make (history ks).2 = x at hends
  refine ⟨fun hnone => ?_, fun c hc hempty => ?_⟩
  · have hnone : k.completion? = none := by
      rw [Call.completion?]
      rcases hnone with h | ⟨r, h, hr⟩
      · rw [h, Option.bind_none]
      · rw [h, Option.bind_some, Received.completion?_eq_none_iff.mpr hr]
    cases hends with
    | failed f _ => exact ⟨f, rfl⟩
    | empty h _ => cases hnone.symm.trans h
    | answered h _ _ => cases hnone.symm.trans h
  · cases hends with
    | failed f h => cases hc.symm.trans h
    | empty h _ =>
      cases hc.symm.trans h
      exact ⟨rfl, requests_count c _⟩
    | answered h hsome _ =>
      cases hc.symm.trans h
      cases hempty.symm.trans hsome

/-- A body with one choice, of a content and reported tokens in the notation of JSON. -/
def completionBody (content tokens : String) : String :=
  "\x7b\"choices\": [\x7b\"message\": \x7b\"role\": \"assistant\", \"content\": " ++ content ++
    "\x7d\x7d], \"usage\": " ++ tokens ++ "\x7d"

/-- A call to which a body is sent back. -/
def answeredWith (status : Nat) (body : String) : Call :=
  ⟨⟨.ofKey "sk-test" 60, "gpt-4o", 2000, "Unknown."⟩, ⟨⟨Warehouse.erp, "load"⟩, "SELECT 1"⟩,
    fun _ => some ⟨status, [], body, true⟩⟩

/-- An answer that cannot be read, and a failure. -/
def sampleCalls : List Call :=
  [answeredWith 201 (completionBody "\"Sorry.\""
      "\x7b\"prompt_tokens\": 12, \"completion_tokens\": 3, \"total_tokens\": 15\x7d"),
    answeredWith 500 "Oops"]

theorem history_accounts_sample : (history sampleCalls).2 = ⟨1, 12, 3, 1⟩ ∧
    (∃ f, history (sampleCalls ++ [answeredWith 500 "Oops"]) =
      ((history sampleCalls).1 ++ [.error f], (history sampleCalls).2)) ∧
    (history (sampleCalls ++ [answeredWith 200 (completionBody "null" "null")])).2.requests = 2 := by
  have hcounters : (history sampleCalls).2 = ⟨1, 12, 3, 1⟩ := by decide +kernel
  have hnext := (history_accounts sampleCalls).2
  refine ⟨hcounters, (hnext (answeredWith 500 "Oops")).1
    (.inr ⟨⟨500, [], "Oops", true⟩, by decide +kernel, .inl (by decide)⟩), ?_⟩
  rw [((hnext (answeredWith 200 (completionBody "null" "null"))).2 ⟨[none], none⟩ (by decide +kernel) rfl).2,
    hcounters]
  rfl

end Model

end TierLineage
