import TierLineage.Proofs.Flight.Works

/-!
# What happens in a run

The history of a run tells what the analyst said, which records were stored and which calls were
given up.  Once the analyst has said something about a text, this is stored or about to be stored
until a record of another text takes its place; so the analyst is not asked about the text again
before that.
-/

namespace TierLineage.Flight

open TierLineage.Digest

deriving instance DecidableEq for Phase, Call

/-- What happens to calls that others may notice. -/
inductive Occurrence where
  /-- The analyst is ready with a request, or takes too long. -/
  | concluded (request : AnalysisRequest) (result : Outcome Analysis)
  /-- A record is stored. -/
  | stored (record : Record)
  /-- A call is given up in a phase. -/
  | dropped (request : AnalysisRequest) (phase : Phase)
  deriving DecidableEq

/-- What happens when a call comes from one phase into another. -/
def occurrence? (r : AnalysisRequest) : Phase → Phase → Option Occurrence
  | .analyzing _ _, .storing _ a => some (.concluded r (.ok a))
  | .analyzing _ _, .done (.error e) => some (.concluded r (.error e))
  | .storing _ _, .done (.ok f) => some (.stored f.record)
  | p, .dropped => if p.ended then none else some (.dropped r p)
  | _, _ => none

namespace Desk

/-- What happens with a move. -/
def occurs? (d : Desk) : Move → Option Occurrence
  | .submit _ => none
  | .happen e =>
    match d.calls[e.ticket]?, (d.step e).calls[e.ticket]? with
    | some c, some c' => occurrence? c.request c.phase c'.phase
    | _, _ => none

/-- What happens in a run. -/
def history (d : Desk) : List Move → List Occurrence
  | [] => []
  | m :: ms => (d.occurs? m).toList ++ (d.move m).history ms

variable {d : Desk} {t : Ticket} {c : Call} {e : Event}

/-- What happens with an event about a call. -/
theorem occurs?_eq {q : Phase} (hc : d.calls[e.ticket]? = some c)
    (hq : Stepped d e.ticket c q (d.step e)) :
    d.occurs? (.happen e) = occurrence? c.request c.phase q := by
  simp only [occurs?, hc, hq.calls_self]

/-- Whatever happens in a run happens with one of its moves. -/
theorem history_eq_append {moves : List Move} {before after : List Occurrence} {x : Occurrence}
    (h : d.history moves = before ++ x :: after) :
    ∃ ms m ns, moves = ms ++ m :: ns ∧ d.history ms = before ∧ (d.run ms).occurs? m = some x ∧
      ((d.run ms).move m).history ns = after := by
  induction moves generalizing d before with
  | nil => simp [history] at h
  | cons m ms ih =>
    rw [history] at h
    cases hx : d.occurs? m with
    | none =>
      rw [hx, Option.toList_none, List.nil_append] at h
      obtain ⟨ns, n, ls, rfl, hbefore, hn, hafter⟩ := ih h
      exact ⟨m :: ns, n, ls, rfl, by rw [history, hx, hbefore]; rfl, hn, hafter⟩
    | some y =>
      rw [hx, Option.toList_some, List.singleton_append] at h
      cases before with
      | nil =>
        obtain ⟨rfl, hafter⟩ := List.cons.inj h
        exact ⟨[], m, ms, rfl, rfl, hx, hafter⟩
      | cons z before =>
        obtain ⟨rfl, hrest⟩ := List.cons.inj h
        obtain ⟨ns, n, ls, rfl, hbefore, hn, hafter⟩ := ih hrest
        exact ⟨m :: ns, n, ls, rfl, by rw [history, hx, hbefore]; rfl, hn, hafter⟩

/-! ### What the analyst has said -/

/-- Whether a record of a text is in the store or about to be stored. -/
def Kept (d : Desk) (p : ProcedureId) (digest : String) : Prop :=
  (∃ (t : Ticket) (c : Call) (l : LockId) (a : Analysis), d.calls[t]? = some c ∧
    c.phase = .storing l a ∧ c.request.identity = p ∧ contentHash c.request.definition = digest) ∨
  ∃ f, d.stored? p digest = .ok (some f)

/-- The analyst concludes with success when its call goes on to store the analysis. -/
theorem phase_of_concluded {r r' : AnalysisRequest} {p q : Phase} {a : Analysis}
    (h : occurrence? r p q = some (.concluded r' (.ok a))) :
    r' = r ∧ p.owing = true ∧ (∃ l since, p = .analyzing l since) ∧ ∃ l, q = .storing l a := by
  rw [occurrence?.eq_def] at h
  split at h
  · cases h
    exact ⟨rfl, rfl, ⟨_, _, rfl⟩, _, rfl⟩
  · cases h
  · cases h
  · split at h <;> cases h
  · cases h

/-- What the analyst concludes with success is about to be stored. -/
theorem kept_of_concluded (hd : d.Consistent) {m : Move} {r : AnalysisRequest} {a : Analysis}
    (h : d.occurs? m = some (.concluded r (.ok a))) :
    (d.move m).Kept r.identity (contentHash r.definition) := by
  cases m with
  | submit r => cases h
  | happen e =>
    cases hc : d.calls[e.ticket]? with
    | none => simp [occurs?, hc] at h
    | some c =>
      obtain ⟨q, hq, -⟩ := step_spec hd hc
      rw [occurs?_eq hc hq] at h
      obtain ⟨rfl, -, -, l, rfl⟩ := phase_of_concluded h
      exact .inl ⟨e.ticket, _, l, a, hq.calls_self, rfl, rfl, rfl⟩

/-- The analyst has nothing to conclude about a text that is kept. -/
theorem Works.not_concluded (hd : d.Works) {p : ProcedureId} {digest : String}
    (hk : d.Kept p digest) {m : Move} {r : AnalysisRequest} {a : Analysis}
    (hid : r.identity = p) (hdigest : contentHash r.definition = digest) :
    d.occurs? m ≠ some (.concluded r (.ok a)) := by
  intro h
  cases m with
  | submit r => cases h
  | happen e =>
    cases hc : d.calls[e.ticket]? with
    | none => simp [occurs?, hc] at h
    | some c =>
      obtain ⟨q, hq, -⟩ := step_spec hd.consistent hc
      rw [occurs?_eq hc hq] at h
      obtain ⟨rfl, howing, ⟨l, since, hp⟩, -⟩ := phase_of_concluded h
      have hmissing := hd.missing hc howing
      rw [hid, hdigest] at hmissing
      rcases hk with ⟨t, w, l', a', hw, hwp, hwid, -⟩ | ⟨f, hf⟩
      · have ht := hd.consistent.eq_of_identity_eq hw hc (hwid.trans hid.symm)
          (by rw [hwp]; rfl) (by rw [hp]; rfl)
        subst ht
        cases hw.symm.trans hc
        cases hp.symm.trans hwp
      · cases hmissing.symm.trans hf

/-- The store finds a record that was put there. -/
theorem stored?_of_record? {p : ProcedureId} {f : Record}
    (h : d.store.record? p = .ok (some f)) : d.stored? p f.definitionHash = .ok (some f) := by
  simp [stored?, h, Except.map, Option.filter]

theorem definitionHash_recordOf (r : AnalysisRequest) (a : Analysis) (now : Instant) :
    (recordOf r a now).definitionHash = contentHash r.definition := rfl

/-- The store finds the record of a text that was put there. -/
theorem stored?_recordOf {r : AnalysisRequest} {a : Analysis} {now : Instant}
    (h : d.store.record? r.identity = .ok (some (recordOf r a now))) :
    d.stored? r.identity (contentHash r.definition) = .ok (some (recordOf r a now)) := by
  have hstored := stored?_of_record? h
  rwa [definitionHash_recordOf] at hstored

/-- A call that is about to store keeps its text, unless it gives up. -/
theorem Works.kept_storing (hd : d.Works) (he : d.store.backend.Admits (.happen e))
    (hc : d.calls[e.ticket]? = some c) {l : LockId} {a : Analysis} (hp : c.phase = .storing l a)
    (hdrop : d.occurs? (.happen e) ≠ some (.dropped c.request (.storing l a))) :
    (d.step e).Kept c.request.identity (contentHash c.request.definition) := by
  obtain ⟨q, hq, hturn⟩ := step_spec hd.consistent hc
  rw [occurs?_eq hc hq, hp] at hdrop
  rw [hp] at hturn
  generalize hs : (d.step e).store = s at hturn
  generalize (d.step e).asked = asked at hturn
  cases hturn with
  | idle hfit => exact .inl ⟨e.ticket, _, l, a, hq.calls_self, rfl, rfl, rfl⟩
  | saved hput =>
    obtain ⟨-, hself, -⟩ := Store.record?_of_putRecord
      (Backend.holds_recordOf (hd.takes hc) he a) hput
    subst hs
    exact .inr ⟨_, stored?_recordOf hself⟩
  | unsaved hput =>
    exact absurd hput (Store.putRecord_ne_error (Backend.holds_recordOf (hd.takes hc) he a))
  | dropped hended => exact absurd rfl hdrop

/-- What is kept stays so until a record of another text is stored. -/
theorem Works.kept_step (hd : d.Works) {p : ProcedureId} {digest : String} (hk : d.Kept p digest)
    (he : d.store.backend.Admits (.happen e))
    (hdrop : ∀ r l a, d.occurs? (.happen e) ≠ some (.dropped r (.storing l a))) :
    (d.step e).Kept p digest ∨ ∃ f, d.occurs? (.happen e) = some (.stored f) ∧ f.identity = p ∧
      f.definitionHash ≠ digest := by
  cases hc : d.calls[e.ticket]? with
  | none =>
    rw [step_of_calls_eq_none hc]
    exact .inl hk
  | some c =>
    obtain ⟨q, hq, hturn⟩ := step_spec hd.consistent hc
    rcases hk with ⟨t, w, l, a, hw, hwp, rfl, rfl⟩ | ⟨f, hf⟩
    · left
      by_cases ht : t = e.ticket
      · subst ht
        exact hd.kept_storing he hw hwp (hdrop _ _ _)
      · rcases hq.calls_ne ht with heq | ⟨w', l', hw', hqueued, -⟩
        · exact .inl ⟨t, w, l, a, heq.trans hw, hwp, rfl, rfl⟩
        · cases hw.symm.trans hw'
          cases hwp.symm.trans hqueued
    · rcases hd.turn_store hc he hturn with hstore | ⟨now, l, a, hp, rfl, hholds, hput⟩
      · refine .inl (.inr ⟨f, ?_⟩)
        rw [stored?, hstore]
        exact hf
      · obtain ⟨-, hself, hother⟩ := Store.record?_of_putRecord hholds hput
        by_cases hid : p = c.request.identity
        · by_cases hdigest : contentHash c.request.definition = digest
          · subst hid hdigest
            exact .inl (.inr ⟨_, stored?_recordOf hself⟩)
          · have hoccurs := occurs?_eq hc hq
            rw [hp] at hoccurs
            exact .inr ⟨recordOf c.request a now, hoccurs, hid.symm, hdigest⟩
        · refine .inl (.inr ⟨f, ?_⟩)
          rw [stored?_congr (hother p hid)]
          exact hf

/-- A new call changes nothing about what is kept. -/
theorem Kept.submit (hd : d.Consistent) {p : ProcedureId} {digest : String} (hk : d.Kept p digest)
    (r : AnalysisRequest) : (d.submit r).2.Kept p digest := by
  refine hk.imp_left ?_
  rintro ⟨t, c, l, a, hc, hrest⟩
  refine ⟨t, c, l, a, ?_, hrest⟩
  rw [Desk.submit, getElem?_insert_eq, if_neg, hc]
  rintro rfl
  exact Nat.lt_irrefl _ (hd.ticket_lt hc)

/-- What is kept stays so in a run until a record of another text is stored. -/
theorem Works.kept_run (hd : d.Works) {p : ProcedureId} {digest : String} (hk : d.Kept p digest)
    {moves : List Move} (hm : ∀ m ∈ moves, d.store.backend.Admits m)
    (hdrop : ∀ r l a, .dropped r (.storing l a) ∉ d.history moves) :
    (d.run moves).Kept p digest ∨ ∃ f, .stored f ∈ d.history moves ∧ f.identity = p ∧
      f.definitionHash ≠ digest := by
  induction moves generalizing d with
  | nil => exact .inl hk
  | cons m ms ih =>
    have hm' := hm m (List.mem_cons_self ..)
    obtain ⟨hd', hbackend⟩ := hd.move hm'
    have hmem : ∀ {x : Occurrence}, d.occurs? m = some x → x ∈ d.history (m :: ms) := fun {x} hx => by
      rw [history, hx]
      exact List.mem_cons_self ..
    have hstep : (d.move m).Kept p digest ∨ ∃ f, d.occurs? m = some (.stored f) ∧ f.identity = p ∧
        f.definitionHash ≠ digest := by
      cases m with
      | submit r => exact .inl (hk.submit hd.consistent r)
      | happen e => exact hd.kept_step hk hm' fun r l a h => hdrop r l a (hmem h)
    rcases hstep with hk' | ⟨f, hf, hrest⟩
    · have hrun := ih hd' hk' (fun n hn => by rw [hbackend]; exact hm n (List.mem_cons_of_mem m hn))
        fun r l a h => hdrop r l a (by rw [history]; exact List.mem_append_right _ h)
      refine hrun.imp_right ?_
      rintro ⟨f, hf, hrest⟩
      exact ⟨f, by rw [history]; exact List.mem_append_right _ hf, hrest⟩
    · exact .inr ⟨f, hmem hf, hrest⟩

end Desk

end TierLineage.Flight
