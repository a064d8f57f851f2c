import Mathlib.Logic.Function.Basic
import TierLineage.Proofs.Service.Pool

/-!
# What will have been said

A run of a pool goes by what the analyst says of each text, all of it given beforehand.  Where this is
found out only as the calls are concluded, the run can still be told that way: as long as nothing is
concluded about a text, what is said of it may be changed without a change to the run so far.
-/

namespace TierLineage

open TierLineage.Flight

namespace Pool

variable {s : Store} {asked rs : List AnalysisRequest} {o : AnalysisRequest → Outcome Analysis}
  {σ σ₀ τ : Pool} {r : AnalysisRequest}

/-! ### Open texts -/

/-- Whether nothing was concluded about a text: its call waits to be started, or has not been brought
past the analyst. -/
def Open (σ : Pool) (r : AnalysisRequest) : Prop :=
  r ∈ σ.work.waiting ∨ ∃ t, (r, t) ∈ σ.work.live ∧ 1 < ahead σ.desk t

/-- A text that is open after a move was so before. -/
theorem Orderly.open_of_move (hσ : σ.Orderly s asked rs o) (hrs : (rs.map (·.identity)).Nodup)
    (h : Move o σ τ) (hopen : τ.Open r) : σ.Open r := by
  cases h with
  | @start k d r₀ rest _ hwaiting =>
    rcases hopen with hr | ⟨t, hlive, hahead⟩
    · exact .inl (by rw [hwaiting]; exact List.mem_cons_of_mem _ hr)
    · rcases List.mem_append.mp hlive with hlive | hnew
      · obtain ⟨p, hp, -⟩ := hσ.calls hlive
        have hkept : (d.submit r₀).2.calls[t]? = d.calls[t]? := by
          rw [Desk.submit, getElem?_insert_eq, if_neg (Nat.ne_of_lt (hσ.consistent.ticket_lt hp))]
        rw [ahead, hkept] at hahead
        exact .inr ⟨t, hlive, hahead⟩
      · cases List.mem_singleton.mp hnew
        exact .inl (by rw [hwaiting]; exact List.mem_cons_self)
  | @happen k d r₀ p e hlive₀ hcall hfits hdrop hconclude hadmits =>
    refine hopen.imp_right ?_
    rintro ⟨t, hlive, hahead⟩
    refine ⟨t, hlive, ?_⟩
    obtain ⟨q, hq, hother, -⟩ := hσ.exists_happen hrs hlive₀ hcall hfits hdrop hconclude hadmits
    by_cases ht : t = e.ticket
    · subst ht
      rw [ahead_eq hq.stepped.calls_self] at hahead
      rw [ahead_eq hcall]
      exact hahead.trans hq.ahead_lt
    · rwa [ahead, hother hlive ht] at hahead
  | @collect k d r₀ t₀ a before after hlive₀ hanswer =>
    refine hopen.imp_right ?_
    rintro ⟨t, hlive, hahead⟩
    obtain ⟨hlive, hne⟩ := (hσ.mem_others_iff hrs hlive₀).mp hlive
    rw [ahead, Desk.calls_forget, if_neg hne] at hahead
    exact ⟨t, hlive, hahead⟩

variable {k : Work} {d : Desk} {p : Phase} {t : Ticket} {x : Outcome Analysis}

/-- A text about which something is concluded is not open any more. -/
theorem Orderly.not_open_conclude (hσ : Orderly s asked rs o ⟨k, d⟩)
    (hrs : (rs.map (·.identity)).Nodup) (hlive : (r, t) ∈ k.live)
    (hcall : d.calls[t]? = some ⟨r, p⟩) (hfits : (Event.conclude t x).fits p = true)
    (hx : x = o r) : ¬ Open ⟨k, d.step (.conclude t x)⟩ r := by
  have hadmits : d.store.backend.Admits (.happen (.conclude t x)) := by
    cases d.store.backend <;> trivial
  obtain ⟨q, hq, -, -⟩ := hσ.exists_happen (e := .conclude t x) hrs hlive hcall hfits nofun
    (fun u y h => by cases h; exact hx) hadmits
  have hself : ahead (d.step (.conclude t x)) t = q.ahead := ahead_eq hq.stepped.calls_self
  have hbefore : p.ahead = 2 := by
    cases p <;> cases hfits
    rfl
  have hlt := hq.ahead_lt
  rintro (hwaiting | ⟨u, hu, hahead⟩)
  · exact (List.nodup_append.mp (hσ.nodup hrs)).2.2 r hwaiting r
      (List.mem_append_left _ (List.mem_map_of_mem hlive)) rfl
  · obtain rfl := hσ.ticket_eq hrs hu hlive
    dsimp only at hahead
    omega

/-! ### Runs -/

variable (hσ₀ : ∀ o, σ₀.Orderly s asked rs o) (hrs : (rs.map (·.identity)).Nodup)

include hσ₀ hrs

/-- What is said of a text may be changed as long as it is open. -/
theorem run_update (h : Run o σ₀ σ) (hopen : σ.Open r) (x : Outcome Analysis) :
    Run (Function.update o r x) σ₀ σ := by
  induction h with
  | refl => exact .refl
  | @tail ρ τ hrun hmove ih =>
    have hρ := (hσ₀ o).run hrs hrun
    refine (ih (hρ.open_of_move hrs hmove hopen)).tail ?_
    cases hmove with
    | start hroom hwaiting => exact .start hroom hwaiting
    | collect hlive hanswer => exact .collect hlive hanswer
    | @happen k d r₀ p e hlive hcall hfits hdrop hconclude hadmits =>
      refine .happen hlive hcall hfits hdrop (fun t y he => ?_) hadmits
      -- something was concluded about another text, for this one is still open
      have hne : r₀ ≠ r := by
        rintro rfl
        subst he
        exact hρ.not_open_conclude hrs hlive hcall hfits (hconclude t y rfl) hopen
      rw [Function.update_of_ne hne]
      exact hconclude t y he

/-- Whether a pool is reached by moves if the analyst says of each text something that may be said of
it. -/
def Reached (S : AnalysisRequest → Outcome Analysis → Prop) (σ₀ σ : Pool) : Prop :=
  ∃ o, (∀ r, S r (o r)) ∧ Run o σ₀ σ

namespace Reached

variable {S : AnalysisRequest → Outcome Analysis → Prop}

/-- A pool that is reached is in order. -/
theorem exists_orderly (h : Reached S σ₀ σ) : ∃ o, σ.Orderly s asked rs o := by
  obtain ⟨o, -, hrun⟩ := h
  exact ⟨o, (hσ₀ o).run hrs hrun⟩

/-- A pool is reached by a move that does not depend on what is said. -/
theorem move (h : Reached S σ₀ σ) (hmove : ∀ o, Move o σ τ) : Reached S σ₀ τ ∧ τ.left < σ.left := by
  obtain ⟨o, htells, hrun⟩ := h
  exact ⟨⟨o, htells, hrun.tail (hmove o)⟩, ((hσ₀ o).run hrs hrun).left_lt hrs (hmove o)⟩

/-- A pool is reached by an event: if something is concluded about a text, this is what was to be said
of it. -/
theorem happen {e : Event} (h : Reached S σ₀ ⟨k, d⟩) (hlive : (r, e.ticket) ∈ k.live)
    (hcall : d.calls[e.ticket]? = some ⟨r, p⟩) (hfits : e.fits p = true) (hdrop : ∀ t, e ≠ .drop t)
    (htells : ∀ t x, e = .conclude t x → S r x) (hadmits : d.store.backend.Admits (.happen e)) :
    Reached S σ₀ ⟨k, d.step e⟩ ∧ left ⟨k, d.step e⟩ < left ⟨k, d⟩ := by
  by_cases he : ∃ t x, e = .conclude t x
  · obtain ⟨t, x, rfl⟩ := he
    obtain ⟨o, hall, hrun⟩ := h
    have hopen : Open ⟨k, d⟩ r := by
      refine .inr ⟨t, hlive, ?_⟩
      have hcall : d.calls[t]? = some ⟨r, p⟩ := hcall
      rw [ahead_eq hcall]
      cases p <;> cases hfits
      exact Nat.one_lt_two
    have hrun' := run_update hσ₀ hrs hrun hopen x
    have hmove : Move (Function.update o r x) ⟨k, d⟩ ⟨k, d.step (.conclude t x)⟩ :=
      .happen hlive hcall hfits hdrop (fun u y hy => by cases hy; rw [Function.update_self]) hadmits
    refine ⟨⟨_, fun r' => ?_, hrun'.tail hmove⟩, ((hσ₀ _).run hrs hrun').left_lt hrs hmove⟩
    by_cases hr : r' = r
    · subst hr
      rw [Function.update_self]
      exact htells t x rfl
    · rw [Function.update_of_ne hr]
      exact hall r'
  · exact h.move hσ₀ hrs fun o => .happen hlive hcall hfits hdrop
      (fun t x hx => absurd ⟨t, x, hx⟩ he) hadmits

end Reached

end Pool

end TierLineage
