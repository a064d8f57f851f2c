import Mathlib.Data.List.Forall2
import TierLineage.Catalog.Visit

/-!
# Visits while nothing changes

While the surroundings stay as they are it makes no difference when a visit starts: its calls wait
for their turn, but they find what they would have found at once.  So what such a visit finds is
computed like a result that takes no time: visits one after the other are results one after the
other, and a window of visits is the list of their results.  The same is said of single visits that
find one thing, or fail, at every moment, whatever goes on around them.
-/

namespace TierLineage.Visit

variable {α β : Type} {s : Surroundings}

/-- What a visit finds in surroundings that stay as they are. -/
def found (v : Visit α) (s : Surroundings) : Outcome α :=
  (v (fun _ => s) 0).1

/-- Whether it makes no difference when a visit starts, as long as the surroundings stay. -/
def Steady (v : Visit α) : Prop :=
  ∀ s t, (v (fun _ => s) t).1 = v.found s

/-! ### Visits that find one thing -/

section Finds

variable {view : View}

/-- Whether a visit finds the same whenever it starts. -/
def Finds (v : Visit α) (view : View) (o : Outcome α) : Prop :=
  ∀ t, (v view t).1 = o

/-- Whether a visit fails whenever it starts. -/
def Fails (v : Visit α) (view : View) : Prop :=
  ∀ t, ∃ f, (v view t).1 = .error f

/-- A visit that goes on with the result of another one finds what follows from it. -/
theorem Finds.bind {v : Visit α} {next : α → Visit β} {o : Outcome α} {p : α → Outcome β}
    (hv : v.Finds view o) (hnext : ∀ a, (next a).Finds view (p a)) :
    (v >>= next).Finds view (o >>= p) := by
  intro t
  change (Visit.bind v next view t).1 = _
  rw [Visit.bind, ← hv t]
  obtain ⟨result, t'⟩ := v view t
  cases result with
  | ok a => exact hnext a t'
  | error e => rfl

/-- What each visit of a window finds, at some moment. -/
theorem forall₂_windowFrom (width : Nat) (view : View) (start : Nat) (handed : List Nat)
    (vs : List (Visit α)) : List.Forall₂ (fun v r => ∃ t, r.1 = (v view t).1) vs
      (windowFrom width view start handed vs) := by
  -- a visit starts when others were handed on
  induction vs generalizing handed with
  | nil => exact .nil
  | cons v vs ih => exact .cons ⟨_, rfl⟩ (ih _)

/-- Visits in a window find what they find on their own, in whatever order they take turns. -/
theorem finds_windowFrom {vs : List (Visit α)} {os : List (Outcome α)}
    (h : List.Forall₂ (fun v o => v.Finds view o) vs os) (width start : Nat) (handed : List Nat) :
    (windowFrom width view start handed vs).map Prod.fst = os := by
  induction h generalizing handed with
  | nil => rfl
  | cons hv _ ih => exact congrArg₂ List.cons (hv _) (ih _)

theorem fst_untilFailure (t : Nat) (rs : List (Outcome α × Nat)) :
    (untilFailure t rs).1 = (rs.map Prod.fst).mapM id := by
  induction rs generalizing t with
  | nil => rfl
  | cons r rs ih =>
    obtain ⟨result, t'⟩ := r
    cases result with
    | error e => rfl
    | ok a =>
      have hrest := ih t'
      rw [untilFailure, List.map_cons, List.mapM_cons, ← hrest]
      obtain ⟨rest, t''⟩ := untilFailure t' rs
      cases rest <;> rfl

theorem finds_allInWindow {vs : List (Visit α)} {os : List (Outcome α)}
    (h : List.Forall₂ (fun v o => v.Finds view o) vs os) (width : Nat) :
    (allInWindow width vs).Finds view (os.mapM id) := fun t => by
  rw [allInWindow, fst_untilFailure, finds_windowFrom h]

/-- Where one of the visits fails, there are not all of the results. -/
theorem fails_allInWindow {vs : List (Visit α)} {v : Visit α} (hv : v ∈ vs) (hfails : v.Fails view)
    (width : Nat) : (allInWindow width vs).Fails view := by
  intro t
  rw [allInWindow, fst_untilFailure]
  generalize ([] : List Nat) = handed
  induction vs generalizing handed with
  | nil => cases hv
  | cons w vs ih =>
    rw [windowFrom, List.map_cons, List.mapM_cons]
    rcases List.mem_cons.mp hv with rfl | hv
    · obtain ⟨f, hf⟩ := hfails (if width = 0 then t else handed[width - 1]?.getD t)
      exact ⟨f, by rw [hf]; rfl⟩
    · obtain ⟨f, hf⟩ := ih hv _
      -- a failure before it ends the visits as well
      cases (w view (if width = 0 then t else handed[width - 1]?.getD t)).1 with
      | error e => exact ⟨e, rfl⟩
      | ok a => exact ⟨f, by rw [hf]; rfl⟩

end Finds

/-! ### Visits one after the other -/

theorem steady_pure (a : α) : (Pure.pure a : Visit α).Steady := fun _ _ => rfl

@[simp] theorem found_pure (a : α) : (Pure.pure a : Visit α).found s = .ok a := rfl

theorem steady_fail (f : Failure) : (fail f : Visit α).Steady := fun _ _ => rfl

theorem steady_ofOutcome (o : Outcome α) : (ofOutcome o).Steady := by
  cases o with
  | ok a => exact steady_pure a
  | error f => exact steady_fail f

@[simp] theorem found_ofOutcome (o : Outcome α) : (ofOutcome o).found s = o := by
  cases o <;> rfl

theorem bind_fst {v : Visit α} {next : α → Visit β} (hv : v.Steady) (hnext : ∀ a, (next a).Steady)
    (s : Surroundings) (t : Nat) :
    ((v >>= next) (fun _ => s) t).1 = v.found s >>= fun a => (next a).found s :=
  Finds.bind (hv s) (fun a => hnext a s) t

theorem Steady.bind {v : Visit α} {next : α → Visit β} (hv : v.Steady)
    (hnext : ∀ a, (next a).Steady) : (v >>= next).Steady := fun s t =>
  (bind_fst hv hnext s t).trans (bind_fst hv hnext s 0).symm

theorem Steady.found_bind {v : Visit α} {next : α → Visit β} (hv : v.Steady)
    (hnext : ∀ a, (next a).Steady) (s : Surroundings) :
    (v >>= next).found s = v.found s >>= fun a => (next a).found s :=
  bind_fst hv hnext s 0

/-! ### Calls -/

/-- How a connection answers every call: not at all, not in time, or with what the catalog says. -/
theorem call_fst (limit : Nat) (operation : String) (a : Alias) (ask : Catalog → Outcome α)
    (s : Surroundings) (t : Nat) :
    (call limit operation a ask (fun _ => s) t).1 =
      if (s.faults.delays[a]?).any (limit < ·) = true then
        .error (.catalog (.timedOut a.name operation limit))
      else if s.faults.unreachable.contains a = true then
        .error (.catalog (.unreachable a.name "connection refused"))
      else ask s.catalog := by
  rw [call]
  cases s.faults.delays[a]? with
  | none => cases s.faults.unreachable.contains a <;> rfl
  | some delay =>
    by_cases hlate : limit < delay <;> cases s.faults.unreachable.contains a <;> simp [hlate]

theorem steady_call (limit : Nat) (operation : String) (a : Alias) (ask : Catalog → Outcome α) :
    (call limit operation a ask).Steady := fun s t =>
  (call_fst limit operation a ask s t).trans (call_fst limit operation a ask s 0).symm

/-- Whether a connection answers calls, and within a limit. -/
structure Answers (limit : Nat) (a : Alias) (s : Surroundings) : Prop where
  in_time : (s.faults.delays[a]?).any (limit < ·) = false
  reachable : s.faults.unreachable.contains a = false

/-- A connection that answers tells what the catalog says, and another one tells nothing. -/
theorem found_call_eq_ok_iff {limit : Nat} {operation : String} {a : Alias}
    {ask : Catalog → Outcome α} {x : α} : (call limit operation a ask).found s = .ok x ↔
      Answers limit a s ∧ ask s.catalog = .ok x := by
  rw [found, call_fst]
  constructor
  · intro h
    split at h
    · cases h
    · next hlate =>
      split at h
      · cases h
      · next hreachable =>
        exact ⟨⟨Bool.eq_false_iff.mpr hlate, Bool.eq_false_iff.mpr hreachable⟩, h⟩
  · rintro ⟨⟨hlate, hreachable⟩, hask⟩
    rw [hlate, hreachable, if_neg Bool.false_ne_true, if_neg Bool.false_ne_true, hask]

/-- A call that is answered tells what the catalog says. -/
theorem ok_of_found_call {limit : Nat} {operation : String} {a : Alias} {ask : Catalog → Outcome α}
    {x : α} (h : (call limit operation a ask).found s = .ok x) : ask s.catalog = .ok x :=
  (found_call_eq_ok_iff.mp h).2

/-! ### Windows -/

/-- Steady visits find what they find. -/
theorem finds_found {vs : List (Visit α)} (hvs : ∀ v ∈ vs, v.Steady) (s : Surroundings) :
    List.Forall₂ (fun v o => v.Finds (fun _ => s) o) vs (vs.map (·.found s)) :=
  List.forall₂_map_right_iff.mpr (List.forall₂_same.mpr fun v hv => hvs v hv s)

theorem map_fst_windowFrom {vs : List (Visit α)} (hvs : ∀ v ∈ vs, v.Steady) (width : Nat)
    (s : Surroundings) (start : Nat) (handed : List Nat) :
    (windowFrom width (fun _ => s) start handed vs).map Prod.fst = vs.map (·.found s) :=
  finds_windowFrom (finds_found hvs s) width start handed

theorem steady_window {vs : List (Visit α)} (hvs : ∀ v ∈ vs, v.Steady) (width : Nat) :
    (window width vs).Steady := fun s t => by
  simp only [found, window, map_fst_windowFrom hvs]

theorem found_window {vs : List (Visit α)} (hvs : ∀ v ∈ vs, v.Steady) (width : Nat)
    (s : Surroundings) : (window width vs).found s = .ok (vs.map (·.found s)) := by
  simp only [found, window, map_fst_windowFrom hvs]

theorem fst_allInWindow {vs : List (Visit α)} (hvs : ∀ v ∈ vs, v.Steady) (width : Nat)
    (s : Surroundings) (t : Nat) :
    (allInWindow width vs (fun _ => s) t).1 = vs.mapM (·.found s) := by
  rw [finds_allInWindow (finds_found hvs s), List.mapM_map]
  rfl

theorem steady_allInWindow {vs : List (Visit α)} (hvs : ∀ v ∈ vs, v.Steady) (width : Nat) :
    (allInWindow width vs).Steady := fun s t =>
  (fst_allInWindow hvs width s t).trans (fst_allInWindow hvs width s 0).symm

theorem found_allInWindow {vs : List (Visit α)} (hvs : ∀ v ∈ vs, v.Steady) (width : Nat)
    (s : Surroundings) : (allInWindow width vs).found s = vs.mapM (·.found s) :=
  fst_allInWindow hvs width s 0

end TierLineage.Visit
