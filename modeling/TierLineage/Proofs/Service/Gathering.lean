import TierLineage.Proofs.Service.Sides

/-!
# Gathering, whatever is asked

The connections of a hop may be asked in any way.  Where a way of asking tells the same whenever it asks,
apart from the wording of its failures, so does loading a connection, and what is gathered of a hop are
the tables of the connections that were loaded, each of the others being reported by its name.
-/

namespace TierLineage

/-! ### Visits that tell one thing or nothing -/

section Results

variable {ε α β : Type}

theorem toOption_bind (x : Except ε α) (f : α → Except ε β) :
    (x >>= f).toOption = x.toOption >>= fun a => (f a).toOption := by
  cases x <;> rfl

/-- Results are all there if each of them is. -/
theorem toOption_mapM (f : α → Except ε β) (as : List α) :
    (as.mapM f).toOption = as.mapM fun a => (f a).toOption := by
  induction as with
  | nil => rfl
  | cons a as ih =>
    rw [List.mapM_cons, List.mapM_cons, toOption_bind]
    refine bind_congr fun b => ?_
    rw [toOption_bind, ih]
    rfl

end Results

namespace Visit

variable {α β : Type} {view : View}

/-- Whether a visit tells one thing whenever it starts, or nothing. -/
def Yields (v : Visit α) (view : View) (o : Option α) : Prop :=
  ∀ t, (v view t).1.toOption = o

theorem Finds.yields {v : Visit α} {o : Outcome α} (h : v.Finds view o) :
    v.Yields view o.toOption :=
  fun t => congrArg Except.toOption (h t)

/-- A visit that goes on with what another one tells. -/
theorem Yields.bind {v : Visit α} {next : α → Visit β} {o : Option α} {p : α → Option β}
    (hv : v.Yields view o) (hnext : ∀ a, (next a).Yields view (p a)) :
    (v >>= next).Yields view (o >>= p) := by
  intro t
  change (Visit.bind v next view t).1.toOption = _
  rw [Visit.bind, ← hv t]
  obtain ⟨result, t'⟩ := v view t
  cases result with
  | ok a => exact hnext a t'
  | error e => rfl

/-- Visits in a window tell all they tell on their own, or nothing. -/
theorem yields_allInWindow {γ : Type} {f : γ → Visit α} {p : γ → Option α}
    (h : ∀ c, (f c).Yields view (p c)) (width : Nat) (cs : List γ) :
    (allInWindow width (cs.map f)).Yields view (cs.mapM p) := by
  intro t
  rw [allInWindow, fst_untilFailure, toOption_mapM, List.mapM_map]
  generalize ([] : List Nat) = handed
  induction cs generalizing handed with
  | nil => rfl
  | cons c cs ih =>
    rw [List.map_cons, windowFrom, List.mapM_cons, List.mapM_cons, ih, ← h c]
    rfl

end Visit

open TierLineage.Mappings

namespace Mappings.Access

variable {c : Access} {e : Engine} {r : Registry} {hop : Hop} {view : View} {a : Alias}

/-! ### Loading a connection -/

/-- A table with the columns that a connection tells. -/
def withColumns (c : Access) (a : Alias) (t : Table) : Visit Listed := do
  return ⟨t, ← c.columns a t⟩

theorem load_eq (c : Access) (e : Engine) (a : Alias) : c.load e a = c.tables a >>= fun ts =>
    Visit.allInWindow e.workerPoolSize (ts.map (c.withColumns a)) := rfl

/-- Tables with their columns, if those of each of them are told. -/
def listedWith (columns : Table → Option (List Column)) (ts : List Table) : Option (List Listed) :=
  ts.mapM fun t => do return ⟨t, ← columns t⟩

/-- A connection is loaded with the tables that it tells, if it tells the columns of each. -/
theorem yields_load {tables : Option (List Table)} {columns : Table → Option (List Column)}
    (htables : (c.tables a).Yields view tables)
    (hcolumns : ∀ t, (c.columns a t).Yields view (columns t)) :
    (c.load e a).Yields view (tables >>= listedWith columns) := by
  have hlisted : ∀ t, (c.withColumns a t).Yields view (do return ⟨t, ← columns t⟩) := fun t =>
    (hcolumns t).bind fun _ _ => rfl
  rw [load_eq]
  exact htables.bind fun ts => Visit.yields_allInWindow hlisted e.workerPoolSize ts

/-! ### Sides of a hop -/

/-- The tables of the connections that are loaded. -/
def loadedWith (load : Alias → Option (List Listed)) (as : List Alias) : List Listed :=
  as.flatMap fun a => (load a).getD []

variable {load : Alias → Option (List Listed)} {loaded : List Loaded}

/-- The connections that were loaded answer, and the others are reported in their order. -/
theorem answered_of_load (h : ∀ x ∈ loaded, x.2.toOption = load x.1) :
    answered loaded = loadedWith load (loaded.map Prod.fst) ∧
      (unanswered loaded).map (·.target) =
        ((loaded.map Prod.fst).filter fun a => (load a).isNone).map (·.name) := by
  induction loaded with
  | nil => exact ⟨rfl, rfl⟩
  | cons x rest ih =>
    obtain ⟨a, result⟩ := x
    obtain ⟨hx, hrest⟩ := List.forall_mem_cons.mp h
    obtain ⟨hanswered, hunanswered⟩ := ih hrest
    simp only [loadedWith, answered, List.map_cons, List.filter_cons, List.flatMap_cons, unanswered,
      List.filterMap_cons] at hx hanswered hunanswered ⊢
    rw [hanswered, ← hx]
    cases result with
    | ok ls => exact ⟨rfl, hunanswered⟩
    | error f => exact ⟨rfl, congrArg (a.name :: ·) hunanswered⟩

/-- What is gathered of a hop are the tables of the connections that are loaded. -/
theorem gather_of_load
    (h : ∀ a ∈ r.aliasesOf hop.start ++ r.aliasesOf hop.target, (c.load e a).Yields view (load a))
    (t : Nat) : ∃ failures, (c.gather e r hop view t).1 = .ok
        (⟨loadedWith load (r.aliasesOf hop.start), loadedWith load (r.aliasesOf hop.target)⟩,
          failures) ∧
      failures.map (·.target) = ((r.aliasesOf hop.start ++ r.aliasesOf hop.target).filter
        fun a => (load a).isNone).map (·.name) := by
  let aliases := r.aliasesOf hop.start ++ r.aliasesOf hop.target
  let n := (r.aliasesOf hop.start).length
  let results := (Visit.windowFrom e.workerPoolSize view t [] (aliases.map (c.load e))).map Prod.fst
  have hresults : List.Forall₂ (fun a o => ∃ t, o = (c.load e a view t).1) aliases results :=
    List.forall₂_map_right_iff.mpr (List.forall₂_map_left_iff.mp
      (Visit.forall₂_windowFrom e.workerPoolSize view t [] (aliases.map (c.load e))))
  have hfst : (aliases.zip results).map Prod.fst = aliases :=
    List.map_fst_zip (Nat.le_of_eq hresults.length_eq)
  have hloads : ∀ x ∈ aliases.zip results, x.2.toOption = load x.1 := by
    rintro ⟨a, o⟩ hx
    obtain ⟨t', rfl⟩ := List.forall₂_zip hresults hx
    exact h a (List.of_mem_zip hx).1 t'
  have hgather : (c.gather e r hop view t).1 = .ok (sidesOf n (aliases.zip results)) := rfl
  have hfirst : ∀ x ∈ (aliases.zip results).take n, x.2.toOption = load x.1 := fun x hx =>
    hloads x (List.mem_of_mem_take hx)
  have hlast : ∀ x ∈ (aliases.zip results).drop n, x.2.toOption = load x.1 := fun x hx =>
    hloads x (List.mem_of_mem_drop hx)
  have hsources := (answered_of_load hfirst).1
  have htargets := (answered_of_load hlast).1
  rw [List.map_take, hfst, List.take_left] at hsources
  rw [List.map_drop, hfst, List.drop_left] at htargets
  refine ⟨_, hgather.trans (congrArg Except.ok (Prod.ext (congrArg₂ Sides.mk hsources htargets) rfl)),
    ?_⟩
  exact (answered_of_load hloads).2.trans (by rw [hfst])

end Mappings.Access

end TierLineage
