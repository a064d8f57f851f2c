import TierLineage.Proofs.Json.RoundTrip

/-!
# Written fields are found

A record that is written with all its required fields, each of which holds what it should, is read
by finding exactly its entries.
-/

namespace TierLineage

/-! ### Steps that succeed -/

@[simp] theorem ok_bind {ε α β : Type} (a : α) (f : α → Except ε β) :
    (Except.ok a >>= f) = f a := rfl

@[simp] theorem error_bind {ε α β : Type} (e : ε) (f : α → Except ε β) :
    (Except.error e >>= f) = .error e := rfl

@[simp] theorem map_ok {ε α β : Type} (f : α → β) (a : α) :
    f <$> (Except.ok a : Except ε α) = .ok (f a) := rfl

@[simp] theorem exceptMap_ok {ε α β : Type} (f : α → β) (a : α) :
    (Except.ok a : Except ε α).map f = .ok (f a) := rfl

namespace Json

@[simp] theorem readText_str (s : String) : readText (str s) = .ok s := rfl

@[simp] theorem readBool_bool (b : Bool) : readBool (.bool b) = .ok b := rfl

theorem foundByName_obj {fs : List Field} {strict : Bool} {es : List (String × Json)}
    {found : Found} (hnodup : (es.map Prod.fst).Nodup)
    (hnew : ∀ e ∈ es, found.lookup e.1 = none)
    (hcheck : ∀ e ∈ es, ∃ f, fs.find? (·.name == e.1) = some f ∧ f.check e.2 = .ok ())
    (hneeded : ∀ f ∈ fs, f.presence = .required → ((es.reverse ++ found).lookup f.name).isSome) :
    foundByName fs strict .closed (es.map fun (k, v) => (some k, v)) found =
      .ok (es.reverse ++ found) := by
  induction es generalizing found with
  | nil =>
    have hall : (fs.all fun f => f.presence != .required || (found.lookup f.name).isSome) = true := by
      refine List.all_eq_true.mpr fun f hf => ?_
      by_cases hp : f.presence = .required
      · have hfound : (found.lookup f.name).isSome = true := hneeded f hf hp
        rw [hfound, Bool.or_true]
      · simp [hp]
    simp [foundByName, checkEnding, Ending.complete, hall]
  | cons e es ih =>
    obtain ⟨k, v⟩ := e
    obtain ⟨f, hf, hok⟩ := hcheck (k, v) (List.mem_cons_self ..)
    obtain ⟨hk, hnodup⟩ := List.nodup_cons.mp hnodup
    have hfresh : found.lookup k = none := hnew (k, v) (List.mem_cons_self ..)
    have htail : foundByName fs strict .closed (es.map fun (k, v) => (some k, v)) ((k, v) :: found) =
        .ok (es.reverse ++ (k, v) :: found) := by
      refine ih hnodup (fun e he => ?_) (fun e he => hcheck e (List.mem_cons_of_mem _ he)) ?_
      · have hne : e.1 ≠ k := fun h => hk (List.mem_map.mpr ⟨e, he, h⟩)
        rw [List.lookup_cons, beq_false_of_ne hne]
        exact hnew e (List.mem_cons_of_mem _ he)
      · simpa using hneeded
    simp only [List.map_cons, foundByName, hf, hfresh]
    rw [List.reverse_cons, List.append_assoc, List.singleton_append, ← htail, hok]
    rfl

/-- All entries of a written record are found, if each of them has its field and none is missing. -/
theorem fields_obj {strict : Bool} {fs : List Field} {es : List (String × Json)}
    (hnodup : (es.map Prod.fst).Nodup)
    (hcheck : ∀ e ∈ es, ∃ f, fs.find? (·.name == e.1) = some f ∧ f.check e.2 = .ok ())
    (hneeded : ∀ f ∈ fs, f.presence = .required → (es.reverse.lookup f.name).isSome) :
    fields strict fs (obj es) = .ok es.reverse := by
  have hfound : foundByName fs strict .closed (es.map fun (k, v) => (some k, v)) [] =
      .ok (es.reverse ++ []) :=
    foundByName_obj hnodup (fun _ _ => rfl) hcheck (by simpa using hneeded)
  simpa [fields, obj] using hfound

/-- What is found for a field that may be null or missing was read from a value. -/
theorem Found.exists_of_option {α : Type} {found : Found} {name : String} {read : Reader α} {a : α}
    (h : found.option name read = .ok (some a)) : ∃ v, read v = .ok a := by
  rw [Found.option, Found.orDefault] at h
  split at h
  · next v _ =>
    unfold readOption at h
    split at h
    · cases h
    · cases hread : read v with
      | error e =>
        rw [hread] at h
        cases h
      | ok b =>
        rw [hread] at h
        cases h
        exact ⟨v, hread⟩
  · cases h

end Json

end TierLineage
