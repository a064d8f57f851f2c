import TierLineage.Proofs.Matching.Ties

/-!
# Selections inside each other

A selection goes on after the first few of a ranking while what follows is tied with the last of them,
and with every further place another target is that last one.  If it was itself among the ties it is
alike to the last one before it, and no higher, as targets that are alike go by falling score; so it
is no farther from whatever was tied as well, and the run of ties does not get shorter.  More places
therefore never drop a target, and never put one in front of others.
-/

namespace TierLineage.Ranked

open TierLineage.Number

variable {epsilon : Single} {cs rs rest : List Ranked} {last next c : Ranked} {count : Nat}

/-! ### The number of places -/

/-- Where all that has a property has another one as well, a run of the first is the start of one of
the other. -/
theorem takeWhile_prefix_takeWhile {p q : Ranked → Bool} (h : ∀ c ∈ cs, p c = true → q c = true) :
    cs.takeWhile p <+: cs.takeWhile q := by
  induction cs with
  | nil => exact List.prefix_rfl
  | cons c cs ih =>
    obtain ⟨hc, hcs⟩ := List.forall_mem_cons.mp h
    cases hp : p c with
    | false =>
      rw [List.takeWhile_cons_of_neg (Bool.eq_false_iff.mp hp)]
      exact List.nil_prefix
    | true =>
      rw [List.takeWhile_cons_of_pos hp, List.takeWhile_cons_of_pos (hc hp), List.cons_prefix_cons]
      exact ⟨rfl, ih hcs⟩

/-- A selection is of no fewer targets than there are places or targets. -/
theorem le_length_selectTop (rs : List Ranked) (count : Nat) (epsilon : Single) :
    min count rs.length ≤ (selectTop rs count epsilon).length := by
  obtain ⟨run, rest, -, hselect, -⟩ := selectTop_cases rs count epsilon
  rw [hselect, List.length_append, List.length_take]
  exact Nat.le_add_right _ _

/-- Where there are places for all, all are selected. -/
theorem selectTop_eq_self (h : rs.length ≤ count) : selectTop rs count epsilon = rs := by
  obtain ⟨run, rest, hdrop, hselect, -⟩ := selectTop_cases rs count epsilon
  rw [List.drop_of_length_le h] at hdrop
  rw [hselect, (List.append_eq_nil_iff.mp hdrop.symm).1, List.append_nil, List.take_of_length_le h]

/-- A selection from targets of which the last place is taken by one of them. -/
theorem selectTop_of_append {front : List Ranked} (hcount : count = front.length + 1) :
    selectTop (front ++ last :: rest) count epsilon =
      front ++ last :: rest.takeWhile (tied epsilon last) := by
  have hsplit : front ++ last :: rest = (front ++ [last]) ++ rest := by simp
  have hlength : count = (front ++ [last]).length := by simp [hcount]
  rw [selectTop, hsplit, hlength, List.take_left, List.drop_left, List.getLast?_concat]
  simp

/-! ### One more place -/

/-- What was tied with a target is tied with the next one too, if that is tied with it. -/
theorem tied_of_tied (hlast : last.score.IsFinite) (hnext : next.score.IsFinite)
    (hc : c.score.IsFinite)
    (hfalling : c.alike next = true → c.score.units ≤ next.score.units)
    (hdown : next.alike last = true → next.score.units ≤ last.score.units)
    (htied : tied epsilon last next = true) (h : tied epsilon last c = true) :
    tied epsilon next c = true := by
  have hnextAlike : next.alike last = true := (Bool.and_eq_true_iff.mp htied).2
  have hcAlike : c.alike last = true := (Bool.and_eq_true_iff.mp h).2
  have halike : c.alike next = true := by
    rw [alike_iff] at hnextAlike hcAlike ⊢
    exact ⟨hcAlike.1.trans hnextAlike.1.symm, hcAlike.2.1.trans hnextAlike.2.1.symm,
      hcAlike.2.2.trans hnextAlike.2.2.symm⟩
  have hle := hfalling halike
  have hle' := hdown hnextAlike
  rw [tied_eq hlast hc (hle.trans hle'), Bool.and_eq_true_iff] at h
  rw [tied_eq hnext hc hle, halike, Bool.and_true]
  -- the difference to the lower one of the two is no greater
  exact Binary.atMost_trans (Binary.sub_atMost_sub (by decide) hnext hc hlast hc
    (Int.sub_le_sub_right hle' _)) h.1

/-- The place after the last one only adds targets at the end. -/
theorem selectTop_prefix_next (front : List Ranked) (epsilon : Single)
    (hfinite : ∀ c ∈ last :: next :: rest, c.score.IsFinite)
    (hfalling : (last :: next :: rest).Pairwise fun a b =>
      b.alike a = true → b.score.units ≤ a.score.units) :
    selectTop (front ++ last :: next :: rest) (front.length + 1) epsilon <+:
      selectTop (front ++ last :: next :: rest) (front.length + 2) epsilon := by
  have hassoc : front ++ last :: next :: rest = (front ++ [last]) ++ next :: rest := by simp
  rw [selectTop_of_append rfl, hassoc, selectTop_of_append (by simp), List.append_assoc]
  refine (List.prefix_append_right_inj front).mpr (List.cons_prefix_cons.mpr ⟨rfl, ?_⟩)
  cases htied : tied epsilon last next with
  | false =>
    rw [List.takeWhile_cons_of_neg (Bool.eq_false_iff.mp htied)]
    exact List.nil_prefix
  | true =>
    obtain ⟨hlast, hmore⟩ := List.forall_mem_cons.mp hfinite
    obtain ⟨hnext, hrest⟩ := List.forall_mem_cons.mp hmore
    obtain ⟨hbelow, hfalling⟩ := List.pairwise_cons.mp hfalling
    rw [List.takeWhile_cons_of_pos htied]
    refine List.cons_prefix_cons.mpr ⟨rfl, takeWhile_prefix_takeWhile fun c hc => ?_⟩
    exact tied_of_tied hlast hnext (hrest c hc) ((List.pairwise_cons.mp hfalling).1 c hc)
      (hbelow next List.mem_cons_self) htied

/-- One more place only adds targets at the end. -/
theorem selectTop_prefix_succ (hfinite : ∀ c ∈ rs, c.score.IsFinite)
    (hfalling : rs.Pairwise fun a b => b.alike a = true → b.score.units ≤ a.score.units)
    (count : Nat) : selectTop rs count epsilon <+: selectTop rs (count + 1) epsilon := by
  rcases Nat.lt_or_ge count rs.length with hlt | hge
  · cases count with
    | zero => exact List.nil_prefix
    | succ n =>
      have hsplit : rs = rs.take n ++ rs[n] :: rs[n + 1] :: rs.drop (n + 2) := by
        rw [List.getElem_cons_drop, List.getElem_cons_drop, List.take_append_drop]
      have hlength : (rs.take n).length = n := List.length_take_of_le (Nat.le_of_succ_le hlt.le)
      rw [hsplit] at hfinite hfalling ⊢
      have hnext := selectTop_prefix_next (rs.take n) epsilon
        (fun c hc => hfinite c (List.mem_append_right _ hc)) (List.pairwise_append.mp hfalling).2.1
      rwa [hlength] at hnext
  · have hall : selectTop rs count epsilon = selectTop rs (count + 1) epsilon :=
      (selectTop_eq_self hge).trans (selectTop_eq_self (Nat.le_succ_of_le hge)).symm
    exact ⟨[], (List.append_nil _).trans hall⟩

/-- More places only add targets at the end. -/
theorem selectTop_prefix (hfinite : ∀ c ∈ rs, c.score.IsFinite)
    (hfalling : rs.Pairwise fun a b => b.alike a = true → b.score.units ≤ a.score.units)
    {count count' : Nat} (h : count ≤ count') :
    selectTop rs count epsilon <+: selectTop rs count' epsilon := by
  induction h with
  | refl => exact List.prefix_rfl
  | step _ ih => exact ih.trans (selectTop_prefix_succ hfinite hfalling _)

/-! ### Selections of a ranking -/

/-- **More places never drop or reorder targets.**  A selection from a ranking of targets with finite
scores is the start of every selection with more places.  It is of no fewer targets than there are
places or targets, and with places for all it is the whole ranking. -/
theorem selectTop_nested (hfinite : ∀ c ∈ cs, c.score.IsFinite)
    (hepsilon : (Binary.ofNat 0 : Single).atMost epsilon = true) :
    (∀ count count', count ≤ count' →
      selectTop (rank cs epsilon) count epsilon <+: selectTop (rank cs epsilon) count' epsilon) ∧
    (∀ count, min count cs.length ≤ (selectTop (rank cs epsilon) count epsilon).length) ∧
    ∀ count, cs.length ≤ count → selectTop (rank cs epsilon) count epsilon = rank cs epsilon := by
  have h := bestFirst_rank hfinite hepsilon
  have hlength : (rank cs epsilon).length = cs.length := h.perm.length_eq
  have hfinite' : ∀ c ∈ rank cs epsilon, c.score.IsFinite := fun c hc =>
    hfinite c (h.perm.mem_iff.mp hc)
  refine ⟨fun count count' => selectTop_prefix hfinite' (h.pairwise_falling hfinite),
    fun count => ?_, fun count hcount => selectTop_eq_self (hlength ▸ hcount)⟩
  rw [← hlength]
  exact le_length_selectTop _ _ _

/-- One place and two among three targets, and places for all of them. -/
theorem selectTop_nested_sample : (∀ c ∈ sampleTargets, c.score.IsFinite) ∧
    (Binary.ofNat 0 : Single).atMost sampleTolerance = true ∧
    selectTop (rank sampleTargets sampleTolerance) 1 sampleTolerance <+:
      selectTop (rank sampleTargets sampleTolerance) 2 sampleTolerance ∧
    selectTop (rank sampleTargets sampleTolerance) 3 sampleTolerance =
      rank sampleTargets sampleTolerance := by
  have hepsilon : (Binary.ofNat 0 : Single).atMost sampleTolerance = true := by decide +kernel
  obtain ⟨hnested, -, hall⟩ := selectTop_nested finite_sampleTargets hepsilon
  exact ⟨finite_sampleTargets, hepsilon, hnested 1 2 (by decide), hall 3 (by decide)⟩

end TierLineage.Ranked
