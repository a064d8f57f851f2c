import TierLineage.Proofs.Matching.BestFirst
import TierLineage.Proofs.Mapping.Rankings

/-!
# Ties

A selection goes on after the first few of a ranking for as long as what follows is tied with the last of
them.  What is tied with it farther down is left out: another target stands between the two, one that
is not alike.  That happens only across groups.  In a group such a target cannot stand between two that
are alike, so a hidden tie is in a later group, more than the tolerance below a score that the last one
selected is within the tolerance of.
-/

namespace TierLineage.Ranked

open TierLineage.Number

variable {epsilon : Single} {cs rs : List Ranked} {a b best c last x y : Ranked} {count : Nat}

/-- Whether two targets are in different groups: a score the first one is within the tolerance of is too
high for the second. -/
def Apart (epsilon : Single) (cs : List Ranked) (last c : Ranked) : Prop :=
  ∃ best ∈ cs, last.score.atMost best.score = true ∧ within epsilon best last = true ∧
    within epsilon best c = false

/-! ### Targets that are alike -/

theorem alike_iff : a.alike b = true ↔
    a.sameObject = b.sameObject ∧ a.preferred = b.preferred ∧ a.overlap = b.overlap := by
  simp only [alike, Bool.and_eq_true, beq_iff_eq, and_assoc]

/-- What stands between two targets that are alike in a group is like them. -/
theorem alike_between (hab : ¬ b.Beats a) (hbc : ¬ c.Beats b) (hac : c.alike a = true) :
    b.alike a = true := by
  simp only [Beats, not_or, not_and, not_lt] at hab hbc
  obtain ⟨hsame, hpreferred, hoverlap⟩ := alike_iff.mp hac
  have hsame' : a.sameObject = b.sameObject := le_antisymm (hsame ▸ hbc.1) hab.1
  obtain ⟨hleA, hA⟩ := hab.2 hsame'
  obtain ⟨hleC, hC⟩ := hbc.2 (hsame'.symm.trans hsame.symm)
  have hpreferred' : a.preferred = b.preferred := le_antisymm (hpreferred ▸ hleC) hleA
  have hoverlap' : a.overlap = b.overlap :=
    le_antisymm (hoverlap ▸ (hC (hpreferred'.symm.trans hpreferred.symm)).1) (hA hpreferred').1
  exact alike_iff.mpr ⟨hsame'.symm, hpreferred'.symm, hoverlap'.symm⟩

/-- Of two targets that are alike, the one that does not beat the other has no higher score. -/
theorem units_le_of_not_beats (ha : a.score.IsFinite) (hb : b.score.IsFinite)
    (h : ¬ b.Beats a) (halike : b.alike a = true) : b.score.units ≤ a.score.units := by
  obtain ⟨hsame, hpreferred, hoverlap⟩ := alike_iff.mp halike
  by_contra hlt
  exact h (.inr ⟨hsame.symm, .inr ⟨hpreferred.symm, .inr ⟨hoverlap.symm,
    .inl ((ha.less_iff hb).mpr (not_le.mp hlt))⟩⟩⟩)

/-- Whether a lower score is tied is a matter of the difference, and of being alike. -/
theorem tied_eq (hlast : last.score.IsFinite) (hc : c.score.IsFinite)
    (hle : c.score.units ≤ last.score.units) :
    tied epsilon last c = (within epsilon last c && c.alike last) := by
  rw [tied, within, Binary.abs_sub_atMost (by decide) hlast hc hle]

/-! ### Ties in a ranking -/

namespace BestFirst

/-- Targets that are alike go by falling score, also across groups. -/
theorem pairwise_falling (hfinite : ∀ c ∈ cs, c.score.IsFinite) (h : BestFirst epsilon cs rs) :
    rs.Pairwise fun a b => b.alike a = true → b.score.units ≤ a.score.units := by
  induction h with
  | nil => exact .nil
  | @group cs top rest best hbest hhighest htop hordered hrest ih =>
    refine List.pairwise_append.mpr ⟨hordered.imp_of_mem fun {a b} ha hb => ?_,
      ih fun c hc => hfinite c (List.mem_filter.mp hc).1, fun a ha b hb _ => ?_⟩
    · exact units_le_of_not_beats (hfinite a ((mem_top htop).mp ha).1)
        (hfinite b ((mem_top htop).mp hb).1)
    · obtain ⟨hacs, hnear⟩ := (mem_top htop).mp ha
      obtain ⟨hbcs, hfar⟩ := (mem_rest hrest).mp hb
      exact (units_lt_of_within (hfinite best hbest) (hfinite a hacs) (hfinite b hbcs) hnear
        hfar).le

/-- Two targets that are alike are in different groups if another one stands between them. -/
theorem apart (h : BestFirst epsilon cs rs) (hsub : [last, b, c].Sublist rs)
    (halike : c.alike last = true) (hunlike : b.alike last = false) : Apart epsilon cs last c := by
  induction h with
  | nil => cases hsub
  | @group cs top rest best hbest hhighest htop hordered hrest ih =>
    obtain ⟨front, back, heq, hfront, hback⟩ := List.sublist_append_iff.mp hsub
    rcases List.cons_eq_append_iff.mp heq with ⟨rfl, rfl⟩ | ⟨front, rfl, heq'⟩
    · obtain ⟨best', hmem, hapart⟩ := ih hback
      exact ⟨best', (List.mem_filter.mp hmem).1, hapart⟩
    · have hlast := (mem_top htop).mp (hfront.subset List.mem_cons_self)
      rcases back.eq_nil_or_concat' with rfl | ⟨back, d, rfl⟩
      · -- all three are in the group, which has those that are alike side by side
        rw [List.append_nil] at heq'
        subst heq'
        have hgroup := hordered.sublist hfront
        simp only [List.pairwise_cons, List.mem_cons, List.not_mem_nil, or_false, forall_eq_or_imp,
          forall_eq] at hgroup
        rw [alike_between hgroup.1.1 hgroup.2.1 halike] at hunlike
        cases hunlike
      · have hd : d = c := by
          simpa using (congrArg List.getLast? heq').symm
        subst hd
        have hc := (mem_rest hrest).mp (hback.subset List.mem_concat_self)
        exact ⟨best, hbest, hhighest last hlast.1, hlast.2, Bool.eq_false_iff.mpr hc.2⟩

/-- A tie below a target that is not tied is in another group. -/
theorem apart_of_tied (hfinite : ∀ c ∈ cs, c.score.IsFinite) (h : BestFirst epsilon cs rs)
    (hsub : [last, b, c].Sublist rs) (hb : tied epsilon last b = false)
    (hc : tied epsilon last c = true) : b.alike last = false ∧ Apart epsilon cs last c := by
  have hmem : ∀ x ∈ [last, b, c], x.score.IsFinite := fun x hx =>
    hfinite x (h.perm.mem_iff.mp (hsub.subset hx))
  have halike : c.alike last = true := (Bool.and_eq_true_iff.mp hc).2
  have hfalling := (h.pairwise_falling hfinite).sublist hsub
  simp only [List.pairwise_cons, List.mem_cons, List.not_mem_nil, or_false, forall_eq_or_imp,
    forall_eq] at hfalling hmem
  have hunlike : b.alike last = false := by
    -- were it like them, its score would be between theirs, and it would be tied as well
    by_contra hlike
    rw [Bool.not_eq_false] at hlike
    have hlast := hfalling.1.1 hlike
    have hbetween : c.alike b = true := by
      rw [alike_iff] at halike hlike ⊢
      exact ⟨halike.1.trans hlike.1.symm, halike.2.1.trans hlike.2.1.symm,
        halike.2.2.trans hlike.2.2.symm⟩
    have hbc := hfalling.2.1 hbetween
    rw [tied_eq hmem.1 hmem.2.2 (hbc.trans hlast), Bool.and_eq_true_iff] at hc
    rw [tied_eq hmem.1 hmem.2.1 hlast, hlike, Bool.and_true,
      within_of_le hmem.1 hmem.2.2 hmem.2.1 hbc hc.1] at hb
    cases hb
  exact ⟨hunlike, h.apart hsub halike hunlike⟩

end BestFirst

/-! ### Selections of a ranking -/

/-- A selection is the first few of a list, and all that follow them up to one that is not tied. -/
theorem selectTop_cases (rs : List Ranked) (count : Nat) (epsilon : Single) : ∃ run rest,
    rs.drop count = run ++ rest ∧ selectTop rs count epsilon = rs.take count ++ run ∧
    ∀ last ∈ (rs.take count).getLast?, (∀ c ∈ run, tied epsilon last c = true) ∧
      ∀ b ∈ rest.head?, tied epsilon last b = false := by
  rw [selectTop]
  cases hlast : (rs.take count).getLast? with
  | none =>
    rw [List.getLast?_eq_none_iff.mp hlast]
    exact ⟨[], rs.drop count, rfl, rfl, by rintro _ ⟨⟩⟩
  | some last =>
    refine ⟨_, (rs.drop count).dropWhile (tied epsilon last),
      List.takeWhile_append_dropWhile.symm, rfl, ?_⟩
    intro last' hlast'
    cases hlast'
    refine ⟨fun c hc => List.all_eq_true.mp List.all_takeWhile c hc, fun b hb => ?_⟩
    have hstop := List.head?_dropWhile_not (tied epsilon last) (rs.drop count)
    rw [Option.mem_def.mp hb] at hstop
    exact hstop

/-- Whatever is tied and was left out of a selection is behind a target that is not alike, and in
another group. -/
theorem hidden_tie (hfinite : ∀ c ∈ cs, c.score.IsFinite) (h : BestFirst epsilon cs rs)
    {front run rest : List Ranked} (hrs : rs = front ++ (run ++ rest))
    (hlast : last ∈ front.getLast?) (hstop : ∀ b ∈ rest.head?, tied epsilon last b = false)
    (hc : c ∈ rest) (htied : tied epsilon last c = true) :
    (∃ b, [b, c].Sublist rest ∧ b.alike last = false) ∧ Apart epsilon cs last c := by
  obtain ⟨front, rfl⟩ := List.getLast?_eq_some_iff.mp hlast
  cases rest with
  | nil => cases hc
  | cons b rest =>
    have hb := hstop b rfl
    have hc' : c ∈ rest := by
      rcases List.mem_cons.mp hc with rfl | hc
      · rw [htied] at hb
        cases hb
      · exact hc
    have hbc : [b, c].Sublist (b :: rest) := (List.singleton_sublist.mpr hc').cons_cons b
    have hsub : [last, b, c].Sublist rs := by
      rw [hrs]
      exact (List.singleton_sublist.mpr (List.mem_append_right front (List.mem_singleton_self last))
        : [last].Sublist _).append (hbc.trans (List.sublist_append_right run _))
    obtain ⟨hunlike, hapart⟩ := h.apart_of_tied hfinite hsub hb htied
    exact ⟨⟨b, hbc, hunlike⟩, hapart⟩

/-- A selection from a ranking of targets with finite scores is the first few of it, and those that follow
and are tied with the last of these.  A tie that is left out has a target before it that is not alike, and
is in another group: a target within the tolerance of every score is selected if it is tied. -/
theorem selectTop_rank (hfinite : ∀ c ∈ cs, c.score.IsFinite)
    (hepsilon : (Binary.ofNat 0 : Single).atMost epsilon = true) (count : Nat) : ∃ run rest,
    (rank cs epsilon).drop count = run ++ rest ∧
    selectTop (rank cs epsilon) count epsilon = (rank cs epsilon).take count ++ run ∧
    ∀ last ∈ ((rank cs epsilon).take count).getLast?,
      (∀ c ∈ run, tied epsilon last c = true) ∧
      (∀ c ∈ rest, tied epsilon last c = true →
        (∃ b, [b, c].Sublist rest ∧ b.alike last = false) ∧ Apart epsilon cs last c) ∧
      ∀ c ∈ cs, tied epsilon last c = true → (∀ best ∈ cs, within epsilon best c = true) →
        c ∈ selectTop (rank cs epsilon) count epsilon := by
  have h := bestFirst_rank hfinite hepsilon
  obtain ⟨run, rest, hdrop, hselect, hties⟩ := selectTop_cases (rank cs epsilon) count epsilon
  have hrank : rank cs epsilon = (rank cs epsilon).take count ++ (run ++ rest) := by
    rw [← hdrop, List.take_append_drop]
  refine ⟨run, rest, hdrop, hselect, fun last hlast => ?_⟩
  obtain ⟨hrun, hstop⟩ := hties last hlast
  have hhidden := fun c hc => hidden_tie hfinite h hrank hlast hstop (c := c) hc
  refine ⟨hrun, hhidden, fun c hc htied hnear => ?_⟩
  have hmem := h.perm.mem_iff.mpr hc
  rw [hrank, List.mem_append, List.mem_append] at hmem
  rw [hselect, List.mem_append]
  rcases hmem with hfirst | hfollow | hrest
  · exact .inl hfirst
  · exact .inr hfollow
  · obtain ⟨-, best, hbest, -, -, hfar⟩ := hhidden c hrest htied
    rw [hnear best hbest] at hfar
    cases hfar

theorem selectTop_rank_sample : (∀ c ∈ sampleTargets, c.score.IsFinite) ∧
    (Binary.ofNat 0 : Single).atMost sampleTolerance = true ∧
    ∃ run rest, (rank sampleTargets sampleTolerance).drop 1 = run ++ rest ∧
      selectTop (rank sampleTargets sampleTolerance) 1 sampleTolerance =
        (rank sampleTargets sampleTolerance).take 1 ++ run := by
  have hepsilon : (Binary.ofNat 0 : Single).atMost sampleTolerance = true := by decide +kernel
  obtain ⟨run, rest, hdrop, hselect, -⟩ := selectTop_rank finite_sampleTargets hepsilon 1
  exact ⟨finite_sampleTargets, hepsilon, run, rest, hdrop, hselect⟩

/-- The first two make up a group, where more columns in common count for more than a higher score. -/
theorem rank_sampleTargets : rank sampleTargets sampleTolerance =
    [sampleTarget "b" 985 4, sampleTarget "a" 1000 1, sampleTarget "c" 975 4] := by
  have hsorted : byScore sampleTargets = sampleTargets :=
    List.mergeSort_of_pairwise (by decide +kernel)
  have hnear : near sampleTolerance (sampleTarget "a" 1000 1) (sampleTarget "b" 985 4) = true := by
    decide +kernel
  have hfar : near sampleTolerance (sampleTarget "a" 1000 1) (sampleTarget "c" 975 4) = false := by
    decide +kernel
  have horder : (order (sampleTarget "a" 1000 1) (sampleTarget "b" 985 4)).isLE = false := by
    decide +kernel
  rw [rank, hsorted, sampleTargets, clusters, List.takeWhile_cons_of_pos hnear,
    List.dropWhile_cons_of_pos hnear, List.takeWhile_cons_of_neg (Bool.eq_false_iff.mp hfar),
    List.dropWhile_cons_of_neg (Bool.eq_false_iff.mp hfar), clusters, List.takeWhile_nil,
    List.dropWhile_nil, clusters]
  simp [List.mergeSort, horder]

/-- Not all ties are selected: the third target is tied with the first of the ranking, but comes after
the second, which is not. -/
theorem not_selects_all_ties : ¬ ∀ (cs : List Ranked) (epsilon : Single) (count : Nat),
    (∀ c ∈ cs, c.score.IsFinite) → (cs.map table).Nodup →
    (Binary.ofNat 0 : Single).atMost epsilon = true → 0 < count →
    ∀ last ∈ ((rank cs epsilon).take count).getLast?,
      selectTop (rank cs epsilon) count epsilon =
        (rank cs epsilon).take count ++
          ((rank cs epsilon).drop count).filter (tied epsilon last) := by
  intro hall
  have hties := hall sampleTargets sampleTolerance 1 finite_sampleTargets (by decide +kernel)
    (by decide +kernel) Nat.one_pos
  rw [rank_sampleTargets] at hties
  have hselect := hties (sampleTarget "b" 985 4) rfl
  have hlength := congrArg List.length hselect
  revert hlength
  decide +kernel

end TierLineage.Ranked
