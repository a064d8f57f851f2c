import Mathlib.Data.List.Perm.Basic
import TierLineage.Matching.Ranking
import TierLineage.Proofs.Number.Difference
import TierLineage.Proofs.Order

/-!
# Best first

A ranking begins with the targets whose scores are within a tolerance of the highest one, the best of
them first; whatever is not among these follows in the same way.  So nothing is lost, and no target goes
ahead of one whose score is higher by more than the tolerance.

All this is about finite scores.  The comparison by which a group is sorted is transitive on those only:
`merit` is a comparison that is transitive everywhere, and agrees with it there.
-/

namespace TierLineage.Ranked

open TierLineage.Number
open Std (TransCmp OrientedCmp)

variable {epsilon : Single} {cs ds rs : List Ranked} {a b best c x y : Ranked}

/-! ### What a ranking should be -/

/-- Whether a score is above another one by no more than a tolerance. -/
def within (epsilon : Single) (best c : Ranked) : Bool :=
  (best.score.sub c.score).atMost epsilon

/-- Whether a target goes ahead of another one in a group: for the same object, else for the preferred
schema, else for more columns in common, else for a higher score, else for its name. -/
def Beats (a b : Ranked) : Prop :=
  b.sameObject < a.sameObject ∨ b.sameObject = a.sameObject ∧
  (b.preferred < a.preferred ∨ b.preferred = a.preferred ∧
  (b.overlap < a.overlap ∨ b.overlap = a.overlap ∧
  (b.score.less a.score = true ∨ a.score.less b.score = false ∧ compare a.table b.table = .lt)))

/-- A ranking of targets: first those within a tolerance of the highest score, where none goes after one
that it beats, and then a ranking of the others. -/
inductive BestFirst (epsilon : Single) : List Ranked → List Ranked → Prop
  | nil : BestFirst epsilon [] []
  | group {cs top rest : List Ranked} (best : Ranked) (hbest : best ∈ cs)
      (hhighest : ∀ c ∈ cs, c.score.atMost best.score = true)
      (htop : top.Perm (cs.filter (within epsilon best)))
      (hordered : top.Pairwise fun a b => ¬ b.Beats a)
      (hrest : BestFirst epsilon (cs.filter fun c => !within epsilon best c) rest) :
      BestFirst epsilon cs (top ++ rest)

/-! ### Comparing finite scores -/

/-- The order inside a group, with the units of a score in place of the score. -/
def merit : Ranked → Ranked → Ordering :=
  compareLex (fun a b => compareOn sameObject b a) <|
  compareLex (fun a b => compareOn preferred b a) <|
  compareLex (fun a b => compareOn overlap b a) <|
  compareLex (fun a b => compareOn (fun c => c.score.units) b a) (compareOn table)

instance : TransCmp merit :=
  have : TransCmp fun a b => compareOn sameObject b a := TransCmp.opposite
  have : TransCmp fun a b => compareOn preferred b a := TransCmp.opposite
  have : TransCmp fun a b => compareOn overlap b a := TransCmp.opposite
  have : TransCmp fun a b => compareOn (fun c : Ranked => c.score.units) b a := TransCmp.opposite
  inferInstanceAs (TransCmp (compareLex _ (compareLex _ (compareLex _ (compareLex _ _)))))

theorem order_eq_merit (ha : a.score.IsFinite) (hb : b.score.IsFinite) :
    order a b = merit a b := by
  obtain ⟨ta, sa, oa, sameA, prefA⟩ := a
  obtain ⟨tb, sb, ob, sameB, prefB⟩ := b
  cases sa with
  | infinite s => cases ha
  | nan => cases ha
  | finite s u =>
    cases sb with
    | infinite s => cases hb
    | nan => cases hb
    | finite t v => rfl

theorem merit_eq_lt_iff (ha : a.score.IsFinite) (hb : b.score.IsFinite) :
    merit a b = .lt ↔ a.Beats b := by
  have hscore : (b.score.less a.score = true ∨
      a.score.less b.score = false ∧ compare a.table b.table = .lt) ↔
      b.score.units < a.score.units ∨ b.score.units = a.score.units ∧
        compare a.table b.table = .lt := by
    have hnot : ¬ a.score.units < b.score.units ↔
        b.score.units < a.score.units ∨ b.score.units = a.score.units := by
      omega
    rw [hb.less_iff ha, Bool.eq_false_iff, ne_eq, ha.less_iff hb, hnot]
    tauto
  rw [Beats, hscore]
  simp only [merit, compareLex, compareOn, Ordering.then_eq_lt, compare_lt_iff_lt,
    compare_eq_iff_eq]

theorem not_beats_self (ha : a.score.IsFinite) : ¬ a.Beats a := by
  have hself : merit a a = .eq := Std.ReflCmp.compare_self
  rw [← merit_eq_lt_iff ha ha, hself]
  exact nofun

/-- Of two targets one beats the other, unless nothing a ranking looks at tells them apart. -/
theorem beats_or_beats (ha : a.score.IsFinite) (hb : b.score.IsFinite) :
    a.Beats b ∨ b.Beats a ∨ a.alike b = true ∧ a.score.units = b.score.units ∧
      a.table = b.table := by
  rw [← merit_eq_lt_iff ha hb, ← merit_eq_lt_iff hb ha, ← OrientedCmp.gt_iff_lt (a := a)]
  cases hmerit : merit a b with
  | lt => exact .inl rfl
  | gt => exact .inr (.inl rfl)
  | eq =>
    simp only [merit, compareLex, compareOn, Ordering.then_eq_eq, compare_eq_iff_eq] at hmerit
    obtain ⟨hsame, hpreferred, hoverlap, hscore, htable⟩ := hmerit
    refine .inr (.inr ⟨?_, hscore.symm, Std.LawfulEqOrd.eq_of_compare htable⟩)
    simp only [alike, hsame, hpreferred, hoverlap, beq_self_eq_true, Bool.and_self]

/-! ### Sorting finite scores -/

theorem mergeSort_congr {r s : Ranked → Ranked → Bool}
    (h : ∀ a ∈ cs, ∀ b ∈ cs, r a b = s a b) : cs.mergeSort r = cs.mergeSort s := by
  simpa using List.map_mergeSort (f := id) h

theorem pairwise_byScore (hfinite : ∀ c ∈ cs, c.score.IsFinite) :
    (byScore cs).Pairwise fun a b => b.score.units ≤ a.score.units := by
  have hsort : byScore cs = cs.mergeSort fun a b => decide (b.score.units ≤ a.score.units) := by
    refine mergeSort_congr fun a ha b hb => ?_
    rw [Bool.eq_iff_iff, Bool.not_eq_true', decide_eq_true_iff,
      Binary.not_less_iff (hfinite a ha).ne_nan (hfinite b hb).ne_nan,
      (hfinite b hb).atMost_iff (hfinite a ha)]
  rw [hsort]
  refine (List.pairwise_mergeSort (fun a b c => ?_) (fun a b => ?_) cs).imp of_decide_eq_true
  · simp only [decide_eq_true_iff]
    exact fun hab hbc => hbc.trans hab
  · simp only [Bool.or_eq_true, decide_eq_true_iff]
    exact le_total _ _

theorem pairwise_mergeSort_order (hfinite : ∀ c ∈ cs, c.score.IsFinite) :
    (cs.mergeSort fun a b => (order a b).isLE).Pairwise fun a b => ¬ b.Beats a := by
  have hsort : (cs.mergeSort fun a b => (order a b).isLE) =
      cs.mergeSort fun a b => (merit a b).isLE :=
    mergeSort_congr fun a ha b hb => by rw [order_eq_merit (hfinite a ha) (hfinite b hb)]
  rw [hsort]
  have htotal : ∀ a b, ((merit a b).isLE || (merit b a).isLE) = true := fun a b => by
    have hswap : merit b a = (merit a b).swap := OrientedCmp.eq_swap
    rw [hswap]
    cases merit a b <;> rfl
  have hsorted : (cs.mergeSort fun a b => (merit a b).isLE).Pairwise fun a b =>
      (merit a b).isLE = true :=
    List.pairwise_mergeSort (fun a b c => TransCmp.isLE_trans) htotal cs
  refine hsorted.imp_of_mem fun {a b} ha hb hle hbeats => ?_
  have hmerit := (merit_eq_lt_iff (hfinite b (List.mem_mergeSort.mp hb))
    (hfinite a (List.mem_mergeSort.mp ha))).mpr hbeats
  rw [OrientedCmp.gt_iff_lt.mpr hmerit] at hle
  cases hle

/-! ### Groups -/

/-- If what holds of a target holds of all in front of it, a list has those it holds of in front, and
the others behind them. -/
theorem takeWhile_eq_filter {p : Ranked → Bool}
    (h : cs.Pairwise fun a b => p b = true → p a = true) :
    cs.takeWhile p = cs.filter p ∧ cs.dropWhile p = cs.filter fun c => !p c := by
  induction cs with
  | nil => exact ⟨rfl, rfl⟩
  | cons c cs ih =>
    obtain ⟨hc, hcs⟩ := List.pairwise_cons.mp h
    cases hp : p c with
    | true =>
      obtain ⟨htake, hdrop⟩ := ih hcs
      rw [List.takeWhile_cons_of_pos hp, List.filter_cons_of_pos hp, List.dropWhile_cons_of_pos hp,
        List.filter_cons_of_neg (by simp [hp]), htake, hdrop]
      exact ⟨rfl, rfl⟩
    | false =>
      have hfirst : ¬ p c = true := Bool.eq_false_iff.mp hp
      have hnone : ∀ x ∈ c :: cs, ¬ p x = true :=
        List.forall_mem_cons.mpr ⟨hfirst, fun x hx hpx => hfirst (hc x hx hpx)⟩
      have hall : ∀ x ∈ c :: cs, (!p x) = true := fun x hx =>
        (Bool.not_eq_true' _).mpr (Bool.eq_false_iff.mpr (hnone x hx))
      rw [List.takeWhile_cons_of_neg hfirst, List.dropWhile_cons_of_neg hfirst,
        List.filter_eq_nil_iff.mpr hnone, List.filter_eq_self.mpr hall]
      exact ⟨rfl, rfl⟩

theorem near_eq_within (hepsilon : epsilon ≠ .nan) (hbest : best.score.IsFinite)
    (hc : c.score.IsFinite) : near epsilon best c = within epsilon best c := by
  rw [near, within, Bool.eq_iff_iff, Bool.not_eq_true',
    Binary.not_less_iff hepsilon (Binary.sub_ne_nan hbest hc)]

/-- Whatever is no lower than a score within the tolerance is within it as well. -/
theorem within_of_le (hbest : best.score.IsFinite) (hx : x.score.IsFinite)
    (hy : y.score.IsFinite) (hle : x.score.units ≤ y.score.units)
    (h : within epsilon best x = true) : within epsilon best y = true :=
  Binary.atMost_trans
    (Binary.sub_atMost_sub (by decide) hbest hy hbest hx (Int.sub_le_sub_left hle _)) h

/-- Whatever is not within the tolerance is lower than what is. -/
theorem units_lt_of_within (hbest : best.score.IsFinite) (hx : x.score.IsFinite)
    (hy : y.score.IsFinite) (hnear : within epsilon best x = true)
    (hfar : ¬ within epsilon best y = true) : y.score.units < x.score.units := by
  by_contra hle
  exact hfar (within_of_le hbest hx hy (not_lt.mp hle) hnear)

/-- Whatever is no higher than a score is within the tolerance of it the other way round. -/
theorem within_of_ge (hepsilon : (Binary.ofNat 0 : Single).atMost epsilon = true)
    (hx : x.score.IsFinite) (hy : y.score.IsFinite) (hle : x.score.units ≤ y.score.units) :
    within epsilon x y = true :=
  Binary.sub_atMost_of_le (by decide) hx hy hle (Binary.ofNat_zero_single ▸ hepsilon)

namespace BestFirst

/-- The order in which the targets are given does not matter. -/
theorem of_perm (h : BestFirst epsilon cs rs) (hp : cs.Perm ds) : BestFirst epsilon ds rs := by
  induction h generalizing ds with
  | nil =>
    cases List.nil_perm.mp hp
    exact .nil
  | group best hbest hhighest htop hordered hrest ih =>
    exact .group best (hp.mem_iff.mp hbest) (fun c hc => hhighest c (hp.mem_iff.mpr hc))
      (htop.trans (hp.filter _)) hordered (ih (hp.filter _))

/-- Nothing is lost, and nothing is added. -/
theorem perm (h : BestFirst epsilon cs rs) : rs.Perm cs := by
  induction h with
  | nil => exact .nil
  | group best hbest hhighest htop hordered hrest ih =>
    exact (htop.append ih).trans (List.filter_append_perm _ _)

theorem mem_top {top : List Ranked} (htop : top.Perm (cs.filter (within epsilon best))) :
    x ∈ top ↔ x ∈ cs ∧ within epsilon best x = true :=
  htop.mem_iff.trans List.mem_filter

theorem mem_rest (hrest : BestFirst epsilon (cs.filter fun c => !within epsilon best c) rs) :
    x ∈ rs ↔ x ∈ cs ∧ ¬ within epsilon best x = true := by
  rw [hrest.perm.mem_iff, List.mem_filter, Bool.not_eq_true', Bool.not_eq_true]

/-- Nothing goes ahead of a target whose score is higher by more than the tolerance. -/
theorem pairwise_within (hfinite : ∀ c ∈ cs, c.score.IsFinite)
    (hepsilon : (Binary.ofNat 0 : Single).atMost epsilon = true) (h : BestFirst epsilon cs rs) :
    rs.Pairwise fun x y => within epsilon y x = true := by
  induction h with
  | nil => exact .nil
  | @group cs top rest best hbest hhighest htop hordered hrest ih =>
    refine List.pairwise_append.mpr ⟨?_, ih fun c hc => hfinite c (List.mem_filter.mp hc).1, ?_⟩
    · refine List.pairwise_of_forall_mem_list fun x hx y hy => ?_
      obtain ⟨hxcs, hxnear⟩ := (mem_top htop).mp hx
      obtain ⟨hycs, -⟩ := (mem_top htop).mp hy
      have hle := ((hfinite y hycs).atMost_iff (hfinite best hbest)).mp (hhighest y hycs)
      exact Binary.atMost_trans (Binary.sub_atMost_sub (by decide) (hfinite y hycs)
        (hfinite x hxcs) (hfinite best hbest) (hfinite x hxcs) (Int.sub_le_sub_right hle _)) hxnear
    · intro x hx y hy
      obtain ⟨hxcs, hxnear⟩ := (mem_top htop).mp hx
      obtain ⟨hycs, hyfar⟩ := (mem_rest hrest).mp hy
      exact within_of_ge hepsilon (hfinite y hycs) (hfinite x hxcs)
        (units_lt_of_within (hfinite best hbest) (hfinite x hxcs) (hfinite y hycs) hxnear hyfar).le

/-- What comes first has a score within the tolerance of the highest one, and no other target with such
a score beats it. -/
theorem head (hfinite : ∀ c ∈ cs, c.score.IsFinite)
    (hepsilon : (Binary.ofNat 0 : Single).atMost epsilon = true) (h : BestFirst epsilon cs rs) :
    ∀ first ∈ rs.head?, ∃ best ∈ cs, (∀ c ∈ cs, c.score.atMost best.score = true) ∧
      within epsilon best first = true ∧
      ∀ c ∈ cs, within epsilon best c = true → ¬ c.Beats first := by
  intro first hfirst
  cases h with
  | nil => cases hfirst
  | @group _ top rest best hbest hhighest htop hordered hrest =>
    refine ⟨best, hbest, hhighest, ?_⟩
    cases top with
    | nil =>
      have hself := within_of_ge hepsilon (hfinite best hbest) (hfinite best hbest) le_rfl
      cases (mem_top htop).mpr ⟨hbest, hself⟩
    | cons c top =>
      cases hfirst
      refine ⟨((mem_top htop).mp List.mem_cons_self).2, fun x hx hnear => ?_⟩
      rcases List.mem_cons.mp ((mem_top htop).mpr ⟨hx, hnear⟩) with rfl | hx
      · exact not_beats_self (hfinite x ‹_›)
      · exact (List.pairwise_cons.mp hordered).1 x hx

end BestFirst

/-! ### Rankings -/

/-- Clusters of targets by falling score, each put in order, are a ranking of the targets. -/
theorem bestFirst_clusters (hfinite : ∀ c ∈ cs, c.score.IsFinite)
    (hepsilon : (Binary.ofNat 0 : Single).atMost epsilon = true)
    (hsorted : cs.Pairwise fun a b => b.score.units ≤ a.score.units) :
    BestFirst epsilon cs
      ((clusters epsilon cs).flatMap (·.mergeSort fun a b => (order a b).isLE)) := by
  induction cs using clusters.induct epsilon with
  | case1 =>
    rw [clusters]
    exact .nil
  | case2 best rest ih =>
    have hnan := (Binary.ne_nan_of_atMost hepsilon).2
    have hbest := hfinite best List.mem_cons_self
    have hrest : ∀ c ∈ rest, c.score.IsFinite := fun c hc => hfinite c (List.mem_cons_of_mem _ hc)
    obtain ⟨hhighest, hfalling⟩ := List.pairwise_cons.mp hsorted
    have hself := within_of_ge hepsilon hbest hbest le_rfl
    have hdown : rest.Pairwise fun a b => near epsilon best b = true → near epsilon best a = true :=
      hfalling.imp_of_mem fun ha hb hle => by
        rw [near_eq_within hnan hbest (hrest _ ha), near_eq_within hnan hbest (hrest _ hb)]
        exact within_of_le hbest (hrest _ hb) (hrest _ ha) hle
    obtain ⟨htakeWhile, hdropWhile⟩ := takeWhile_eq_filter hdown
    have htake : best :: rest.takeWhile (near epsilon best) =
        (best :: rest).filter (within epsilon best) := by
      rw [htakeWhile, List.filter_cons_of_pos hself]
      exact congrArg _ (List.filter_congr fun c hc => near_eq_within hnan hbest (hrest c hc))
    have hdrop : rest.dropWhile (near epsilon best) =
        (best :: rest).filter fun c => !within epsilon best c := by
      rw [hdropWhile, List.filter_cons_of_neg (by simp [hself])]
      exact List.filter_congr fun c hc => by rw [near_eq_within hnan hbest (hrest c hc)]
    rw [clusters, List.flatMap_cons, htake]
    rw [hdrop] at ih ⊢
    refine .group best List.mem_cons_self (fun c hc => ?_) (List.mergeSort_perm _ _)
      (pairwise_mergeSort_order fun c hc => hfinite c (List.mem_filter.mp hc).1)
      (ih (fun c hc => hfinite c (List.mem_filter.mp hc).1) (hsorted.filter _))
    rw [(hfinite c hc).atMost_iff hbest]
    rcases List.mem_cons.mp hc with rfl | hc
    · exact le_rfl
    · exact hhighest c hc

theorem bestFirst_rank (hfinite : ∀ c ∈ cs, c.score.IsFinite)
    (hepsilon : (Binary.ofNat 0 : Single).atMost epsilon = true) :
    BestFirst epsilon cs (rank cs epsilon) :=
  have hperm := List.mergeSort_perm cs fun a b => !a.score.less b.score
  (bestFirst_clusters (fun c hc => hfinite c (hperm.mem_iff.mp hc)) hepsilon
    (pairwise_byScore hfinite)).of_perm hperm

/-- A ranking of targets with finite scores has each of them once.  None goes ahead of one whose score is
higher by more than the tolerance.  Of all whose score is within the tolerance of the highest one, the
first is beaten by none, and the others of these come next; what follows is a ranking of the rest. -/
theorem rank_best_first (hfinite : ∀ c ∈ cs, c.score.IsFinite)
    (hepsilon : (Binary.ofNat 0 : Single).atMost epsilon = true) :
    (rank cs epsilon).Perm cs ∧
    ((rank cs epsilon).Pairwise fun x y => (y.score.sub x.score).atMost epsilon = true) ∧
    (∀ first ∈ (rank cs epsilon).head?, ∃ best ∈ cs,
      (∀ c ∈ cs, c.score.atMost best.score = true) ∧ within epsilon best first = true ∧
        ∀ c ∈ cs, within epsilon best c = true → ¬ c.Beats first) ∧
    BestFirst epsilon cs (rank cs epsilon) :=
  have h := bestFirst_rank hfinite hepsilon
  ⟨h.perm, h.pairwise_within hfinite hepsilon, h.head hfinite hepsilon, h⟩

/-- A target of the samples, with a score in thousandths. -/
def sampleTarget (name : String) (thousandths overlap : Nat) : Ranked where
  table := ⟨⟨"stg", by decide⟩, "", "s", name⟩
  score := Binary.ofRatio thousandths 1000
  overlap := overlap
  sameObject := false
  preferred := false

/-- Two targets within two hundredths of the highest score, and one that is not. -/
def sampleTargets : List Ranked :=
  [sampleTarget "a" 1000 1, sampleTarget "b" 985 4, sampleTarget "c" 975 4]

/-- Two hundredths. -/
def sampleTolerance : Single :=
  Binary.ofRatio 2 100

theorem finite_sampleTargets : ∀ c ∈ sampleTargets, c.score.IsFinite := by
  decide +kernel

theorem rank_best_first_sample :
    (∀ c ∈ sampleTargets, c.score.IsFinite) ∧
    (Binary.ofNat 0 : Single).atMost sampleTolerance = true ∧
    (rank sampleTargets sampleTolerance).Perm sampleTargets ∧
    BestFirst sampleTolerance sampleTargets (rank sampleTargets sampleTolerance) := by
  have hepsilon : (Binary.ofNat 0 : Single).atMost sampleTolerance = true := by decide +kernel
  obtain ⟨hperm, -, -, hbest⟩ := rank_best_first finite_sampleTargets hepsilon
  exact ⟨finite_sampleTargets, hepsilon, hperm, hbest⟩

end TierLineage.Ranked
