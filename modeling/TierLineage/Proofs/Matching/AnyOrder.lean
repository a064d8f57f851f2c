import Mathlib.Data.List.Nodup
import TierLineage.Proofs.Mapping.Rankings
import TierLineage.Proofs.Matching.BestFirst
import TierLineage.Proofs.Number.UnitInterval

/-!
# Rankings of targets in any order

The description of a ranking does not mention the order in which targets are given, and where no two of
them draw it leaves no choice: the best score is one and the same, so the targets within the tolerance of
it are the same ones, in a list that is in order and therefore determined, and then come the others, in
the same way.  Targets of different tables never draw.  Those that are scored for a source table draw only
if they are equal, as the sign of a score above zero is known.
-/

namespace TierLineage

open TierLineage.Number TierLineage.Matching

/-! ### Rankings -/

namespace Ranked

variable {epsilon : Single} {cs ds rs ss : List Ranked} {a b best best' c : Ranked}

/-- Whether neither of two targets goes ahead of the other one only where they are equal. -/
def Strict (cs : List Ranked) : Prop :=
  ∀ a ∈ cs, ∀ b ∈ cs, ¬ a.Beats b → ¬ b.Beats a → a = b

theorem Strict.of_subset (h : Strict cs) (hsub : ds ⊆ cs) : Strict ds :=
  fun a ha b hb => h a (hsub ha) b (hsub hb)

/-- Targets of different tables never draw. -/
theorem strict_of_nodup (hfinite : ∀ c ∈ cs, c.score.IsFinite) (h : (cs.map table).Nodup) :
    Strict cs := by
  intro a ha b hb hab hba
  rcases beats_or_beats (hfinite a ha) (hfinite b hb) with h' | h' | ⟨-, -, htable⟩
  · exact absurd h' hab
  · exact absurd h' hba
  · exact List.inj_on_of_nodup_map h ha hb htable

/-- What is within the tolerance depends on the units of the highest score only. -/
theorem within_congr (hbest : best.score.IsFinite) (hbest' : best'.score.IsFinite)
    (hc : c.score.IsFinite) (h : best.score.units = best'.score.units) :
    within epsilon best c = within epsilon best' c := by
  have hle : ∀ {x y : Ranked}, x.score.IsFinite → y.score.IsFinite →
      x.score.units = y.score.units → within epsilon y c = true → within epsilon x c = true :=
    fun hx hy heq hwithin => Binary.atMost_trans (Binary.sub_atMost_sub (by decide) hx hc hy hc
      (Int.sub_le_sub_right heq.le _)) hwithin
  rw [Bool.eq_iff_iff]
  exact ⟨hle hbest' hbest h.symm, hle hbest hbest' h⟩

/-- The highest scores of the same targets have the same units. -/
theorem units_eq_of_highest (hfinite : ∀ c ∈ cs, c.score.IsFinite) (hbest : best ∈ cs)
    (hbest' : best' ∈ cs) (hhighest : ∀ c ∈ cs, c.score.atMost best.score = true)
    (hhighest' : ∀ c ∈ cs, c.score.atMost best'.score = true) :
    best.score.units = best'.score.units :=
  le_antisymm
    (((hfinite best hbest).atMost_iff (hfinite best' hbest')).mp (hhighest' best hbest))
    (((hfinite best' hbest').atMost_iff (hfinite best hbest)).mp (hhighest best' hbest'))

/-- Targets of which no two draw have one ranking only. -/
theorem BestFirst.unique (hfinite : ∀ c ∈ cs, c.score.IsFinite) (hstrict : Strict cs)
    (hr : BestFirst epsilon cs rs) (hs : BestFirst epsilon cs ss) : rs = ss := by
  induction hr generalizing ss with
  | nil => exact (List.perm_nil.mp hs.perm).symm
  | @group cs top rest best hbest hhighest htop hordered hrest ih =>
    cases hs with
    | nil => cases hbest
    | @group _ top' rest' best' hbest' hhighest' htop' hordered' hrest' =>
      have hwithin : ∀ c ∈ cs, within epsilon best' c = within epsilon best c := fun c hc =>
        within_congr (hfinite best' hbest') (hfinite best hbest) (hfinite c hc)
          (units_eq_of_highest hfinite hbest' hbest hhighest' hhighest)
      rw [List.filter_congr hwithin] at htop'
      rw [List.filter_congr fun c hc => congrArg (!·) (hwithin c hc)] at hrest'
      have hsub : (cs.filter fun c => !within epsilon best c) ⊆ cs := List.filter_subset_self _
      have htops : top = top' :=
        List.Perm.eq_of_pairwise
          (fun a b ha hb hab hba => hstrict a ((mem_top htop).mp ha).1 b ((mem_top htop').mp hb).1
            hba hab) hordered hordered' (htop.trans htop'.symm)
      rw [htops, ih (fun c hc => hfinite c (hsub hc)) (hstrict.of_subset hsub) hrest']

/-- Targets of which no two draw are ranked alike in whatever order they are given. -/
theorem rank_perm (hfinite : ∀ c ∈ cs, c.score.IsFinite) (hstrict : Strict cs)
    (hepsilon : (Binary.ofNat 0 : Single).atMost epsilon = true) (h : cs.Perm ds) :
    rank cs epsilon = rank ds epsilon :=
  have hfinite' : ∀ c ∈ ds, c.score.IsFinite := fun c hc => hfinite c (h.mem_iff.mpr hc)
  (bestFirst_rank hfinite hepsilon).unique hfinite hstrict
    ((bestFirst_rank hfinite' hepsilon).of_perm h.symm)

end Ranked

/-! ### Proposals -/

namespace Proposal

variable {e : Engine} {r : Registry} {hop : Hop} {targets targets' : List Listed} {source : Listed}
  {v : Convention} {c : Ranked}

/-- What is scored for a source table has a finite score without a sign. -/
theorem exists_units_of_scored {target : Listed} (h : scored? e v source target = some c) :
    ∃ u, c.score = .finite false u := by
  have hunit := Binary.inUnit_clamp (ne_nan_of_scored h)
  rw [clamp_score_of_scored h] at hunit
  rcases Binary.inUnit_iff.mp hunit with hzero | ⟨u, -, hu⟩
  · have habove := (zero_less_of_scored h).1
    rw [hzero] at habove
    exact absurd habove (by decide +kernel)
  · exact ⟨u, hu⟩

/-- Targets that are scored for a source table draw only if they are equal. -/
theorem strict_scored (e : Engine) (v : Convention) (source : Listed) (targets : List Listed) :
    (∀ c ∈ targets.filterMap (scored? e v source), c.score.IsFinite) ∧
      Ranked.Strict (targets.filterMap (scored? e v source)) := by
  have hunits : ∀ c ∈ targets.filterMap (scored? e v source), ∃ u, c.score = .finite false u := by
    intro c hc
    obtain ⟨x, -, hx⟩ := List.mem_filterMap.mp hc
    exact exists_units_of_scored hx
  have hfinite : ∀ c ∈ targets.filterMap (scored? e v source), c.score.IsFinite := by
    intro c hc
    obtain ⟨u, hu⟩ := hunits c hc
    rw [hu]
    trivial
  refine ⟨hfinite, fun a ha b hb hab hba => ?_⟩
  rcases Ranked.beats_or_beats (hfinite a ha) (hfinite b hb) with h | h | ⟨halike, hscore, htable⟩
  · exact absurd h hab
  · exact absurd h hba
  · obtain ⟨u, hu⟩ := hunits a ha
    obtain ⟨u', hu'⟩ := hunits b hb
    obtain ⟨ta, sa, oa, sameA, prefA⟩ := a
    obtain ⟨tb, sb, ob, sameB, prefB⟩ := b
    simp only [Ranked.alike, Bool.and_eq_true, beq_iff_eq] at halike
    obtain ⟨⟨rfl, rfl⟩, rfl⟩ := halike
    cases hu
    cases hu'
    cases htable
    simp only [Binary.units, Binary.signed, Bool.false_eq_true, if_false, Int.natCast_inj] at hscore
    rw [hscore]

/-- A source table has one ranking, in whatever order its targets are listed. -/
theorem ranking_perm (hepsilon : (Binary.ofNat 0 : Single).atMost e.tieEpsilon = true)
    (h : targets.Perm targets') :
    ranking e r hop targets source = ranking e r hop targets' source :=
  have hstrict := strict_scored e (convention r hop source.table) source targets
  Ranked.rank_perm hstrict.1 hstrict.2 hepsilon (h.filterMap _)

end Proposal

end TierLineage
