import TierLineage.Mapping.Proposal

/-!
# What is proposed

Ranking and selecting only put targets in order and leave some out.  So a proposal is for the hop
that was asked for, from one of its source tables to one of its targets.
-/

namespace TierLineage

/-! ### Rankings -/

namespace Ranked

variable {epsilon : Number.Single} {cs : List Ranked} {c : Ranked}

/-- Cutting a list into clusters adds nothing. -/
theorem mem_of_mem_clusters {k : List Ranked} (hk : k ∈ clusters epsilon cs) (hc : c ∈ k) :
    c ∈ cs := by
  induction cs using clusters.induct epsilon with
  | case1 =>
    rw [clusters] at hk
    cases hk
  | case2 best rest ih =>
    rw [clusters] at hk
    rcases List.mem_cons.mp hk with rfl | hk
    · exact (List.cons_subset_cons best (List.takeWhile_sublist _).subset) hc
    · exact List.mem_cons_of_mem best ((List.dropWhile_sublist _).subset (ih hk))

theorem mem_of_mem_rank (h : c ∈ rank cs epsilon) : c ∈ cs := by
  obtain ⟨k, hk, hc⟩ := List.mem_flatMap.mp h
  exact List.mem_mergeSort.mp (mem_of_mem_clusters hk (List.mem_mergeSort.mp hc))

theorem mem_of_mem_selectTop {count : Nat} (h : c ∈ selectTop cs count epsilon) : c ∈ cs := by
  rw [selectTop] at h
  split at h
  · cases h
  · rcases List.mem_append.mp h with h | h
    · exact List.mem_of_mem_take h
    · exact List.mem_of_mem_drop ((List.takeWhile_sublist _).subset h)

end Ranked

/-! ### Proposals -/

namespace Proposal

variable {e : Engine} {r : Registry} {hop : Hop} {c : Mapping}

theorem exists_mem_of_mem_ranking {targets : List Listed} {source : Listed} {k : Ranked}
    (h : k ∈ ranking e r hop targets source) : ∃ x ∈ targets, x.table = k.table := by
  obtain ⟨x, hx, hk⟩ := List.mem_filterMap.mp (Ranked.mem_of_mem_rank h)
  rw [scored?] at hk
  split at hk
  · cases hk
    exact ⟨x, hx, rfl⟩
  · cases hk

/-- A candidate for a source table leads to one of the targets. -/
theorem mem_candidates {targets : List Listed} {source : Listed} {supply : Supply}
    (h : c ∈ candidates e hop source.table (ranking e r hop targets source) supply) :
    c.hop = hop ∧ c.source = source.table ∧ ∃ x ∈ targets, x.table = c.target := by
  obtain ⟨i, hi, rfl⟩ := List.mem_mapIdx.mp h
  exact ⟨rfl, rfl, exists_mem_of_mem_ranking (Ranked.mem_of_mem_selectTop (List.getElem_mem hi))⟩

/-- A proposal leads from a source table to one of the targets. -/
theorem mem_propose {s : Sides} {supply : Supply} (h : c ∈ (propose e r hop s supply).1) :
    c.hop = hop ∧ (∃ x ∈ s.sources, x.table = c.source) ∧ ∃ x ∈ s.targets, x.table = c.target := by
  obtain ⟨sources, targets⟩ := s
  have hfold : ∀ ms : List Mapping, c ∈ (sources.foldl
      (fun (p : List Mapping × Supply) source =>
        let new := candidates e hop source.table (ranking e r hop targets source) p.2
        (p.1 ++ new, p.2.advance new.length)) (ms, supply)).1 →
      c ∈ ms ∨ c.hop = hop ∧ (∃ x ∈ sources, x.table = c.source) ∧
        ∃ x ∈ targets, x.table = c.target := by
    clear h
    -- every source table adds candidates of its own to those before it
    induction sources generalizing supply with
    | nil => exact fun ms hc => .inl hc
    | cons x xs ih =>
      intro ms hc
      rcases ih _ hc with hc | ⟨hhop, ⟨y, hy, hsource⟩, htarget⟩
      · rcases List.mem_append.mp hc with hc | hc
        · exact .inl hc
        · obtain ⟨hhop, hsource, htarget⟩ := mem_candidates hc
          exact .inr ⟨hhop, ⟨x, List.mem_cons_self .., hsource.symm⟩, htarget⟩
      · exact .inr ⟨hhop, ⟨y, List.mem_cons_of_mem x hy, hsource⟩, htarget⟩
  exact (hfold [] h).resolve_left List.not_mem_nil

end Proposal

end TierLineage
