import TierLineage.Mapping.Proposal
import TierLineage.Proofs.Number.Difference
import TierLineage.Proofs.Store.Listing

/-!
# Mappings up to their marks

Every new mapping is marked with an identifier and a moment.  Mappings that differ in their marks
only have the same content, so confirming the second in place of the first is no news.  Slots that
hold such mappings are alike, and so are the listings of shelves with slots that are alike.
-/

namespace TierLineage

open TierLineage.Number

/-! ### Confidences -/

/-- What is a number lies between zero and one when it is moved there. -/
theorem Number.Binary.exists_clamp_eq {x : Single} (hx : x ≠ .nan) :
    ∃ negative units, x.clamp (Binary.ofNat 0) (Binary.ofNat 1) = .finite negative units := by
  have hone : (Binary.ofNat 1 : Single) = .finite false (Nat.pow 2 single.scale) := by
    decide +kernel
  rw [Binary.clamp, ofNat_zero_single, hone]
  cases x with
  | nan => exact absurd rfl hx
  | finite s u => split <;> [skip; split] <;> exact ⟨_, _, rfl⟩
  | infinite s => cases s <;> exact ⟨_, _, rfl⟩

/-- A finite number is as close to itself as confidences have to be. -/
theorem Number.Binary.sub_self_less (negative : Bool) (units : Nat) :
    ((Binary.finite negative units : Single).sub (.finite negative units)).abs.less
      contentTolerance = true := by
  have hzero : signed negative units + signed (!negative) units = 0 := by
    cases negative with
    | false => exact Int.add_right_neg _
    | true => exact Int.add_left_neg _
  have hsub : (Binary.finite negative units : Single).sub (.finite negative units) =
      .finite (negative && !negative) 0 := by
    rw [sub, negate, add]
    simp only [hzero, if_true]
  rw [hsub, Bool.and_not_self]
  decide +kernel

/-! ### Mappings -/

namespace Mapping

variable {m n p : Mapping}

/-- A mapping without its marks. -/
def unmarked (m : Mapping) : Mapping :=
  { m with identifier := ⟨0⟩, createdAt := ⟨0, 0⟩ }

/-- Whether two mappings have the same content is a matter of the mappings without their marks. -/
theorem sameContent_unmarked (p m : Mapping) : p.unmarked.sameContent m.unmarked = p.sameContent m :=
  rfl

/-- A mapping has the content of any other that differs from it in marks only. -/
theorem sameContent_of_unmarked (h : m.unmarked = n.unmarked) {negative : Bool} {units : Nat}
    (hm : m.confidence = .finite negative units) : m.sameContent n = true := by
  have hself : m.sameContent m = true := by
    rw [sameContent, hm, Binary.sub_self_less]
    simp
  rw [← sameContent_unmarked, ← h, sameContent_unmarked, hself]

theorem successor_unmarked (p m : Mapping) : (Slot.successor p m).unmarked = m.unmarked := by
  rw [Slot.successor]
  split <;> rfl

end Mapping

/-- Whether a mapping brings news is a matter of the mappings without their marks. -/
theorem Slot.refreshes_congr {p m n : Mapping} (h : m.unmarked = n.unmarked) :
    refreshes p m = refreshes p n := by
  have hunmarked : ∀ q : Mapping, refreshes p.unmarked q.unmarked = refreshes p q := fun _ => rfl
  rw [← hunmarked, h, hunmarked]

/-- A mapping brings no news for one that differs from it in marks only. -/
theorem Slot.refreshes_eq_false {p m : Mapping} (h : p.unmarked = m.unmarked) {negative : Bool}
    {units : Nat} (hp : p.confidence = .finite negative units) : refreshes p m = false := by
  rw [refreshes, Mapping.sameContent_of_unmarked h hp, Bool.not_true, Bool.and_false]

/-- Candidates that are proposed again differ from the earlier ones in marks only. -/
theorem Proposal.candidates_unmarked (e : Engine) (hop : Hop) (source : Table)
    (ranking : List Ranked) (supply supply' : Supply) :
    (candidates e hop source ranking supply).map Mapping.unmarked =
      (candidates e hop source ranking supply').map Mapping.unmarked := by
  simp only [candidates, List.mapIdx_eq_zipIdx_map, List.map_map]
  rfl

/-! ### Slots and shelves -/

/-- Whether two slots hold one decision, and candidates that differ in marks only. -/
structure Slot.Alike (v w : Slot) : Prop where
  confirmed_eq : v.confirmed = w.confirmed
  candidates_eq : v.candidates.map Mapping.unmarked = w.candidates.map Mapping.unmarked

namespace Slot

theorem alike_refl (v : Slot) : v.Alike v := ⟨rfl, rfl⟩

theorem record_snd_of_none {v : Slot} (hv : v.confirmed.isSome = false) (ms : List Mapping) :
    (v.record ms).2 = ⟨v.confirmed, ms.map asCandidate⟩ := by
  rw [record, if_neg (by simp [hv])]

theorem Alike.symm {v w : Slot} (h : v.Alike w) : w.Alike v :=
  ⟨h.confirmed_eq.symm, h.candidates_eq.symm⟩

theorem Alike.isEmpty_eq {v w : Slot} (h : v.Alike w) : v.isEmpty = w.isEmpty := by
  have hlength := congrArg List.length h.candidates_eq
  rw [List.length_map, List.length_map] at hlength
  rw [isEmpty, isEmpty, h.confirmed_eq, Bool.eq_iff_iff, Bool.and_eq_true, Bool.and_eq_true,
    List.isEmpty_iff_length_eq_zero, List.isEmpty_iff_length_eq_zero, hlength]

end Slot

namespace Shelf

variable {s s' : Shelf} {hop : Hop}

/-- Slots in which nothing is known make no difference to what is confirmed. -/
theorem confirmed_eq_known (s : Shelf) (hop : Hop) :
    s.confirmed hop = (s.known hop).filterMap (·.2.confirmed) := by
  have hknown := congrArg (List.filterMap Slot.confirmed) (s.filter_slotsOf hop)
  rw [List.filterMap_filter, List.filterMap_map] at hknown
  refine Eq.trans ?_ hknown
  rw [confirmed]
  congr 1
  funext v
  cases hv : v.isEmpty with
  | false => rfl
  | true =>
    rw [Slot.isEmpty_iff.mp hv]
    rfl

theorem candidates_eq_known (s : Shelf) (hop : Hop) :
    s.candidates hop = (s.known hop).flatMap (·.2.candidates) := by
  have hknown := congrArg (List.flatMap Slot.candidates) (s.filter_slotsOf hop)
  rw [List.flatMap_map] at hknown
  refine Eq.trans ?_ hknown
  rw [candidates]
  induction s.slotsOf hop with
  | nil => rfl
  | cons v vs ih =>
    cases hv : v.isEmpty with
    | false => rw [List.filter_cons_of_pos (by simp [hv]), List.flatMap_cons, List.flatMap_cons, ih]
    | true =>
      rw [List.filter_cons_of_neg (by simp [hv]), List.flatMap_cons, ih, Slot.isEmpty_iff.mp hv]
      rfl

/-- Shelves whose slots are alike know the same keys, and slots under them that are alike. -/
theorem known_alike (h : ∀ k, (s.slot k).Alike (s'.slot k)) (hop : Hop) :
    s'.known hop = (s.known hop).map fun e => (e.1, s'.slot e.1) := by
  refine eq_of_sorted (s'.known_sorted hop) (List.pairwise_map.mpr (s.known_sorted hop)) ?_
  rintro ⟨k, v⟩
  rw [mem_known, List.mem_map]
  constructor
  · rintro ⟨rfl, hhop, hv⟩
    exact ⟨(k, s.slot k), mem_known.mpr ⟨rfl, hhop, (h k).isEmpty_eq.trans hv⟩, rfl⟩
  · rintro ⟨⟨j, w⟩, hj, heq⟩
    obtain ⟨rfl, hhop, hw⟩ := mem_known.mp hj
    cases heq
    exact ⟨rfl, hhop, (h j).isEmpty_eq.symm.trans hw⟩

/-- Shelves whose slots are alike list one and the same decisions, and candidates that differ in
marks only. -/
theorem listings_alike (h : ∀ k, (s.slot k).Alike (s'.slot k)) (hop : Hop) :
    s.confirmed hop = s'.confirmed hop ∧
      (s.candidates hop).map Mapping.unmarked = (s'.candidates hop).map Mapping.unmarked := by
  have hslot : ∀ e ∈ s.known hop, e.2 = s.slot e.1 := fun e he => (mem_known.mp he).1.symm
  rw [s.confirmed_eq_known, s'.confirmed_eq_known, s.candidates_eq_known, s'.candidates_eq_known,
    known_alike h, List.filterMap_map, List.flatMap_map, List.map_flatMap, List.map_flatMap]
  constructor
  · refine List.filterMap_congr fun e he => ?_
    rw [hslot e he]
    exact (h e.1).confirmed_eq
  · refine List.flatMap_congr fun e he => ?_
    rw [hslot e he]
    exact (h e.1).candidates_eq

end Shelf

end TierLineage
