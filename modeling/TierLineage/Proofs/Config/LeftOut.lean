import TierLineage.Proofs.Catalog.Placed

/-!
# Connections left out

The connections that are left when some are not registered.  They form a registry as well, which
knows the others under their aliases as before, and lists the aliases of a tier in the same order
without those that were left out.
-/

namespace TierLineage.Registry

open Std

/-- The aliases of a tier are listed in their order. -/
theorem sorted_aliasesOf {r : Registry} (hr : r.Named) (tier : Tier) :
    (r.aliasesOf tier).Pairwise (compare · · = .lt) := by
  rw [aliasesOf, toList, values_eq]
  refine List.pairwise_map.mpr (List.Pairwise.filter _ (List.pairwise_map.mpr ?_))
  refine r.connections.ordered_keys_toList.imp_of_mem fun {d e} hd he hlt => ?_
  have hname : ∀ f ∈ r.connections.toList, f.2.name.name = f.1 := fun f hf =>
    hr f.1 f.2 (TreeMap.mem_toList_iff_getElem?_eq_some.mp hf)
  rw [← hname d hd, ← hname e he] at hlt
  exact hlt

/-- Aliases in order are determined by what is among them. -/
theorem eq_of_sorted_aliases {as bs : List Alias} (ha : as.Pairwise (compare · · = .lt))
    (hb : bs.Pairwise (compare · · = .lt)) (h : ∀ a, a ∈ as ↔ a ∈ bs) : as = bs := by
  have hnodup : ∀ {cs : List Alias}, cs.Pairwise (compare · · = .lt) → cs.Nodup := by
    refine fun hc => hc.imp fun {a b} hlt heq => ?_
    rw [heq] at hlt
    exact OrientedCmp.not_lt_of_lt hlt hlt
  refine List.Perm.eq_of_pairwise (fun a b _ _ hlt hgt => ?_) ha hb
    ((List.perm_ext_iff_of_nodup (hnodup ha) (hnodup hb)).mpr h)
  exact absurd hgt (OrientedCmp.not_lt_of_lt hlt)

/-- What is registered under an alias has it. -/
theorem Named.name_eq {r : Registry} (hr : r.Named) {a : Alias} {c : Connection}
    (h : r.connections[a.name]? = some c) : c.name = a := by
  obtain ⟨⟨name', _⟩, _, _, _, _, _⟩ := c
  obtain ⟨name, _⟩ := a
  obtain rfl : name' = name := hr _ _ h
  rfl

/-- Whether a registry has the connections of another one that are not left out. -/
def Leaves (r : Registry) (out : Alias → Bool) (r' : Registry) : Prop :=
  ∀ name : String, r'.connections[name]? = (r.connections[name]?).filter fun c : Connection => !out c.name

variable {r r' : Registry} {out : Alias → Bool} {cs : List Connection}

theorem leaves_foldlM (h : cs.foldlM add r = .ok r') {s : Registry} (hs : r.Leaves out s) :
    ∃ s', (cs.filter fun c => !out c.name).foldlM add s = .ok s' ∧ r'.Leaves out s' := by
  induction cs generalizing r s with
  | nil =>
    cases h
    exact ⟨s, rfl, hs⟩
  | cons c cs ih =>
    rw [List.foldlM_cons, bind_eq_ok] at h
    obtain ⟨r₁, hadd, h⟩ := h
    rw [add] at hadd
    split at hadd
    · cases hadd
    · next hnew =>
      cases hadd
      have hnone : r.connections[c.name.name]? = none := by
        rw [TreeMap.contains_eq_isSome_getElem?] at hnew
        exact Option.not_isSome_iff_eq_none.mp hnew
      cases hc : out c.name with
      | true =>
        rw [List.filter_cons_of_neg (by simp [hc])]
        refine ih h fun name => ?_
        rw [hs name, getElem?_insert_eq]
        split
        · next heq => rw [heq, hnone, Option.filter_none, Option.filter_some, hc]; rfl
        · rfl
      | false =>
        have hfresh : ¬ s.connections.contains c.name.name = true := by
          rw [TreeMap.contains_eq_isSome_getElem?, hs, hnone]
          exact Bool.false_ne_true
        rw [List.filter_cons_of_pos (by simp [hc]), List.foldlM_cons, add, if_neg hfresh]
        refine ih h fun name => ?_
        rw [getElem?_insert_eq, getElem?_insert_eq]
        split
        · rw [Option.filter_some, hc]; rfl
        · exact hs name

/-- Connections of which some are left out can be registered if all of them can. -/
theorem exists_leaves (h : ofList cs = .ok r) :
    ∃ r', ofList (cs.filter fun c => !out c.name) = .ok r' ∧ r.Leaves out r' :=
  leaves_foldlM h fun _ => rfl

/-- A connection that is not left out is found under its alias as before. -/
theorem Leaves.resolve_eq (h : r.Leaves out r') (hr : r.Named) {a : Alias} (ha : out a = false) :
    r'.resolve a.name = r.resolve a.name := by
  rw [resolve, resolve, h]
  cases hc : r.connections[a.name]? with
  | none => rfl
  | some c =>
    rw [Option.filter_some, hr.name_eq hc, ha]
    rfl

/-- A connection that is left out is not found. -/
theorem Leaves.resolve_ne (h : r.Leaves out r') (hr : r.Named) {a : Alias} (ha : out a = true)
    (c : Connection) : r'.resolve a.name ≠ .ok c := by
  rw [resolve, h]
  cases hk : r.connections[a.name]? with
  | none => rintro ⟨⟩
  | some k =>
    rw [Option.filter_some, hr.name_eq hk, ha]
    rintro ⟨⟩

/-- The aliases of a tier are listed as before, without those that are left out. -/
theorem Leaves.aliasesOf_eq (h : r.Leaves out r') (hr : r.Named) (hr' : r'.Named) (tier : Tier) :
    r'.aliasesOf tier = (r.aliasesOf tier).filter fun a => !out a := by
  refine eq_of_sorted_aliases (sorted_aliasesOf hr' tier) ((sorted_aliasesOf hr tier).filter _)
    fun a => ?_
  rw [mem_aliasesOf hr', List.mem_filter, mem_aliasesOf hr]
  cases ha : out a with
  | false => rw [h.resolve_eq hr ha]; simp
  | true => simp [h.resolve_ne hr ha]

end TierLineage.Registry
