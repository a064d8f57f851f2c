import Mathlib.Algebra.Order.BigOperators.Group.List
import Mathlib.Algebra.Order.Group.Nat
import TierLineage.Proofs.Catalog.Placed

/-!
# Procedures that catalogs list

A catalog that was built by its own operations holds every procedure under the procedure's own
connection and name.  So a connection lists its procedures in the order of their names, no name
twice, and what it lists is what it tells of a procedure that is asked for by itself.
-/

namespace TierLineage.Catalog

open Std TierLineage.Text

variable {c : Catalog} {a : Alias} {schema : Option String} {ps : List Procedure}

theorem holdings_eq_ok {k : Holdings} : c.holdings a = .ok k ↔ c.connections[a]? = some k := by
  rw [holdings]
  cases c.connections[a]? <;> simp

/-- Whether a connection holds every procedure under the procedure's own name. -/
def FiledAt (a : Alias) (h : Holdings) : Prop :=
  ∀ (name : String) (p : Procedure), h.procedures[name]? = some p → p.identity = ⟨a, name⟩

/-- Whether every procedure is held under its own connection and name. -/
def Filed (c : Catalog) : Prop :=
  ∀ a h, c.connections[a]? = some h → FiledAt a h

theorem filedAt_empty (a : Alias) : FiledAt a .empty := fun _ _ h => by
  simp [Holdings.empty] at h

/-- A change of one connection keeps procedures in their places, if it keeps them there. -/
theorem Filed.modify (hc : c.Filed) {f : Holdings → Holdings}
    (hf : ∀ h, FiledAt a h → FiledAt a (f h)) : (c.modify a f).Filed := by
  intro b h hb
  rw [Catalog.modify, getElem?_insert_eq] at hb
  split at hb
  · next hba =>
    subst hba
    cases hb
    refine hf _ ?_
    cases hheld : c.connections[b]? with
    | none => exact filedAt_empty b
    | some k => exact hc b k hheld
  · exact hc b h hb

theorem Static.filed (h : c.Static) : c.Filed := by
  induction h with
  | empty => exact fun _ _ h => by cases h
  | addConnection _ a ih => exact ih.modify fun _ h => h
  | insertTable _ t columns ih => exact ih.modify fun _ h => h
  | insertProcedure _ p ih =>
    refine ih.modify fun h hh name q hq => ?_
    rw [getElem?_insert_eq] at hq
    split at hq
    · next heq =>
      cases hq
      rw [heq]
    · exact hh name q hq
  | removeProcedure _ p ih =>
    rw [Catalog.removeProcedure]
    split
    · refine ih.modify fun h hh name q hq => ?_
      rw [getElem?_erase_eq] at hq
      split at hq
      · cases hq
      · exact hh name q hq
    · exact ih

/-- What is told of a procedure is of this procedure. -/
theorem Filed.identity_eq (hc : c.Filed) {i : ProcedureId} {p : Procedure}
    (h : c.procedure i = .ok p) : p.identity = i := by
  obtain ⟨k, hk, h⟩ := bind_eq_ok.mp h
  split at h
  · next hp =>
    cases h
    exact hc _ _ (holdings_eq_ok.mp hk) _ _ hp
  · cases h

/-- A connection lists its procedures in the order of their names: those that it tells of when it is
asked for them one by one, if they are in the schema. -/
theorem Filed.procedures (hc : c.Filed) (h : c.procedures a schema = .ok ps) :
    ps.Pairwise (fun p q => compare p.identity.name q.identity.name = .lt) ∧
      ∀ p, p ∈ ps ↔ c.procedure ⟨a, p.identity.name⟩ = .ok p ∧
        (schema.all fun s => sameStringIgnoringCase p.schema s) = true := by
  obtain ⟨k, hk, h⟩ := bind_eq_ok.mp h
  cases h
  have hheld := holdings_eq_ok.mp hk
  have hname : ∀ e ∈ k.procedures.toList, e.2.identity.name = e.1 := fun e he => by
    rw [hc a k hheld e.1 e.2 (TreeMap.mem_toList_iff_getElem?_eq_some.mp he)]
  constructor
  · rw [values_eq]
    refine List.Pairwise.filter _ (List.pairwise_map.mpr ?_)
    refine k.procedures.ordered_keys_toList.imp_of_mem fun {d e} hd he hlt => ?_
    rw [hname d hd, hname e he]
    exact hlt
  · intro p
    have hone : c.procedure ⟨a, p.identity.name⟩ = .ok p ↔
        k.procedures[p.identity.name]? = some p := by
      simp only [procedure, holdings_eq_ok.mpr hheld, bind, Except.bind]
      cases k.procedures[p.identity.name]? <;> simp [pure, Except.pure, throw, throwThe,
        MonadExceptOf.throw]
    rw [hone, List.mem_filter, values_eq]
    refine and_congr_left fun _ => ?_
    constructor
    · intro hp
      obtain ⟨e, he, rfl⟩ := List.mem_map.mp hp
      rw [hname e he]
      exact TreeMap.mem_toList_iff_getElem?_eq_some.mp he
    · exact fun hp => List.mem_map.mpr
        ⟨(p.identity.name, p), TreeMap.mem_toList_iff_getElem?_eq_some.mpr hp, rfl⟩

/-- No procedure is listed twice. -/
theorem nodup_identity (h : ps.Pairwise fun p q => compare p.identity.name q.identity.name = .lt) :
    (ps.map (·.identity)).Nodup := by
  refine List.pairwise_map.mpr (h.imp fun {p q} hlt heq => ?_)
  rw [heq] at hlt
  exact OrientedCmp.not_lt_of_lt hlt hlt

/-- A connection lists no more procedures than there are. -/
theorem length_procedures_le (h : c.procedures a schema = .ok ps) :
    ps.length ≤ c.connections.values.foldl (fun n h => n + h.procedures.size) 0 := by
  obtain ⟨k, hk, h⟩ := bind_eq_ok.mp h
  cases h
  have hmem : k ∈ c.connections.values := by
    rw [values_eq]
    exact List.mem_map.mpr
      ⟨(a, k), TreeMap.mem_toList_iff_getElem?_eq_some.mpr (holdings_eq_ok.mp hk), rfl⟩
  have hsize : k.procedures.values.length = k.procedures.size := by
    rw [values_eq, List.length_map, TreeMap.length_toList]
  have hsum : c.connections.values.foldl (fun n h => n + h.procedures.size) 0 =
      (c.connections.values.map (·.procedures.size)).sum := by
    rw [List.sum_eq_foldl, List.foldl_map]
  rw [hsum]
  calc _ ≤ k.procedures.values.length := List.length_filter_le ..
    _ = k.procedures.size := hsize
    _ ≤ _ := List.single_le_sum (fun _ _ => Nat.zero_le _) _ (List.mem_map.mpr ⟨k, hmem, rfl⟩)

end TierLineage.Catalog
