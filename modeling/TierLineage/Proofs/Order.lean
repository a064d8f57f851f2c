import TierLineage.Store.Shelf

/-!
# Lawful orders of keys

What slots, records and calls are kept under is ordered by comparing one part after the other.
These orders are transitive, and only equal keys compare as equal, so that the maps over them are
determined by what is found under each key.
-/

namespace TierLineage

open Std

/-! ### Orders -/

/-- A comparison of parts is lawful if equal parts make equal wholes. -/
theorem lawfulEqCmp_compareOn {α β : Type} [Ord β] [LawfulEqOrd β] {f : α → β}
    (h : ∀ {a b}, f a = f b → a = b) : LawfulEqCmp (compareOn f) where
  compare_self := compare_self (α := β)
  eq_of_compare heq := h (LawfulEqOrd.eq_of_compare heq)

instance : LawfulEqOrd Alias :=
  lawfulEqCmp_compareOn fun {a b} h => by cases a; cases b; cases h; rfl

instance : TransOrd ProcedureId :=
  inferInstanceAs (TransCmp (compareLex (compareOn _) (compareOn _)))

instance : LawfulEqOrd ProcedureId where
  compare_self := ReflOrd.compare_self (α := ProcedureId)
  eq_of_compare {p q} h := by
    obtain ⟨hc, hn⟩ := compareLex_eq_eq.mp h
    cases p
    cases q
    cases LawfulEqOrd.eq_of_compare hc
    cases LawfulEqOrd.eq_of_compare hn
    rfl

instance : LawfulEqOrd Table where
  compare_self := ReflOrd.compare_self (α := Table)
  eq_of_compare {t u} h := by
    obtain ⟨hc, h⟩ := compareLex_eq_eq.mp h
    obtain ⟨hd, h⟩ := compareLex_eq_eq.mp h
    obtain ⟨hs, hn⟩ := compareLex_eq_eq.mp h
    cases t
    cases u
    cases LawfulEqOrd.eq_of_compare hc
    cases LawfulEqOrd.eq_of_compare hd
    cases LawfulEqOrd.eq_of_compare hs
    cases LawfulEqOrd.eq_of_compare hn
    rfl

instance : TransOrd Hop := inferInstanceAs (TransCmp (compareOn Hop.rank))

instance : LawfulEqOrd Hop :=
  lawfulEqCmp_compareOn fun {a b} h => by cases a <;> cases b <;> first | rfl | cases h

instance : TransOrd SlotKey :=
  inferInstanceAs (TransCmp (compareLex (compareOn _) (compareOn _)))

instance : LawfulEqOrd SlotKey where
  compare_self := ReflOrd.compare_self (α := SlotKey)
  eq_of_compare {k l} h := by
    obtain ⟨hh, hs⟩ := compareLex_eq_eq.mp h
    cases k
    cases l
    cases LawfulEqOrd.eq_of_compare hh
    cases LawfulEqOrd.eq_of_compare hs
    rfl

/-! ### Looking up -/

section Lookup

variable {α β : Type} [Ord α] [TransOrd α] [LawfulEqOrd α] [DecidableEq α]

/-- What is found after something was put under a key. -/
theorem getElem?_insert_eq (m : TreeMap α β) (k a : α) (v : β) :
    (m.insert k v)[a]? = if a = k then some v else m[a]? := by
  rw [TreeMap.getElem?_insert]
  by_cases h : a = k
  · subst h
    simp
  · rw [if_neg h, if_neg fun hc => h (LawfulEqOrd.eq_of_compare hc).symm]

/-- What is found after a key was removed. -/
theorem getElem?_erase_eq (m : TreeMap α β) (k a : α) :
    (m.erase k)[a]? = if a = k then none else m[a]? := by
  rw [TreeMap.getElem?_erase]
  by_cases h : a = k
  · subst h
    simp
  · rw [if_neg h, if_neg fun hc => h (LawfulEqOrd.eq_of_compare hc).symm]

end Lookup

end TierLineage
