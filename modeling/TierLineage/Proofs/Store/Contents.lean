import TierLineage.Proofs.Store.Agreement

/-!
# What a store shows of mappings

A store shows what a shelf holds if every slot and every listing is as on the shelf.  A store in
memory shows its shelf, and a ledger shows the shelf that it mirrors, also under keys that nothing
can be written to.  So whatever was asked of a store that started empty, it shows the shelf on which
the same was done.  A listing has what is found under the keys of its hop.
-/

namespace TierLineage

namespace Ledger

/-! ### Keys that are not plain -/

/-- The key of a slot has five null characters more than the names of its table have. -/
theorem count_slotKey (k : SlotKey) : (slotKey k).toList.count '\x00' =
    k.source.database.toList.count '\x00' + k.source.schema.toList.count '\x00' +
      k.source.name.toList.count '\x00' + 5 := by
  have hmap : "map".toList.count '\x00' = 0 := List.count_eq_zero.mpr plain_map
  have hhop : k.hop.name.toList.count '\x00' = 0 := List.count_eq_zero.mpr k.hop.plain_name
  have halias : k.source.connection.name.toList.count '\x00' = 0 :=
    List.count_eq_zero.mpr k.source.connection.plain_name
  simp only [slotKey, joinKey_cons]
  simp only [joinKey, List.count_append, List.count_cons_self, hmap, hhop, halias]
  omega

/-- The key of a table with a null character in a name is not one of a plain table. -/
theorem slotKey_ne_of_not_plain {k j : SlotKey} (hk : k.source.Plain) (hj : ¬ j.source.Plain) :
    slotKey j ≠ slotKey k := by
  intro heq
  have hcount := congrArg (fun key => key.toList.count '\x00') heq
  simp only [count_slotKey, List.count_eq_zero.mpr hk.database, List.count_eq_zero.mpr hk.schema,
    List.count_eq_zero.mpr hk.name] at hcount
  exact hj ⟨List.count_eq_zero.mp (by omega), List.count_eq_zero.mp (by omega),
    List.count_eq_zero.mp (by omega)⟩

namespace Mirrors

variable {l : Ledger} {s : Shelf}

/-- Every slot is found in a mirror as it is on the shelf, whatever its table is called. -/
theorem slot_eq_slot (h : l.Mirrors s) (k : SlotKey) : l.slot k = .ok (s.slot k) := by
  by_cases hk : k.source.Plain
  · exact h.slot_eq hk
  · -- nothing is kept under the key of a table that is not plain
    have hempty : s.slot k = Slot.empty :=
      Slot.isEmpty_iff.mp (Bool.of_not_eq_false fun hfalse => hk (h.plain hfalse))
    have hnone : l.entries[slotKey k]? = none := by
      refine Option.eq_none_iff_forall_ne_some.mpr fun text htext => ?_
      rcases h.key_cases htext with ⟨j, hj, heq⟩ | ⟨p, heq⟩
      · exact slotKey_ne_of_not_plain hj hk heq
      · exact slotKey_ne_recordKey k p heq
    rw [slot, get?, hnone, hempty]
    rfl

end Mirrors

end Ledger

/-! ### Showing a shelf -/

namespace Store

/-- The slot under a key. -/
def slot (s : Store) (k : SlotKey) : Outcome Slot :=
  match s with
  | memory h => .ok (h.slot k)
  | ledger l => l.slot k

theorem confirmed?_eq (s : Store) (k : SlotKey) : s.confirmed? k = (s.slot k).map (·.confirmed) := by
  cases s <;> rfl

/-- The slots of a hop, in the order of their source tables. -/
def slotsOf (s : Store) (hop : Hop) : Outcome (List Slot) :=
  match s with
  | memory h => .ok (h.slotsOf hop)
  | ledger l => l.slotsOf hop

theorem confirmed_eq (s : Store) (hop : Hop) :
    s.confirmed hop = (s.slotsOf hop).map (·.filterMap (·.confirmed)) := by
  cases s <;> rfl

theorem candidates_eq (s : Store) (hop : Hop) :
    s.candidates hop = (s.slotsOf hop).map (·.flatMap (·.candidates)) := by
  cases s <;> rfl

/-- Whether every slot and every listing of mappings is as on a shelf. -/
structure Shows (s : Store) (h : Shelf) : Prop where
  slot_eq : ∀ k, s.slot k = .ok (h.slot k)
  confirmed_eq : ∀ hop, s.confirmed hop = .ok (h.confirmed hop)
  candidates_eq : ∀ hop, s.candidates hop = .ok (h.candidates hop)

variable {s : Store} {h : Shelf}

theorem Shows.confirmed?_eq (hs : s.Shows h) (k : SlotKey) :
    s.confirmed? k = .ok (h.slot k).confirmed := by
  rw [Store.confirmed?_eq, hs.slot_eq]
  rfl

theorem shows_memory (h : Shelf) : (memory h).Shows h :=
  ⟨fun _ => rfl, fun _ => rfl, fun _ => rfl⟩

theorem shows_ledger {l : Ledger} (hl : l.Mirrors h) : (ledger l).Shows h :=
  ⟨hl.slot_eq_slot, hl.confirmed_eq, hl.candidates_eq⟩

/-- A store in memory stays one. -/
theorem perform_memory (h : Shelf) (op : Operation) :
    ∃ h', ((memory h).perform op).2 = memory h' := by
  cases op <;> exact ⟨_, rfl⟩

theorem after_memory (h : Shelf) (ops : List Operation) :
    ∃ h', (memory h).after ops = memory h' := by
  induction ops generalizing h with
  | nil => exact ⟨h, rfl⟩
  | cons op ops ih =>
    obtain ⟨h', hh'⟩ := perform_memory h op
    rw [after, hh']
    exact ih h'

/-- Whatever was asked of a store that started empty, it shows the shelf on which the same was
done; a ledger has to be asked what it can keep. -/
theorem shows_after (b : Backend) {ops : List Operation}
    (hledger : b = .ledger → ∀ op ∈ ops, op.Proper) :
    ∃ h, (memory .empty).after ops = memory h ∧ ((empty b).after ops).Shows h := by
  cases b with
  | memory =>
    obtain ⟨h, hh⟩ := after_memory .empty ops
    refine ⟨h, hh, ?_⟩
    rw [empty, hh]
    exact shows_memory h
  | ledger =>
    obtain ⟨h, l, hh, hl, hmirrors⟩ := Ledger.mirrors_empty.after (hledger rfl)
    refine ⟨h, hh, ?_⟩
    rw [empty, hl]
    exact shows_ledger hmirrors

end Store

/-! ### Listings of a shelf -/

namespace Shelf

variable {s : Shelf} {hop : Hop} {m : Mapping}

/-- The slots of a hop are found under its keys. -/
theorem mem_slotsOf {v : Slot} : v ∈ s.slotsOf hop ↔ ∃ t, s.slots[(⟨hop, t⟩ : SlotKey)]? = some v := by
  rw [slotsOf, List.mem_map]
  constructor
  · rintro ⟨⟨⟨g, t⟩, w⟩, he, rfl⟩
    obtain ⟨hmem, hhop⟩ := List.mem_filter.mp he
    obtain rfl : g = hop := beq_iff_eq.mp hhop
    exact ⟨t, Std.TreeMap.mem_toList_iff_getElem?_eq_some.mp hmem⟩
  · rintro ⟨t, ht⟩
    refine ⟨(⟨hop, t⟩, v), List.mem_filter.mpr ⟨?_, beq_self_eq_true hop⟩, rfl⟩
    exact Std.TreeMap.mem_toList_iff_getElem?_eq_some.mpr ht

theorem slot_of_getElem? {k : SlotKey} {v : Slot} (h : s.slots[k]? = some v) : s.slot k = v := by
  rw [slot, h]
  rfl

/-- A slot in which something is known is kept on the shelf. -/
theorem getElem?_of_slot_ne {k : SlotKey} (h : s.slot k ≠ Slot.empty) :
    s.slots[k]? = some (s.slot k) := by
  rw [slot] at h ⊢
  cases hk : s.slots[k]? with
  | none => exact absurd (by rw [hk]; rfl) h
  | some v => rfl

/-- The confirmed mappings of a hop are what is confirmed under its keys. -/
theorem mem_confirmed : m ∈ s.confirmed hop ↔ ∃ t, (s.slot ⟨hop, t⟩).confirmed = some m := by
  rw [confirmed, List.mem_filterMap]
  constructor
  · rintro ⟨v, hv, hm⟩
    obtain ⟨t, ht⟩ := mem_slotsOf.mp hv
    exact ⟨t, by rw [slot_of_getElem? ht, hm]⟩
  · rintro ⟨t, ht⟩
    have hne : s.slot ⟨hop, t⟩ ≠ Slot.empty := fun h => by rw [h] at ht; cases ht
    exact ⟨_, mem_slotsOf.mpr ⟨t, getElem?_of_slot_ne hne⟩, ht⟩

/-- The candidates of a hop are what is recorded under its keys. -/
theorem mem_candidates : m ∈ s.candidates hop ↔ ∃ t, m ∈ (s.slot ⟨hop, t⟩).candidates := by
  rw [candidates, List.mem_flatMap]
  constructor
  · rintro ⟨v, hv, hm⟩
    obtain ⟨t, ht⟩ := mem_slotsOf.mp hv
    exact ⟨t, by rwa [slot_of_getElem? ht]⟩
  · rintro ⟨t, ht⟩
    have hne : s.slot ⟨hop, t⟩ ≠ Slot.empty := fun h => by rw [h] at ht; cases ht
    exact ⟨_, mem_slotsOf.mpr ⟨t, getElem?_of_slot_ne hne⟩, ht⟩

end Shelf

end TierLineage
