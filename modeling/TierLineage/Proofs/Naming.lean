import Mathlib.Algebra.GroupWithZero.Nat
import Mathlib.Algebra.Order.Group.Nat
import TierLineage.Proofs.Store.Key

/-!
# Names of tables

A table is written with dots between its parts, and the parts are read back without the quotes and the
white space around them.  Nothing is quoted when a name is written, so a table is read back from its
own name exactly if its parts are bare: no part has a dot in it, or quotes or white space around it.
From the name of any other table a table is read whose key is another one.
-/

namespace TierLineage

namespace Table

open Text

/-! ### Parts -/

theorem trimBy_sublist (f : Char → Bool) (cs : List Char) : (trimBy f cs).Sublist cs := by
  have hend : (trimEndBy f (trimStartBy f cs)).Sublist (trimStartBy f cs) := by
    rw [trimEndBy, ← List.reverse_sublist, List.reverse_reverse]
    exact List.dropWhile_sublist f
  exact hend.trans (List.dropWhile_sublist f)

theorem unquoted_sublist (part : List Char) : (unquoted part).Sublist part :=
  (trimBy_sublist _ _).trans ((trimBy_sublist _ _).trans (trimBy_sublist _ _))

/-- Whether a part of a name is read as it is written. -/
def IsBare (part : String) : Prop :=
  '.' ∉ part.toList ∧ unquoted part.toList = part.toList

instance (part : String) : Decidable (IsBare part) :=
  inferInstanceAs (Decidable (_ ∧ _))

/-- Whether all parts of a table are read as they are written. -/
structure Bare (t : Table) : Prop where
  database : IsBare t.database
  schema : IsBare t.schema
  name : IsBare t.name

/-- Whether no part of a table has a dot in it. -/
structure Dotless (t : Table) : Prop where
  database : '.' ∉ t.database.toList
  schema : '.' ∉ t.schema.toList
  name : '.' ∉ t.name.toList

/-- The parts of a table that are written. -/
def written (t : Table) : List String :=
  if t.database.isEmpty then [t.schema, t.name] else [t.database, t.schema, t.name]

/-- How many characters the parts of a table have. -/
def size (t : Table) : Nat :=
  t.database.length + t.schema.length + t.name.length

variable {t : Table} {a : Alias} {s : String}

theorem size_eq_written (t : Table) : t.size = (t.written.map String.length).sum := by
  rw [written]
  split
  · next h =>
    have hempty : t.database = "" := String.isEmpty_iff.mp h
    simp [size, hempty]
  · simp [size, Nat.add_assoc]

/-- The parts that are read from a name without dots in its parts. -/
theorem nameParts_qualified (ht : t.Dotless) : nameParts t.qualified =
    ((t.written.map fun p => unquoted p.toList).filter fun p => !p.isEmpty).map String.ofList := by
  have hpieces : pieces '.' t.qualified.toList = t.written.map String.toList := by
    rw [qualified, written]
    split
    · simp [pieces_append ht.schema, pieces_of_not_mem ht.name]
    · simp [List.append_assoc, pieces_append ht.database, pieces_append ht.schema,
        pieces_of_not_mem ht.name]
  simp only [nameParts, hpieces, List.map_map, Function.comp_def]

/-- What is read from a name has no dots in its parts. -/
theorem dotless_ofQualified (a : Alias) (s : String) : (ofQualified a s).Dotless := by
  have hparts : ∀ p ∈ (nameParts s).reverse, '.' ∉ p.toList := by
    intro p hp
    obtain ⟨q, hq, rfl⟩ := List.mem_map.mp (List.mem_reverse.mp hp)
    obtain ⟨r, hr, rfl⟩ := List.mem_map.mp (List.mem_filter.mp hq).1
    rw [String.toList_ofList]
    exact fun hdot => not_mem_of_mem_pieces hr ((unquoted_sublist r).subset hdot)
  have hempty : '.' ∉ ("" : String).toList := List.not_mem_nil
  rw [ofQualified]
  split
  · exact ⟨hempty, hempty, hempty⟩
  · next name heq =>
    rw [heq, List.forall_mem_singleton] at hparts
    exact ⟨hempty, hempty, hparts⟩
  · next name schema heq =>
    rw [heq, List.forall_mem_cons, List.forall_mem_singleton] at hparts
    exact ⟨hempty, hparts.2, hparts.1⟩
  · next name schema database rest heq =>
    rw [heq, List.forall_mem_cons, List.forall_mem_cons, List.forall_mem_cons] at hparts
    exact ⟨hparts.2.2.1, hparts.2.1, hparts.1⟩

/-- What is read from a name has at most the characters of its parts. -/
theorem size_ofQualified_le (a : Alias) (s : String) :
    (ofQualified a s).size ≤ ((nameParts s).map String.length).sum := by
  have hsum : ((nameParts s).map String.length).sum =
      ((nameParts s).reverse.map String.length).sum := by
    rw [List.map_reverse, List.sum_reverse]
  rw [hsum, ofQualified]
  split <;> next heq =>
    rw [heq]
    simp only [size, List.map_cons, List.sum_cons, List.map_nil, List.sum_nil, String.length_empty]
    omega

/-! ### Reading a table from its name -/

/-- The parts that are read from a name have at most the characters of those that are written, and as
many only if all of them are bare. -/
theorem bare_of_size_le (ht : t.Dotless) (h : t.size ≤ (ofQualified a t.qualified).size) :
    t.Bare := by
  have hfilter : ∀ ps : List (List Char),
      (((ps.filter fun p => !p.isEmpty).map String.ofList).map String.length).sum =
        (ps.map List.length).sum := by
    intro ps
    induction ps with
    | nil => rfl
    | cons p ps ih =>
      cases p with
      | nil => simpa using ih
      | cons c cs =>
        simp only [List.map_map, List.isEmpty_cons, Bool.not_false, List.filter_cons_of_pos,
          List.map_cons, String.length_ofList, List.sum_cons] at ih ⊢
        rw [ih]
  have hle := Nat.le_trans h (size_ofQualified_le a t.qualified)
  rw [nameParts_qualified ht, hfilter, size_eq_written, List.map_map] at hle
  -- no part gets longer, so none may get shorter
  have hlength : ∀ part : String, (unquoted part.toList).length ≤ part.length := by
    intro part
    rw [← String.length_toList]
    exact (unquoted_sublist part.toList).length_le
  have hsame : ∀ {part : String}, part.length ≤ (unquoted part.toList).length →
      unquoted part.toList = part.toList := by
    intro part hpart
    rw [← String.length_toList] at hpart
    exact (unquoted_sublist part.toList).eq_of_length_le hpart
  have hdatabase := hlength t.database
  have hschema := hlength t.schema
  have hname := hlength t.name
  rw [written] at hle
  split at hle
  · next hempty =>
    simp only [List.map_cons, List.map_nil, List.sum_cons, List.sum_nil, Function.comp_apply] at hle
    have hempty : t.database = "" := String.isEmpty_iff.mp hempty
    exact ⟨by rw [hempty]; decide, ⟨ht.schema, hsame (by omega)⟩, ht.name, hsame (by omega)⟩
  · simp only [List.map_cons, List.map_nil, List.sum_cons, List.sum_nil, Function.comp_apply] at hle
    exact ⟨⟨ht.database, hsame (by omega)⟩, ⟨ht.schema, hsame (by omega)⟩, ht.name,
      hsame (by omega)⟩

/-- A valid table has a schema and a name. -/
theorem ne_empty_of_validate (h : t.validate = .ok ()) : t.schema ≠ "" ∧ t.name ≠ "" := by
  refine ⟨fun hschema => ?_, fun hname => ?_⟩
  · rw [validate, hschema] at h
    split at h <;> cases h
  · rw [validate, hname] at h
    cases h

/-- A valid table whose parts are bare is read from its own name. -/
theorem Bare.ofQualified_qualified (ht : t.Bare) (hvalid : t.validate = .ok ()) :
    ofQualified t.connection t.qualified = t := by
  obtain ⟨hschema, hname⟩ := ne_empty_of_validate hvalid
  have hkept : ∀ {p : String}, p ≠ "" → (!p.toList.isEmpty) = true := fun {p} hp => by
    rw [Bool.not_eq_true', List.isEmpty_eq_false_iff]
    exact fun hnil => hp (String.toList_eq_nil_iff.mp hnil)
  have hparts : nameParts t.qualified = t.written := by
    rw [nameParts_qualified ⟨ht.database.1, ht.schema.1, ht.name.1⟩, written]
    split
    · simp [ht.schema.2, ht.name.2, hkept hschema, hkept hname]
    · next hdatabase =>
      have hdatabase : t.database ≠ "" := fun h => hdatabase (String.isEmpty_iff.mpr h)
      simp [ht.database.2, ht.schema.2, ht.name.2, hkept hdatabase, hkept hschema, hkept hname]
  rw [ofQualified, hparts, written]
  by_cases hempty : t.database.isEmpty = true
  · rw [if_pos hempty]
    exact congrArg (Table.mk t.connection · t.schema t.name) (String.isEmpty_iff.mp hempty).symm
  · rw [if_neg hempty]
    rfl

/-- **A valid table is read from its own name exactly if its parts are bare**, also if all that is
asked for is that the key of what is read is the key of the table. -/
theorem slotKey_ofQualified_eq_iff (hvalid : t.validate = .ok ()) (hop : Hop) :
    Ledger.slotKey ⟨hop, ofQualified t.connection t.qualified⟩ = Ledger.slotKey ⟨hop, t⟩ ↔
      t.Bare := by
  constructor
  · intro h
    obtain ⟨-, -, hjoin⟩ := Ledger.slotKey_parts h
    have hchars := congrArg String.toList hjoin
    simp only [Ledger.joinKey_cons] at hchars
    simp only [Ledger.joinKey] at hchars
    -- the key tells whether there are dots in the parts, and how many characters they have
    have hread := dotless_ofQualified t.connection t.qualified
    have hdots : '.' ∉ t.database.toList ++ '\x00' :: (t.schema.toList ++ '\x00' :: t.name.toList) := by
      rw [← hchars]
      simp [hread.database, hread.schema, hread.name]
    simp only [List.mem_append, List.mem_cons, not_or] at hdots
    have hsize := congrArg List.length hchars
    simp only [List.length_append, List.length_cons, String.length_toList] at hsize
    refine bare_of_size_le (a := t.connection) ⟨hdots.1, hdots.2.2.1, hdots.2.2.2.2⟩ ?_
    simp only [size]
    omega
  · intro h
    rw [h.ofQualified_qualified hvalid]

end Table

end TierLineage
