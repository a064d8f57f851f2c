import TierLineage.Proofs.Answer.Copies
import TierLineage.Proofs.Answer.Tables
import TierLineage.Proofs.Naming
import TierLineage.Sample.Warehouse

/-!
# Names with quotes around their parts

A table is read back from its name also if each part of it stands in quotes, with white space inside and outside
of them.  The parts have to be clean: something is left of them, there are no dots in them, and they neither
begin nor end with what a reader drops.  Quotes and white space further inside belong to the part.
-/

namespace TierLineage

open TierLineage.Text TierLineage.Answer

namespace Table

/-! ### Clean parts -/

/-- Whether a part is not empty, has no dots in it, and has neither white space nor quotes at its ends. -/
structure IsClean (part : String) : Prop where
  ne_empty : part ≠ ""
  no_dot : '.' ∉ part.toList
  ends : ∀ c, Matching.AtEnd part.toList c → isBlank c = false ∧ isQuote c = false

/-- Whether the parts of a table are clean, but for a database that is left out. -/
structure Clean (t : Table) : Prop where
  database : t.database ≠ "" → IsClean t.database
  schema : IsClean t.schema
  name : IsClean t.name

section Clean

variable {part : String}

/-- A part is clean exactly if it is not empty and is read as it is written. -/
theorem isClean_iff : IsClean part ↔ part ≠ "" ∧ IsBare part := by
  constructor
  · intro h
    refine ⟨h.ne_empty, h.no_dot, ?_⟩
    have hblank : trim part.toList = part.toList :=
      Matching.stripped_eq_self_iff.mpr fun c hc => (h.ends c hc).1
    have hquote : trimBy isQuote part.toList = part.toList :=
      Matching.stripped_eq_self_iff.mpr fun c hc => (h.ends c hc).2
    rw [unquoted, hblank, hquote, hblank]
  · rintro ⟨hne, hdot, hself⟩
    -- what is dropped in three steps is not dropped in any of them
    have hsecond : (unquoted part.toList).Sublist (trimBy isQuote (trim part.toList)) := trimBy_sublist _ _
    have hquote : (trimBy isQuote (trim part.toList)).Sublist (trim part.toList) := trimBy_sublist _ _
    have hfirst : trim part.toList = part.toList :=
      (trimBy_sublist _ _).antisymm (by
        conv_lhs => rw [← hself]
        exact hsecond.trans hquote)
    rw [hself, hfirst] at hsecond
    rw [hfirst] at hquote
    exact ⟨hne, hdot, fun c hc => ⟨Matching.stripped_eq_self_iff.mp hfirst c hc,
      Matching.stripped_eq_self_iff.mp (hquote.antisymm hsecond) c hc⟩⟩

instance (part : String) : Decidable (IsClean part) :=
  decidable_of_iff _ isClean_iff.symm

instance (t : Table) : Decidable t.Clean :=
  decidable_of_iff ((t.database ≠ "" → IsClean t.database) ∧ IsClean t.schema ∧ IsClean t.name)
    ⟨fun h => ⟨h.1, h.2.1, h.2.2⟩, fun h => ⟨h.database, h.schema, h.name⟩⟩

end Clean

/-! ### Wrapped parts -/

/-- White space. -/
def Blanks : Type :=
  { cs : List Char // ∀ c ∈ cs, isBlank c = true }

/-- No white space. -/
def Blanks.none : Blanks :=
  ⟨[], nofun⟩

/-- What may stand around a part: white space, quotes, and white space again. -/
structure Wrapping where
  before : Blanks
  quoting : Quoting
  inFront : Blanks
  behind : Blanks
  after : Blanks

namespace Wrapping

variable {w : Wrapping} {part : String} {cs : List Char}

/-- A part with what stands around it. -/
def write (w : Wrapping) (cs : List Char) : List Char :=
  w.before.1 ++ w.quoting.write (w.inFront.1 ++ cs ++ w.behind.1) ++ w.after.1

/-- Nothing around a part. -/
def plain : Wrapping :=
  ⟨.none, .unquoted, .none, .none, .none⟩

theorem write_plain (cs : List Char) : plain.write cs = cs := by
  simp [plain, write, Blanks.none, Quoting.write]

theorem not_mem_write {sep : Char} (hblank : isBlank sep = false) (hquote : isQuote sep = false)
    (hcs : sep ∉ cs) : sep ∉ w.write cs := by
  obtain ⟨front, back, hwrite, hfront, hback, -⟩ := w.quoting.exists_write
  have hblanks : ∀ b : Blanks, sep ∉ b.1 := fun b hb => by simp [b.2 sep hb] at hblank
  have hquotes : ∀ {qs : List Char}, (∀ c ∈ qs, isQuote c = true) → sep ∉ qs := fun hqs hsep => by
    simp [hqs sep hsep] at hquote
  simp [write, hwrite, hblanks, hquotes hfront, hquotes hback, hcs]

end Wrapping

/-- A clean part is read from what is written around it. -/
theorem IsClean.unquoted_write {part : String} (h : IsClean part) (w : Wrapping) :
    unquoted (w.write part.toList) = part.toList := by
  have hblank : ∀ c, Matching.AtEnd part.toList c → isBlank c = false := fun c hc => (h.ends c hc).1
  have hinner : trim (w.inFront.1 ++ part.toList ++ w.behind.1) = part.toList :=
    trimBy_append w.inFront.2 w.behind.2 hblank
  have houter : ∀ cs, trim (w.before.1 ++ cs ++ w.after.1) = trim cs := fun cs =>
    Matching.stripped_append w.before.2 w.after.2
  -- quotes keep the white space between them until they are dropped themselves
  have hquoted : ∀ {o c : Char}, isQuote o = true → isQuote c = true →
      unquoted (w.before.1 ++ ([o] ++ (w.inFront.1 ++ part.toList ++ w.behind.1) ++ [c]) ++ w.after.1) =
        part.toList := by
    intro o c ho hc
    have hkept : trim ([o] ++ (w.inFront.1 ++ part.toList ++ w.behind.1) ++ [c]) =
        [o] ++ (w.inFront.1 ++ part.toList ++ w.behind.1) ++ [c] := by
      refine Matching.stripped_eq_self_iff.mpr fun d hd => isBlank_eq_false_of_isQuote ?_
      rcases hd with hd | hd
      · rw [List.append_assoc, List.singleton_append, List.head?_cons, Option.some_inj] at hd
        exact hd ▸ ho
      · rw [List.getLast?_concat, Option.some_inj] at hd
        exact hd ▸ hc
    have hends : ∀ d, Matching.AtEnd (w.inFront.1 ++ part.toList ++ w.behind.1) d → isQuote d = false := by
      intro d hd
      have hnot : isBlank d = true → isQuote d = false := fun hd =>
        Bool.eq_false_iff.mpr fun hq => by simp [isBlank_eq_false_of_isQuote hq] at hd
      rcases Matching.atEnd_append hd with hd | hd | hd
      · exact hnot (w.inFront.2 d hd)
      · exact hnot (w.behind.2 d hd)
      · exact (h.ends d hd).2
    rw [unquoted, houter, hkept, trimBy_append (List.forall_mem_singleton.mpr ho)
      (List.forall_mem_singleton.mpr hc) hends, hinner]
  rw [Wrapping.write]
  cases w.quoting with
  | unquoted =>
    have hself : trimBy isQuote part.toList = part.toList :=
      Matching.stripped_eq_self_iff.mpr fun c hc => (h.ends c hc).2
    rw [Quoting.write, unquoted, houter, hinner, hself]
    exact Matching.stripped_eq_self_iff.mpr hblank
  | brackets => exact hquoted rfl rfl
  | quotes => exact hquoted rfl rfl
  | backticks => exact hquoted rfl rfl

/-! ### Wrapped names -/

/-- The name of a table inside its connection with the parts wrapped; an empty database is left out. -/
def wrapped (t : Table) (database schema name : Wrapping) : String :=
  String.ofList (joined ['.'] (
    if t.database.isEmpty then [schema.write t.schema.toList, name.write t.name.toList]
    else [database.write t.database.toList, schema.write t.schema.toList, name.write t.name.toList]))

theorem wrapped_plain (t : Table) : t.wrapped .plain .plain .plain = t.qualified := by
  rw [← String.toList_inj, wrapped, String.toList_ofList, qualified]
  split <;> simp [joined, Wrapping.write_plain]

/-- What is read from wrapped parts are the parts. -/
theorem nameParts_joined {ps : List (Wrapping × String)} (hne : ps ≠ []) (h : ∀ p ∈ ps, IsClean p.2) :
    nameParts (String.ofList (joined ['.'] (ps.map fun p => p.1.write p.2.toList))) = ps.map Prod.snd := by
  have hdot : ∀ cs ∈ ps.map fun p => p.1.write p.2.toList, '.' ∉ cs := by
    intro cs hcs
    obtain ⟨p, hp, rfl⟩ := List.mem_map.mp hcs
    exact Wrapping.not_mem_write rfl rfl (h p hp).no_dot
  have hread : (ps.map fun p => p.1.write p.2.toList).map unquoted = ps.map (·.2.toList) := by
    rw [List.map_map]
    refine List.map_congr_left fun p hp => ?_
    rw [Function.comp_apply]
    exact (h p hp).unquoted_write p.1
  have hkept : ∀ cs ∈ ps.map (·.2.toList), (!cs.isEmpty) = true := by
    intro cs hcs
    obtain ⟨p, hp, rfl⟩ := List.mem_map.mp hcs
    rw [Bool.not_eq_true', List.isEmpty_eq_false_iff]
    exact fun hnil => (h p hp).ne_empty (String.toList_eq_nil_iff.mp hnil)
  rw [nameParts, String.toList_ofList, pieces_joined (mt List.map_eq_nil_iff.mp hne) hdot, hread,
    List.filter_eq_self.mpr hkept, List.map_map]
  refine List.map_congr_left fun p _ => ?_
  rw [Function.comp_apply, String.ofList_toList]

theorem Clean.ofQualified_wrapped {t : Table} (ht : t.Clean) (database schema name : Wrapping) :
    ofQualified t.connection (t.wrapped database schema name) = t := by
  rw [wrapped]
  split
  · next hempty =>
    have hclean : ∀ p ∈ [(schema, t.schema), (name, t.name)], IsClean p.2 := by
      simp [ht.schema, ht.name]
    have hparts := nameParts_joined (List.cons_ne_nil _ _) hclean
    rw [List.map_cons, List.map_singleton] at hparts
    rw [ofQualified, hparts]
    exact congrArg (Table.mk t.connection · t.schema t.name) (String.isEmpty_iff.mp hempty).symm
  · next hempty =>
    have hdatabase := ht.database fun h => hempty (String.isEmpty_iff.mpr h)
    have hclean : ∀ p ∈ [(database, t.database), (schema, t.schema), (name, t.name)], IsClean p.2 := by
      simp [hdatabase, ht.schema, ht.name]
    have hparts := nameParts_joined (List.cons_ne_nil _ _) hclean
    rw [List.map_cons, List.map_cons, List.map_singleton] at hparts
    rw [ofQualified, hparts]
    rfl

/-- **Reading undoes writing**: a table with clean parts is read back from its name, and from every name
that has quotes and white space around the parts, whichever of them each part has. -/
theorem ofQualified_qualified_and_wrapped {t : Table} (ht : t.Clean) :
    ofQualified t.connection t.qualified = t ∧
      ∀ database schema name : Wrapping, ofQualified t.connection (t.wrapped database schema name) = t :=
  ⟨t.wrapped_plain ▸ ht.ofQualified_wrapped .plain .plain .plain, ht.ofQualified_wrapped⟩

/-- White space outside of quotes and inside of them, and quotes inside a part. -/
theorem ofQualified_wrapped_sample :
    ofQualified Warehouse.erp "Sales.dbo.Order [2] Lines" =
        ⟨Warehouse.erp, "Sales", "dbo", "Order [2] Lines"⟩ ∧
      ofQualified Warehouse.erp " [ Sales].\"dbo\" .\x60Order [2] Lines\x60" =
        ⟨Warehouse.erp, "Sales", "dbo", "Order [2] Lines"⟩ := by
  let space : Blanks := ⟨[' '], List.forall_mem_singleton.mpr rfl⟩
  have hclean : (⟨Warehouse.erp, "Sales", "dbo", "Order [2] Lines"⟩ : Table).Clean := by decide
  obtain ⟨hplain, hwrapped⟩ := ofQualified_qualified_and_wrapped hclean
  exact ⟨hplain, hwrapped ⟨space, .brackets, space, .none, .none⟩ ⟨.none, .quotes, .none, .none, space⟩
    ⟨.none, .backticks, .none, .none, .none⟩⟩

end Table

end TierLineage
