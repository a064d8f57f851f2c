import Mathlib.Data.List.Forall2
import TierLineage.Proofs.Answer.Wrapping

/-!
# Tables of an analysis

Whatever an answer says, its analysis names tables of the connection only, and of each column at most one: the
table that the answer names for it, or one of the sources.  Columns keep their order, and only those
without a target are left out.  A name that is blank names no table.  A name of which nothing is left
without dots, quotes and white space does name one, though, and that table has an empty name.
-/

namespace TierLineage

open TierLineage.Text

/-! ### Names of which nothing is left -/

namespace Table

variable {part : List Char} {a : Alias} {s : String}

/-- Whether a part consists of white space, quotes, white space, quotes and white space, each of which may be
missing. -/
def IsHollow (part : List Char) : Prop :=
  ∃ b₁ q₁ b₂ q₂ b₃, part = b₁ ++ (q₁ ++ b₂ ++ q₂) ++ b₃ ∧ (∀ c ∈ b₁, isBlank c = true) ∧
    (∀ c ∈ q₁, isQuote c = true) ∧ (∀ c ∈ b₂, isBlank c = true) ∧ (∀ c ∈ q₂, isQuote c = true) ∧
    ∀ c ∈ b₃, isBlank c = true

theorem isBlank_eq_false_of_isQuote {c : Char} (h : isQuote c = true) : isBlank c = false := by
  simp only [isQuote, Bool.or_eq_true, beq_iff_eq] at h
  rcases h with ((rfl | rfl) | rfl) | rfl <;> rfl

/-- Quotes protect the white space between them, and only that. -/
theorem exists_trim_eq {q₁ b q₂ : List Char} (hq₁ : ∀ c ∈ q₁, isQuote c = true)
    (hb : ∀ c ∈ b, isBlank c = true) (hq₂ : ∀ c ∈ q₂, isQuote c = true) :
    ∃ b', trim (q₁ ++ b ++ q₂) = q₁ ++ b' ++ q₂ ∧ ∀ c ∈ b', isBlank c = true := by
  have hnone : ∀ c ∈ ([] : List Char), isBlank c = true := nofun
  have hquotes : ∀ {q : List Char}, (∀ c ∈ q, isQuote c = true) → trim q = q := fun hq =>
    Matching.stripped_eq_self_iff.mpr fun c hc =>
      isBlank_eq_false_of_isQuote (hq c (hc.elim List.mem_of_head? List.mem_of_getLast?))
  by_cases hfirst : q₁ = []
  · subst hfirst
    have hdrop : trim (b ++ q₂ ++ []) = trim q₂ := Matching.stripped_append hb hnone
    rw [List.append_nil, hquotes hq₂] at hdrop
    exact ⟨[], hdrop, hnone⟩
  by_cases hlast : q₂ = []
  · subst hlast
    have hdrop : trim ([] ++ q₁ ++ b) = trim q₁ := Matching.stripped_append hnone hb
    rw [List.nil_append, hquotes hq₁] at hdrop
    exact ⟨[], by rw [List.append_nil, List.append_nil, List.append_nil, hdrop], hnone⟩
  · refine ⟨b, Matching.stripped_eq_self_iff.mpr fun c hc => ?_, hb⟩
    rcases hc with hc | hc
    · rw [List.append_assoc, List.head?_append_of_ne_nil _ hfirst] at hc
      exact isBlank_eq_false_of_isQuote (hq₁ c (List.mem_of_head? hc))
    · rw [List.getLast?_append_of_ne_nil _ hlast] at hc
      exact isBlank_eq_false_of_isQuote (hq₂ c (List.mem_of_getLast? hc))

/-- Nothing is left of exactly the hollow parts. -/
theorem unquoted_eq_nil_iff : unquoted part = [] ↔ IsHollow part := by
  have hblank : unquoted part = [] ↔ ∀ c ∈ trimBy isQuote (trim part), isBlank c = true :=
    Matching.stripped_eq_nil_iff
  rw [hblank]
  constructor
  · intro h
    obtain ⟨b₁, b₃, hpart, hb₁, hb₃⟩ := Matching.exists_eq_stripped isBlank part
    obtain ⟨q₁, q₂, hinner, hq₁, hq₂⟩ :=
      Matching.exists_eq_stripped isQuote (Matching.stripped isBlank part)
    exact ⟨b₁, q₁, _, q₂, b₃, hinner ▸ hpart, hb₁, hq₁, h, hq₂, hb₃⟩
  · rintro ⟨b₁, q₁, b₂, q₂, b₃, rfl, hb₁, hq₁, hb₂, hq₂, hb₃⟩
    have htrim : trim (b₁ ++ (q₁ ++ b₂ ++ q₂) ++ b₃) = trim (q₁ ++ b₂ ++ q₂) :=
      Matching.stripped_append hb₁ hb₃
    obtain ⟨b, htrim', hb⟩ := exists_trim_eq hq₁ hb₂ hq₂
    have hinner : trimBy isQuote (q₁ ++ b ++ q₂) = Matching.stripped isQuote b :=
      Matching.stripped_append hq₁ hq₂
    rw [htrim, htrim', hinner]
    exact fun c hc => hb c ((Matching.stripped_sublist isQuote b).subset hc)

/-- Whether nothing is left of any part of a name. -/
def IsHollowName (s : String) : Prop :=
  ∀ part ∈ pieces '.' s.toList, IsHollow part

theorem nameParts_eq_nil_iff : nameParts s = [] ↔ IsHollowName s := by
  simp [nameParts, IsHollowName, unquoted_eq_nil_iff]

theorem ne_empty_of_mem_nameParts {part : String} (h : part ∈ nameParts s) : part ≠ "" := by
  obtain ⟨cs, hcs, rfl⟩ := List.mem_map.mp h
  rintro hempty
  have hnil : cs = [] := by
    rw [← String.toList_ofList (l := cs), hempty]
    rfl
  rw [hnil, List.mem_filter] at hcs
  exact absurd hcs.2 (by decide)

/-- A table has an empty name exactly if nothing is left of the name that it is read from. -/
theorem name_ofQualified_eq_empty_iff : (ofQualified a s).name = "" ↔ IsHollowName s := by
  rw [← nameParts_eq_nil_iff, ← List.reverse_eq_nil_iff]
  have hne : ∀ part ∈ (nameParts s).reverse, part ≠ "" := fun part hpart =>
    ne_empty_of_mem_nameParts (List.mem_reverse.mp hpart)
  rw [ofQualified]
  split
  · next heq => exact iff_of_true rfl heq
  all_goals
    next heq =>
      rw [heq] at hne ⊢
      exact iff_of_false (hne _ List.mem_cons_self) (List.cons_ne_nil _ _)

theorem connection_ofQualified (a : Alias) (s : String) : (ofQualified a s).connection = a := by
  rw [ofQualified]
  split <;> rfl

end Table

namespace Answer

/-! ### What an analysis is made of -/

section Analyses

variable {connection : Alias} {s : Statement} {c : ColumnStatement} {name : String} {t : Table}

/-- What is true of a table that an analysis names by a text of the answer. -/
structure ReadFrom (connection : Alias) (name : String) (t : Table) : Prop where
  not_blank : isBlankString name = false
  read : t = Table.ofQualified connection (trimString name)
  connected : t.connection = connection
  name_eq_empty_iff : t.name = "" ↔ Table.IsHollowName (trimString name)

/-- What is true of a column of an analysis and of what the answer says about it. -/
structure Describes (connection : Alias) (s : Statement) (c : ColumnStatement) (l : ColumnLineage) : Prop where
  target : l.target = trimString c.target
  target_ne_empty : l.target ≠ ""
  expression : l.expression = trimString (c.source.getD "")
  tables_le : l.tables.items.length ≤ 1
  tables : ∀ t ∈ l.tables.items, (∃ name, c.table = some name ∧ ReadFrom connection name t) ∨
    ∃ name ∈ s.sources, ReadFrom connection name t

/-- What is true of an analysis and of what the answer says. -/
structure Reflects (connection : Alias) (s : Statement) (a : Analysis) : Prop where
  target : ∀ t, a.target = some t → ∃ name, s.target = some name ∧ ReadFrom connection name t
  columns : List.Forall₂ (Describes connection s) (s.columns.filter fun c => !isBlankString c.target) a.columns
  readable : a.fallback = false

theorem trimString_eq_empty_iff : trimString name = "" ↔ isBlankString name = true := by
  have hnil : trim name.toList = [] ↔ ∀ c ∈ name.toList, isBlank c = true := Matching.stripped_eq_nil_iff
  rw [isBlankString, List.all_eq_true, ← hnil, trimString, ← String.toList_eq_nil_iff, String.toList_ofList]

theorem readFrom_of_namedTable? (h : namedTable? connection name = some t) : ReadFrom connection name t := by
  simp only [namedTable?] at h
  split at h
  · cases h
  · next hempty =>
    obtain rfl : Table.ofQualified connection (trimString name) = t := Option.some.inj h
    refine ⟨?_, rfl, Table.connection_ofQualified _ _, Table.name_ofQualified_eq_empty_iff⟩
    rw [← Bool.not_eq_true, ← trimString_eq_empty_iff]
    exact fun hblank => hempty (String.isEmpty_iff.mpr hblank)

theorem mem_resolved {sources : List Table} : resolved sources t = t ∨ resolved sources t ∈ sources := by
  rw [resolved]
  cases hfind : sources.find? fun s => t.schema.isEmpty && sameStringIgnoringCase s.name t.name with
  | none => exact .inl rfl
  | some source => exact .inr (List.mem_of_find?_eq_some hfind)

/-- The table of a column, if there is one, is the one that is named for it or one of the sources. -/
theorem items_columnTables (connection : Alias) (sources : List Table) (table : Option String)
    (transformation : Transformation) :
    (columnTables connection sources table transformation).items.length ≤ 1 ∧
      ∀ t ∈ (columnTables connection sources table transformation).items,
        table.bind (namedTable? connection) = some t ∨ t ∈ sources := by
  unfold columnTables
  split
  · next named hnamed =>
    refine ⟨Nat.le_refl 1, fun t ht => ?_⟩
    rw [List.mem_singleton.mp ht, hnamed]
    exact (mem_resolved (t := named)).imp_left fun h => congrArg some h.symm
  · split
    · exact ⟨Nat.zero_le 1, nofun⟩
    · split
      · next source => exact ⟨Nat.le_refl 1, fun t ht => .inr ht⟩
      · exact ⟨Nat.zero_le 1, nofun⟩

theorem describes_columnLineage (hc : isBlankString c.target = false) :
    Describes connection s c (columnLineage connection (s.sources.filterMap (namedTable? connection)) c) := by
  have htarget : trimString c.target ≠ "" := fun hempty => by
    rw [trimString_eq_empty_iff.mp hempty] at hc
    cases hc
  obtain ⟨hle, htables⟩ := items_columnTables connection (s.sources.filterMap (namedTable? connection)) c.table
    (columnLineage connection (s.sources.filterMap (namedTable? connection)) c).transformation
  refine ⟨rfl, htarget, rfl, hle, fun t ht => (htables t ht).imp (fun h => ?_) fun h => ?_⟩
  · obtain ⟨name, hname, hread⟩ := Option.bind_eq_some_iff.mp h
    exact ⟨name, hname, readFrom_of_namedTable? hread⟩
  · obtain ⟨name, hname, hread⟩ := List.mem_filterMap.mp h
    exact ⟨name, hname, readFrom_of_namedTable? hread⟩

theorem reflects_analysisOf (connection : Alias) (s : Statement) :
    Reflects connection s (analysisOf connection s) := by
  refine ⟨fun t ht => ?_, ?_, rfl⟩
  · obtain ⟨name, hname, hread⟩ := Option.bind_eq_some_iff.mp ht
    exact ⟨name, hname, readFrom_of_namedTable? hread⟩
  · refine List.forall₂_map_right_iff.mpr (List.forall₂_same.mpr fun c hc => describes_columnLineage ?_)
    simpa using (List.mem_filter.mp hc).2

/-- **Every analysis reflects its answer.**  If the payload of the answer can be read as a statement, the analysis
has the columns of the statement in their order, without those that have a blank target, and each of its
tables is on the connection and read from a name of the statement; the table of a column is the one that
is named for it or one of the sources.  Its name is empty exactly if nothing is left of that name.
Otherwise the analysis has no tables and no columns. -/
theorem analyze_reflects (raw : String) (connection : Alias) (fallback : String) :
    (∃ payload s, payload? raw.toList = some payload ∧
      Json.decode Statement.read (String.ofList payload) = .ok s ∧
        Reflects connection s (analyze raw connection fallback)) ∨
    ((∀ payload s, payload? raw.toList = some payload →
      Json.decode Statement.read (String.ofList payload) ≠ .ok s) ∧
        analyze raw connection fallback = ⟨fallback, none, [], true⟩) := by
  cases hpayload : payload? raw.toList with
  | none =>
    rw [analyze, hpayload]
    exact .inr ⟨fun payload s h => (Option.some_ne_none payload h.symm).elim, rfl⟩
  | some payload =>
    have hanalyze := analyze_of_payload (p := String.ofList payload) (by rw [hpayload, String.toList_ofList])
      connection fallback
    cases hread : Json.decode Statement.read (String.ofList payload) with
    | ok s =>
      rw [hread] at hanalyze
      exact .inl ⟨payload, s, rfl, hread, hanalyze ▸ reflects_analysisOf connection s⟩
    | error e =>
      rw [hread] at hanalyze
      refine .inr ⟨fun p s hp hs => ?_, hanalyze⟩
      rw [← Option.some.inj hp, hread] at hs
      cases hs

/-- An answer about one column without a target and one with the name of a source. -/
theorem analyze_reflects_sample :
    let books : Alias := ⟨"books", by decide⟩
    let raw := "\x7b\"source_tables\": [\"dbo.[orders]\"], \"column_mappings\": " ++
      "[\x7b\"target\": \" \"\x7d, \x7b\"target\": \" id\", \"source_table\": \"Orders\"\x7d]\x7d"
    let column : ColumnStatement := ⟨none, " id", some "Orders", none⟩
    let said : Statement := ⟨none, ["dbo.[orders]"], none, [⟨none, " ", none, none⟩, column]⟩
    (payload? raw.toList = some raw.toList ∧ Json.decode Statement.read raw = .ok said) ∧
    Reflects books said (analyze raw books "") ∧ (analyze raw books "").columns.length = 1 := by
  intro books raw column said
  have hpayload : payload? raw.toList = some raw.toList := by decide +kernel
  have hread : Json.decode Statement.read raw = .ok said := by decide +kernel
  have hreflects : Reflects books said (analyze raw books "") := by
    rcases analyze_reflects raw books "" with ⟨payload, s, hp, hs, h⟩ | ⟨hnone, -⟩
    · obtain rfl : raw.toList = payload := Option.some.inj (hpayload.symm.trans hp)
      rw [String.ofList_toList, hread] at hs
      exact Except.ok.inj hs ▸ h
    · exact absurd hread (String.ofList_toList (s := raw) ▸ hnone raw.toList said hpayload)
  have hkept : (said.columns.filter fun c => !isBlankString c.target).length = 1 := by decide +kernel
  exact ⟨⟨hpayload, hread⟩, hreflects, hreflects.columns.length_eq.symm.trans hkept⟩

/-- A name in quotes with nothing between them becomes the name of a table without a name. -/
theorem not_tables_named :
    ¬∀ (raw : String) (connection : Alias) (fallback : String) (t : Table),
      ((analyze raw connection fallback).target = some t ∨
        ∃ l ∈ (analyze raw connection fallback).columns, t ∈ l.tables.items) → t.name ≠ "" := by
  intro h
  have hname := h "\x7b\"summary\": \"Loads.\", \"target_table\": \"[]\"\x7d" ⟨"books", by decide⟩ ""
    ⟨⟨"books", by decide⟩, "", "", ""⟩ (.inl (by decide +kernel))
  exact hname rfl

end Analyses

end Answer

end TierLineage
