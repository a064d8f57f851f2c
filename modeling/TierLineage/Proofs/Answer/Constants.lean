import TierLineage.Answer.Analysis
import TierLineage.Proofs.Text.Parts

/-!
# Constants

An expression is a constant if it is a single literal: null, a decimal number, or a string in which every quote
is doubled.  Every literal is recognized.  What looks like a string at both ends is taken for one, though,
whatever stands in between; so a column that is put together from strings and other columns loses the
tables that it comes from.
-/

namespace TierLineage.Answer

open TierLineage.Text

/-! ### Strings -/

section Strings

variable {cs inner text opening : List Char}

/-- How a string opens. -/
def openings : List (List Char) :=
  [['\x27'], ['N', '\x27']]

/-- A text as it stands inside a string, where a quote is written twice. -/
def doubled (text : List Char) : List Char :=
  text.flatMap fun c => if c = '\x27' then ['\x27', '\x27'] else [c]

/-- Whether the quotes of a text stand in pairs. -/
def isDoubled : List Char → Bool
  | [] => true
  | '\x27' :: '\x27' :: cs => isDoubled cs
  | c :: cs => c != '\x27' && isDoubled cs

theorem isDoubled_cons {c : Char} (hc : c ≠ '\x27') (cs : List Char) :
    isDoubled (c :: cs) = isDoubled cs := by
  simp [isDoubled, hc]

theorem doubled_cons {c : Char} (hc : c ≠ '\x27') (text : List Char) :
    doubled (c :: text) = c :: doubled text := by
  rw [doubled, List.flatMap_cons, if_neg hc]
  rfl

theorem isDoubled_doubled_append (text cs : List Char) :
    isDoubled (doubled text ++ cs) = isDoubled cs := by
  induction text with
  | nil => rfl
  | cons c text ih =>
    by_cases hc : c = '\x27'
    · subst hc
      exact ih
    · rw [doubled_cons hc, List.cons_append, isDoubled_cons hc, ih]

/-- Quotes in pairs are those of a text that is written with doubled quotes. -/
theorem isDoubled_iff : isDoubled cs = true ↔ ∃ text, cs = doubled text := by
  constructor
  · intro h
    fun_induction isDoubled cs with
    | case1 => exact ⟨[], rfl⟩
    | case2 cs ih =>
      obtain ⟨text, rfl⟩ := ih h
      exact ⟨'\x27' :: text, rfl⟩
    | case3 c cs hpair ih =>
      obtain ⟨hc, hcs⟩ := Bool.and_eq_true_iff.mp h
      obtain ⟨text, rfl⟩ := ih hcs
      exact ⟨c :: text, (doubled_cons (bne_iff_ne.mp hc) text).symm⟩
  · rintro ⟨text, rfl⟩
    rw [← List.append_nil (doubled text), isDoubled_doubled_append]
    rfl

/-- A string with a text in it. -/
def written (opening text : List Char) : List Char :=
  opening ++ doubled text ++ ['\x27']

/-- Whether an expression starts and ends like a string without being one: it is nothing but the opening, or a
quote inside it stands alone. -/
inductive Misread : List Char → Prop
  | opening {opening : List Char} (hopening : opening ∈ openings) : Misread opening
  | inner {opening inner : List Char} (hopening : opening ∈ openings) (hinner : ∀ text, inner ≠ doubled text) :
      Misread (opening ++ inner ++ ['\x27'])

theorem getLast?_of_mem_openings : ∀ o ∈ openings, o.getLast? = some '\x27' := by
  decide

theorem Misread.getLast? (h : Misread cs) : cs.getLast? = some '\x27' := by
  cases h with
  | opening hopening => exact getLast?_of_mem_openings _ hopening
  | inner => exact List.getLast?_concat

theorem append_inj_of_openings {o o' cs ds : List Char} (ho : o ∈ openings) (ho' : o' ∈ openings)
    (h : o ++ cs = o' ++ ds) : o = o' ∧ cs = ds := by
  simp only [openings, List.mem_cons, List.not_mem_nil, or_false] at ho ho'
  rcases ho with rfl | rfl <;> rcases ho' with rfl | rfl
  · exact ⟨rfl, List.append_cancel_left h⟩
  · exact absurd (List.cons.inj h).1 (by decide)
  · exact absurd (List.cons.inj h).1 (by decide)
  · exact ⟨rfl, List.append_cancel_left h⟩

/-- What is misread is no string. -/
theorem Misread.ne_written (h : Misread cs) (hopening : opening ∈ openings) (text : List Char) :
    cs ≠ written opening text := by
  intro heq
  rw [written, List.append_assoc] at heq
  cases h with
  | opening ho =>
    rw [← List.append_nil cs] at heq
    obtain ⟨-, hnil⟩ := append_inj_of_openings ho hopening heq
    exact List.append_ne_nil_of_right_ne_nil _ (List.cons_ne_nil _ _) hnil.symm
  | inner ho hinner =>
    rw [List.append_assoc] at heq
    obtain ⟨-, hsame⟩ := append_inj_of_openings ho hopening heq
    exact hinner text (List.append_cancel_right hsame)

/-- What starts and ends like a string is one, or else it is misread. -/
theorem isQuoted_iff : isQuoted cs = true ↔ (∃ o ∈ openings, ∃ text, cs = written o text) ∨ Misread cs := by
  have hends : isQuoted cs = true ↔ (∃ o ∈ openings, o <+: cs) ∧ cs.getLast? = some '\x27' := by
    simp [isQuoted, openings, startsWith_iff]
  rw [hends]
  constructor
  · rintro ⟨⟨o, ho, rest, rfl⟩, hlast⟩
    rcases List.eq_nil_or_concat rest with rfl | ⟨inner, c, rfl⟩
    · rw [List.append_nil]
      exact .inr (.opening ho)
    · rw [List.concat_eq_append, ← List.append_assoc] at hlast ⊢
      obtain rfl : c = '\x27' := by simpa using hlast
      by_cases hinner : ∃ text, inner = doubled text
      · obtain ⟨text, rfl⟩ := hinner
        exact .inl ⟨o, ho, text, rfl⟩
      · exact .inr (.inner ho (not_exists.mp hinner))
  · rintro (⟨o, ho, text, rfl⟩ | h)
    · refine ⟨⟨o, ho, ?_⟩, List.getLast?_concat⟩
      rw [written, List.append_assoc]
      exact List.prefix_append ..
    · refine ⟨?_, h.getLast?⟩
      cases h with
      | opening ho => exact ⟨cs, ho, List.prefix_rfl⟩
      | inner ho => exact ⟨_, ho, by rw [List.append_assoc]; exact List.prefix_append ..⟩

/-- Strings with something between them that holds no quote are misread. -/
theorem misread_concatenation {o first middle last : List Char} (ho : o ∈ openings) (hne : middle ≠ [])
    (hmiddle : '\x27' ∉ middle) : Misread (written o first ++ middle ++ written ['\x27'] last) := by
  have hinner : ∀ text, doubled first ++ '\x27' :: (middle ++ '\x27' :: doubled last) ≠ doubled text := by
    intro text heq
    have hdoubled := isDoubled_iff.mpr ⟨text, heq⟩
    obtain ⟨c, middle, rfl⟩ := List.exists_cons_of_ne_nil hne
    have hc : c ≠ '\x27' := fun h => hmiddle (h ▸ List.mem_cons_self)
    rw [isDoubled_doubled_append] at hdoubled
    simp [isDoubled, hc] at hdoubled
  have hparts : written o first ++ middle ++ written ['\x27'] last =
      o ++ (doubled first ++ '\x27' :: (middle ++ '\x27' :: doubled last)) ++ ['\x27'] := by
    simp [written]
  rw [hparts]
  exact .inner ho hinner

end Strings

/-! ### Numbers -/

section Numbers

variable {cs sign digits : List Char}

/-- The signs that a number may have. -/
def signs : List (List Char) :=
  [[], ['-'], ['+']]

/-- Whether a text consists of one or more digits. -/
def IsDigits (cs : List Char) : Prop :=
  cs ≠ [] ∧ ∀ c ∈ cs, isDecimalDigit c = true

/-- Whether a text is a decimal number: digits, with a sign, a point and more digits if need be. -/
inductive IsDecimal : List Char → Prop
  | whole {sign digits : List Char} (hsign : sign ∈ signs) (hdigits : IsDigits digits) :
      IsDecimal (sign ++ digits)
  | fraction {sign digits fraction : List Char} (hsign : sign ∈ signs) (hdigits : IsDigits digits)
      (hfraction : IsDigits fraction) : IsDecimal (sign ++ (digits ++ '.' :: fraction))

theorem allDigits_iff : allDigits cs = true ↔ IsDigits cs := by
  simp [allDigits, IsDigits]

/-- A number without its sign. -/
def unsigned : List Char → List Char
  | '-' :: cs => cs
  | '+' :: cs => cs
  | cs => cs

/-- Whether a text is a number without a sign. -/
def isUnsigned (cs : List Char) : Bool :=
  match cs.dropWhile isDecimalDigit with
  | [] => allDigits cs
  | '.' :: fraction => allDigits (cs.takeWhile isDecimalDigit) && allDigits fraction
  | _ => false

theorem isNumber_eq (cs : List Char) : isNumber cs = isUnsigned (unsigned cs) := rfl

theorem isUnsigned_iff : isUnsigned cs = true ↔ ∃ digits, IsDigits digits ∧
    (cs = digits ∨ ∃ fraction, IsDigits fraction ∧ cs = digits ++ '.' :: fraction) := by
  constructor
  · intro h
    rw [isUnsigned] at h
    split at h
    · exact ⟨cs, allDigits_iff.mp h, .inl rfl⟩
    · next fraction hdrop =>
      obtain ⟨hdigits, hfraction⟩ := Bool.and_eq_true_iff.mp h
      refine ⟨_, allDigits_iff.mp hdigits, .inr ⟨fraction, allDigits_iff.mp hfraction, ?_⟩⟩
      rw [← hdrop, List.takeWhile_append_dropWhile]
    · cases h
  · rintro ⟨digits, hdigits, rfl | ⟨fraction, hfraction, rfl⟩⟩
    · have hdrop : cs.dropWhile isDecimalDigit = [] := List.dropWhile_eq_nil_iff.mpr hdigits.2
      rw [isUnsigned, hdrop]
      exact allDigits_iff.mpr hdigits
    · have hdrop : (digits ++ '.' :: fraction).dropWhile isDecimalDigit = '.' :: fraction := by
        rw [List.dropWhile_append_of_pos hdigits.2]
        rfl
      have htake : (digits ++ '.' :: fraction).takeWhile isDecimalDigit = digits := by
        rw [List.takeWhile_append_of_pos hdigits.2]
        exact List.append_nil digits
      rw [isUnsigned, hdrop, htake]
      exact Bool.and_eq_true_iff.mpr ⟨allDigits_iff.mpr hdigits, allDigits_iff.mpr hfraction⟩

theorem exists_sign (cs : List Char) : ∃ sign ∈ signs, cs = sign ++ unsigned cs := by
  rw [unsigned.eq_def]
  split
  · exact ⟨['-'], by decide, rfl⟩
  · exact ⟨['+'], by decide, rfl⟩
  · exact ⟨[], by decide, rfl⟩

/-- A sign is told from the digit behind it. -/
theorem unsigned_append (hsign : sign ∈ signs) (hdigits : IsDigits digits) (rest : List Char) :
    unsigned (sign ++ (digits ++ rest)) = digits ++ rest := by
  obtain ⟨hne, hall⟩ := hdigits
  simp only [signs, List.mem_cons, List.not_mem_nil, or_false] at hsign
  rcases hsign with rfl | rfl | rfl
  · obtain ⟨d, digits, rfl⟩ := List.exists_cons_of_ne_nil hne
    have hd : isDecimalDigit d = true := hall d List.mem_cons_self
    rw [List.nil_append, List.cons_append, unsigned.eq_def]
    split
    · next heq =>
      rw [(List.cons.inj heq).1] at hd
      exact absurd hd (by decide)
    · next heq =>
      rw [(List.cons.inj heq).1] at hd
      exact absurd hd (by decide)
    · rfl
  · rfl
  · rfl

theorem isNumber_iff : isNumber cs = true ↔ IsDecimal cs := by
  rw [isNumber_eq]
  constructor
  · intro h
    obtain ⟨sign, hsign, hcs⟩ := exists_sign cs
    rw [hcs]
    obtain ⟨digits, hdigits, hwhole | ⟨fraction, hfraction, hwhole⟩⟩ := isUnsigned_iff.mp h
    · rw [hwhole]
      exact .whole hsign hdigits
    · rw [hwhole]
      exact .fraction hsign hdigits hfraction
  · intro h
    rw [isUnsigned_iff]
    cases h with
    | whole hsign hdigits =>
      have hunsigned := unsigned_append hsign hdigits []
      rw [List.append_nil] at hunsigned
      exact ⟨_, hdigits, .inl hunsigned⟩
    | fraction hsign hdigits hfraction =>
      exact ⟨_, hdigits, .inr ⟨_, hfraction, unsigned_append hsign hdigits _⟩⟩

theorem IsDecimal.exists_getLast? (h : IsDecimal cs) : ∃ c, cs.getLast? = some c ∧ isDecimalDigit c = true := by
  have hlast : ∀ {front digits : List Char}, IsDigits digits →
      ∃ c, (front ++ digits).getLast? = some c ∧ isDecimalDigit c = true := by
    intro front digits hdigits
    refine ⟨digits.getLast hdigits.1, ?_, hdigits.2 _ (List.getLast_mem _)⟩
    rw [List.getLast?_append_of_ne_nil _ hdigits.1, List.getLast?_eq_some_getLast]
  cases h with
  | whole hsign hdigits => exact hlast hdigits
  | @fraction sign digits fraction hsign hdigits hfraction =>
    have hparts : sign ++ (digits ++ '.' :: fraction) = sign ++ (digits ++ ['.']) ++ fraction := by simp
    rw [hparts]
    exact hlast hfraction

theorem IsDecimal.exists_head? (h : IsDecimal cs) :
    ∃ c, cs.head? = some c ∧ (c = '-' ∨ c = '+' ∨ isDecimalDigit c = true) := by
  have hhead : ∀ {sign digits rest : List Char}, sign ∈ signs → IsDigits digits →
      ∃ c, (sign ++ (digits ++ rest)).head? = some c ∧ (c = '-' ∨ c = '+' ∨ isDecimalDigit c = true) := by
    intro sign digits rest hsign hdigits
    obtain ⟨d, digits, rfl⟩ := List.exists_cons_of_ne_nil hdigits.1
    simp only [signs, List.mem_cons, List.not_mem_nil, or_false] at hsign
    rcases hsign with rfl | rfl | rfl
    · exact ⟨d, rfl, .inr (.inr (hdigits.2 d List.mem_cons_self))⟩
    · exact ⟨'-', rfl, .inl rfl⟩
    · exact ⟨'+', rfl, .inr (.inl rfl)⟩
  cases h with
  | @whole sign digits hsign hdigits =>
    rw [← List.append_nil digits]
    exact hhead hsign hdigits
  | fraction hsign hdigits hfraction => exact hhead hsign hdigits

end Numbers

/-! ### Literals -/

section Literals

variable {cs expression target : List Char}

/-- The expressions that are a single literal. -/
inductive IsLiteral : List Char → Prop
  | null {cs : List Char} (h : cs.map Char.toLower = "null".toList) : IsLiteral cs
  | number {cs : List Char} (h : IsDecimal cs) : IsLiteral cs
  | string {opening : List Char} (hopening : opening ∈ openings) (text : List Char) :
      IsLiteral (written opening text)

theorem isLiteral_iff : isLiteral cs = true ↔ IsLiteral cs ∨ Misread cs := by
  rw [isLiteral, Bool.or_eq_true, Bool.or_eq_true, isQuoted_iff, isNumber_iff, sameIgnoringCase, beq_iff_eq]
  constructor
  · rintro (((⟨o, ho, text, rfl⟩ | h) | h) | h)
    · exact .inl (.string ho text)
    · exact .inr h
    · exact .inl (.number h)
    · exact .inl (.null h)
  · rintro (h | h)
    · cases h with
      | null h => exact .inr h
      | number h => exact .inl (.inr h)
      | string ho text => exact .inl (.inl (.inl ⟨_, ho, text, rfl⟩))
    · exact .inl (.inl (.inr h))

theorem Misread.not_isLiteral (h : Misread cs) : ¬IsLiteral cs := by
  intro hliteral
  have hlast := h.getLast?
  cases hliteral with
  | null hnull =>
    have hlower := congrArg List.getLast? hnull
    rw [List.getLast?_map, hlast] at hlower
    exact absurd hlower (by decide)
  | number hnumber =>
    obtain ⟨c, hc, hdigit⟩ := hnumber.exists_getLast?
    obtain rfl : c = '\x27' := Option.some.inj (hc.symm.trans hlast)
    exact absurd hdigit (by decide)
  | string hopening text => exact h.ne_written hopening text rfl

/-- An expression is classified as a constant exactly if it is taken for a literal. -/
theorem infer_eq_constant_iff : infer expression target = .constant ↔ isLiteral (trim expression) = true := by
  rw [infer]
  split
  · next hcopy =>
    refine iff_of_false nofun ?_
    rcases hcopy with h | h
    · rw [List.isEmpty_iff.mp h]
      decide
    · rw [h]
      decide
  · split
    · next hliteral => exact iff_of_true rfl hliteral
    · next hliteral =>
      refine iff_of_false ?_ hliteral
      split_ifs <;> nofun

end Literals

/-! ### Columns -/

section Columns

variable {connection : Alias} {c : ColumnStatement}

/-- Whether an answer does not tell how a column comes about, nor a table that it comes from. -/
structure ColumnStatement.Silent (connection : Alias) (c : ColumnStatement) : Prop where
  table : c.table.bind (namedTable? connection) = none
  transformation : (c.transformation.bind fun t => (Named.parse (α := Transformation) t).toOption) = none

/-- A column of which nothing is told comes from the only source, unless it is constant. -/
theorem tables_of_silent (hc : c.Silent connection) (source : Table) :
    (columnLineage connection [source] c).tables.items =
      if isLiteral (trim (c.source.getD "").toList) then [] else [source] := by
  simp only [columnLineage, hc.transformation, Option.getD_none, trimString, String.toList_ofList,
    columnTables, hc.table, infer_eq_constant_iff, trim_trim]
  split <;> rfl

/-- **What passes for a constant.**  An expression is taken for a constant exactly if it is a single literal or
misread as one; so only literals are constants except where one is misread.  Misread are among others all
expressions that start and end with a string and have something without quotes in between.  A column of
which nothing but its expression is told loses its only source exactly if the expression is a literal or
misread. -/
theorem constant_iff_literal_or_misread (expression target : List Char) :
    (infer expression target = .constant ↔ IsLiteral (trim expression) ∨ Misread (trim expression)) ∧
    ((infer expression target = .constant → IsLiteral (trim expression)) ↔ ¬Misread (trim expression)) ∧
    (∀ o ∈ openings, ∀ first middle last : List Char, middle ≠ [] → '\x27' ∉ middle →
      trim expression = written o first ++ middle ++ written ['\x27'] last → Misread (trim expression)) ∧
    ∀ (connection : Alias) (source : Table) (c : ColumnStatement), c.Silent connection →
      (c.source.getD "").toList = expression →
        (IsLiteral (trim expression) ∨ Misread (trim expression) →
          (columnLineage connection [source] c).tables.items = []) ∧
        (¬(IsLiteral (trim expression) ∨ Misread (trim expression)) →
          (columnLineage connection [source] c).tables.items = [source]) := by
  have hconstant : infer expression target = .constant ↔
      IsLiteral (trim expression) ∨ Misread (trim expression) := infer_eq_constant_iff.trans isLiteral_iff
  refine ⟨hconstant, ⟨fun h hmisread => ?_, fun h hinfer => ?_⟩, fun o ho first middle last hne hmiddle heq => ?_,
    fun connection source c hc hsource => ?_⟩
  · exact hmisread.not_isLiteral (h (hconstant.mpr (.inr hmisread)))
  · exact (hconstant.mp hinfer).resolve_right h
  · rw [heq]
    exact misread_concatenation ho hne hmiddle
  · rw [tables_of_silent hc, hsource]
    refine ⟨fun h => if_pos (isLiteral_iff.mpr h), fun h => if_neg ?_⟩
    rwa [isLiteral_iff]

/-- A column between two strings loses its source, and a column by itself does not. -/
theorem constant_iff_literal_or_misread_sample :
    let books : Alias := ⟨"books", by decide⟩
    let orders : Table := ⟨books, "", "dbo", "orders"⟩
    let label : ColumnStatement := ⟨some "'A' + code + 'Z'", "label", none, none⟩
    let code : ColumnStatement := ⟨some "code", "label", none, none⟩
    (['\x27'] ∈ openings ∧ " + code + ".toList ≠ [] ∧ '\x27' ∉ " + code + ".toList ∧ label.Silent books ∧
      code.Silent books ∧ ¬(IsLiteral (trim "code".toList) ∨ Misread (trim "code".toList))) ∧
    Misread (trim "'A' + code + 'Z'".toList) ∧ infer "'A' + code + 'Z'".toList "label".toList = .constant ∧
    (columnLineage books [orders] label).tables.items = [] ∧
    (columnLineage books [orders] code).tables.items = [orders] := by
  intro books orders label code
  obtain ⟨hconstant, -, hconcatenation, hlost⟩ :=
    constant_iff_literal_or_misread "'A' + code + 'Z'".toList "label".toList
  obtain ⟨-, -, -, hkept⟩ := constant_iff_literal_or_misread "code".toList "label".toList
  have hopening : ['\x27'] ∈ openings := by decide
  have hnone : ¬(IsLiteral (trim "code".toList) ∨ Misread (trim "code".toList)) := by
    rw [← isLiteral_iff]
    decide +kernel
  have hlabel : label.Silent books := ⟨rfl, rfl⟩
  have hcode : code.Silent books := ⟨rfl, rfl⟩
  have hmisread : Misread (trim "'A' + code + 'Z'".toList) :=
    hconcatenation ['\x27'] hopening "A".toList " + code + ".toList "Z".toList (by decide) (by decide)
      (by decide +kernel)
  exact ⟨⟨hopening, by decide, by decide, hlabel, hcode, hnone⟩, hmisread, hconstant.mpr (.inr hmisread),
    (hlost books orders label hlabel rfl).1 (.inr hmisread), (hkept books orders code hcode rfl).2 hnone⟩

/-- Not everything that passes for a constant is a literal. -/
theorem not_constants_literal :
    ¬∀ expression target : List Char, infer expression target = .constant → IsLiteral (trim expression) := by
  intro h
  have hliteral : IsLiteral (trim "'A' + code + 'Z'".toList) :=
    h "'A' + code + 'Z'".toList "label".toList (by decide +kernel)
  have hmisread : Misread (written ['\x27'] "A".toList ++ " + code + ".toList ++ written ['\x27'] "Z".toList) :=
    misread_concatenation (by decide) (by decide) (by decide)
  exact hmisread.not_isLiteral hliteral

end Columns

end TierLineage.Answer
