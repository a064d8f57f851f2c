import TierLineage.Proofs.Answer.Constants

/-!
# Copies and renamings

A reference to a column is its name behind at most three qualifiers, and each of these may be quoted.  It holds
nothing that a string, a number or a call needs, so it is classified by its last name alone: a copy if that is
the name of the target up to letter case, and a renaming otherwise.  The one exception is null by itself.
-/

namespace TierLineage.Answer

open TierLineage.Text

/-! ### References -/

/-- The characters that may begin a name. -/
def isNameStart (c : Char) : Bool :=
  c.isAlpha || c == '_'

/-- The characters of a name. -/
def isNameLetter (c : Char) : Bool :=
  c.isAlphanum || c == '_'

/-- A name: a letter or an underscore, and letters, digits and underscores behind it. -/
structure PlainName where
  first : Char
  rest : List Char
  starts : isNameStart first = true
  letters : rest.all isNameLetter = true

/-- The letters of a name. -/
def PlainName.chars (n : PlainName) : List Char :=
  n.first :: n.rest

/-- The ways in which a name may be quoted. -/
inductive Quoting where
  | unquoted
  | brackets
  | quotes
  | backticks
  deriving DecidableEq

/-- A name with the quotes around it. -/
def Quoting.write : Quoting → List Char → List Char
  | unquoted, cs => cs
  | brackets, cs => ['['] ++ cs ++ [']']
  | quotes, cs => ['"'] ++ cs ++ ['"']
  | backticks, cs => ['\x60'] ++ cs ++ ['\x60']

/-- A part of a reference: a name that may be quoted. -/
structure Part where
  name : PlainName
  quoting : Quoting

/-- The text of a part. -/
def Part.text (p : Part) : List Char :=
  p.quoting.write p.name.chars

/-- A reference to a column: its name behind at most three qualifiers. -/
structure Reference where
  qualifiers : List Part
  column : Part
  few : qualifiers.length ≤ 3

namespace Reference

/-- The parts of a reference in their order. -/
def parts (r : Reference) : List (List Char) :=
  (r.qualifiers ++ [r.column]).map Part.text

/-- The text of a reference. -/
def text (r : Reference) : List Char :=
  joined ['.'] r.parts

/-- Whether a reference is null by itself. -/
structure IsNull (r : Reference) : Prop where
  unqualified : r.qualifiers = []
  unquoted : r.column.quoting = .unquoted
  null : r.column.name.chars.map Char.toLower = "null".toList

end Reference

/-! ### Characters -/

section Characters

variable {c : Char} {p : Part} {r : Reference}

/-- Whether a character may stand in the text of a part. -/
def isPartChar (c : Char) : Bool :=
  isNameLetter c || Table.isQuote c

/-- Whether a character may begin the text of a part. -/
def beginsPart (c : Char) : Bool :=
  isNameStart c || Table.isQuote c

theorem lt_of_isAlphanum (h : c.isAlphanum = true) : c.toNat < 0x80 := by
  have hbelow : ∀ {greatest : UInt32}, c.val ≤ greatest → greatest.toNat < 0x80 → c.toNat < 0x80 :=
    fun hle hgreatest => Nat.lt_of_le_of_lt (UInt32.le_iff_toNat_le.mp hle) hgreatest
  -- a letter of either case, or a digit
  rcases Bool.or_eq_true_iff.mp h with hletter | hdigit
  · rcases Bool.or_eq_true_iff.mp hletter with hupper | hlower
    · exact hbelow (of_decide_eq_true hupper).2 (by decide)
    · exact hbelow (of_decide_eq_true (Bool.and_eq_true_iff.mp hlower).2) (by decide)
  · exact hbelow (of_decide_eq_true (Bool.and_eq_true_iff.mp hdigit).2) (by decide)

theorem lt_of_isPartChar (h : isPartChar c = true) : c.toNat < 0x80 := by
  simp only [isPartChar, isNameLetter, Table.isQuote, Bool.or_eq_true, beq_iff_eq] at h
  rcases h with (h | rfl) | ((rfl | rfl) | rfl) | rfl
  · exact lt_of_isAlphanum h
  all_goals decide

/-- What holds of the ASCII characters one by one holds of every one of them. -/
theorem of_ascii {P : Char → Prop} (hall : ∀ n < 0x80, P (Char.ofNat n)) (h : c.toNat < 0x80) : P c := by
  have hc := hall c.toNat h
  rwa [Char.ofNat_toNat] at hc

theorem partChar_spec (h : isPartChar c = true) : isNameChar c = true ∧ isBlank c = false ∧
    c ≠ '.' ∧ c ≠ '(' ∧ c ≠ '\x27' ∧ c ≠ '*' :=
  of_ascii (P := fun c => isPartChar c = true → isNameChar c = true ∧ isBlank c = false ∧
    c ≠ '.' ∧ c ≠ '(' ∧ c ≠ '\x27' ∧ c ≠ '*') (by decide +kernel) (lt_of_isPartChar h) h

theorem isNameLetter_of_isNameStart (h : isNameStart c = true) : isNameLetter c = true := by
  rw [isNameStart, Bool.or_eq_true] at h
  rw [isNameLetter, Bool.or_eq_true]
  exact h.imp_left fun hletter => Bool.or_eq_true_iff.mpr (.inl hletter)

theorem isPartChar_of_beginsPart (h : beginsPart c = true) : isPartChar c = true := by
  rw [beginsPart, Bool.or_eq_true] at h
  rw [isPartChar, Bool.or_eq_true]
  exact h.imp_left isNameLetter_of_isNameStart

theorem beginsPart_spec (h : beginsPart c = true) : isDecimalDigit c = false ∧ c ≠ '-' ∧ c ≠ '+' :=
  of_ascii (P := fun c => beginsPart c = true → isDecimalDigit c = false ∧ c ≠ '-' ∧ c ≠ '+')
    (by decide +kernel) (lt_of_isPartChar (isPartChar_of_beginsPart h)) h

theorem PlainName.isNameLetter_of_mem (n : PlainName) (h : c ∈ n.chars) : isNameLetter c = true := by
  rcases List.mem_cons.mp h with rfl | h
  · exact isNameLetter_of_isNameStart n.starts
  · exact List.all_eq_true.mp n.letters c h

/-- The letters of a name are no quotes. -/
theorem PlainName.isQuote_eq_false (n : PlainName) (h : c ∈ n.chars) : Table.isQuote c = false := by
  rw [Bool.eq_false_iff]
  intro hquote
  have hletter := n.isNameLetter_of_mem h
  simp only [Table.isQuote, Bool.or_eq_true, beq_iff_eq] at hquote
  rcases hquote with ((rfl | rfl) | rfl) | rfl <;> revert hletter <;> decide

end Characters

/-! ### Parts -/

section Parts

variable {c : Char} {p : Part} {cs : List Char}

/-- What stands around a quoted name are quotes. -/
theorem Quoting.exists_write (q : Quoting) : ∃ front back, (∀ cs, q.write cs = front ++ cs ++ back) ∧
    (∀ c ∈ front, Table.isQuote c = true) ∧ (∀ c ∈ back, Table.isQuote c = true) ∧
    (front = [] → q = .unquoted) := by
  have hone : ∀ {c : Char}, Table.isQuote c = true → ∀ d ∈ [c], Table.isQuote d = true := fun hc =>
    List.forall_mem_singleton.mpr hc
  cases q with
  | unquoted => exact ⟨[], [], fun cs => (List.append_nil cs).symm, nofun, nofun, fun _ => rfl⟩
  | brackets => exact ⟨['['], [']'], fun _ => rfl, hone rfl, hone rfl, nofun⟩
  | quotes => exact ⟨['"'], ['"'], fun _ => rfl, hone rfl, hone rfl, nofun⟩
  | backticks => exact ⟨['\x60'], ['\x60'], fun _ => rfl, hone rfl, hone rfl, nofun⟩

/-- A part without the quotes around it is its name. -/
theorem bare_text (p : Part) : bare p.text = p.name.chars := by
  obtain ⟨front, back, hwrite, hfront, hback, -⟩ := p.quoting.exists_write
  rw [Part.text, hwrite, bare]
  refine trimBy_append hfront hback fun c hc => p.name.isQuote_eq_false ?_
  exact hc.elim List.mem_of_head? List.mem_of_getLast?

theorem isPartChar_of_mem (h : c ∈ p.text) : isPartChar c = true := by
  obtain ⟨front, back, hwrite, hfront, hback, -⟩ := p.quoting.exists_write
  rw [Part.text, hwrite, List.mem_append, List.mem_append] at h
  rw [isPartChar, Bool.or_eq_true]
  rcases h with (h | h) | h
  · exact .inr (hfront c h)
  · exact .inl (p.name.isNameLetter_of_mem h)
  · exact .inr (hback c h)

theorem exists_head_text (p : Part) : ∃ c cs, p.text = c :: cs ∧ beginsPart c = true := by
  obtain ⟨front, back, hwrite, hfront, -, -⟩ := p.quoting.exists_write
  rw [Part.text, hwrite]
  cases front with
  | nil => exact ⟨_, _, rfl, by rw [beginsPart, p.name.starts, Bool.true_or]⟩
  | cons c front => exact ⟨c, _, rfl, by rw [beginsPart, hfront c List.mem_cons_self, Bool.or_true]⟩

end Parts

/-! ### Calls -/

section Calls

variable {cs name rest : List Char}

theorem afterName?_suffix (h : afterName? cs name = some rest) : rest <:+ cs := by
  fun_induction afterName? cs name with
  | case1 =>
    cases h
    exact List.suffix_rfl
  | case2 => cases h
  | case3 c cs n ns hletter ih => exact (ih h).trans (List.suffix_cons c cs)
  | case4 => cases h

/-- A text without parentheses calls nothing. -/
theorem calls_eq_false {names : List (List Char)} {inWord : Bool} (h : '(' ∉ cs) :
    calls names inWord cs = false := by
  induction cs generalizing inWord with
  | nil => rfl
  | cons c cs ih =>
    have hstarts : startsCall names (c :: cs) = false := by
      rw [startsCall, List.any_eq_false]
      intro name hname
      split
      · next rest hafter =>
        intro hhead
        have hmem : '(' ∈ rest :=
          (List.dropWhile_sublist isBlank).subset (List.mem_of_head? (beq_iff_eq.mp hhead))
        exact h ((afterName?_suffix hafter).subset hmem)
      · nofun
    rw [calls, hstarts, ih (List.not_mem_of_not_mem_cons h), Bool.and_false, Bool.or_false]

end Calls

/-! ### References -/

section References

variable {c : Char} {r : Reference}

theorem Reference.isPartChar_of_mem (h : c ∈ r.text) : c = '.' ∨ isPartChar c = true := by
  refine (mem_of_mem_joined h).imp_right fun ⟨p, hp, hc⟩ => ?_
  obtain ⟨q, -, rfl⟩ := List.mem_map.mp hp
  exact Answer.isPartChar_of_mem hc

theorem Reference.not_mem_text (hdot : c ≠ '.') (hc : isPartChar c = false) : c ∉ r.text := by
  intro hmem
  rcases r.isPartChar_of_mem hmem with h | h
  · exact hdot h
  · rw [hc] at h
    cases h

theorem Reference.pieces_text (r : Reference) : pieces '.' r.text = r.parts := by
  refine pieces_joined (by simp [parts]) fun p hp hdot => ?_
  obtain ⟨q, -, rfl⟩ := List.mem_map.mp hp
  exact absurd (Answer.isPartChar_of_mem hdot) (by decide)

theorem Reference.exists_head (r : Reference) : ∃ c cs, r.text = c :: cs ∧ beginsPart c = true := by
  obtain ⟨p, ps, hparts⟩ : ∃ p ps, r.qualifiers ++ [r.column] = p :: ps :=
    List.exists_cons_of_ne_nil (by simp)
  obtain ⟨c, cs, hp, hc⟩ := exists_head_text p
  rw [text, parts, hparts, List.map_cons, hp]
  cases ps with
  | nil => exact ⟨c, cs, rfl, hc⟩
  | cons q ps => exact ⟨c, _, rfl, hc⟩

/-- White space around a reference is dropped. -/
theorem Reference.trim_text (r : Reference) {front back : List Char} (hfront : ∀ c ∈ front, isBlank c = true)
    (hback : ∀ c ∈ back, isBlank c = true) : trim (front ++ r.text ++ back) = r.text := by
  refine trimBy_append hfront hback fun c hc => ?_
  rcases r.isPartChar_of_mem (hc.elim List.mem_of_head? List.mem_of_getLast?) with rfl | hpart
  · decide
  · exact (partChar_spec hpart).2.1

theorem Reference.isQuoted_text (r : Reference) : isQuoted r.text = false := by
  rw [isQuoted, Bool.and_eq_false_iff]
  refine .inr (beq_false_of_ne fun hlast => ?_)
  exact r.not_mem_text (by decide) (by decide) (List.mem_of_getLast? hlast)

theorem Reference.isNumber_text (r : Reference) : isNumber r.text = false := by
  rw [Bool.eq_false_iff]
  intro hnumber
  obtain ⟨c, cs, htext, hc⟩ := r.exists_head
  obtain ⟨hdigit, hminus, hplus⟩ := beginsPart_spec hc
  obtain ⟨d, hd, hsign⟩ := (isNumber_iff.mp hnumber).exists_head?
  rw [htext] at hd
  obtain rfl : c = d := Option.some.inj hd
  rcases hsign with h | h | h
  · exact hminus h
  · exact hplus h
  · rw [hdigit] at h
    cases h

theorem Reference.text_of_unqualified (h : r.qualifiers = []) : r.text = r.column.text := by
  rw [text, parts, h]
  rfl

/-- A reference spells null only by itself. -/
theorem Reference.isNull_iff : r.text.map Char.toLower = "null".toList ↔ r.IsNull := by
  constructor
  · intro h
    have hletter : ∀ {c : Char}, c ∈ r.text → c.toLower ∈ "null".toList := fun {c} hc =>
      h ▸ List.mem_map_of_mem hc
    have hqualifiers : r.qualifiers = [] := by
      cases hq : r.qualifiers with
      | nil => rfl
      | cons q qs =>
        obtain ⟨p, ps, hps⟩ := List.exists_cons_of_ne_nil (by simp : qs ++ [r.column] ≠ [])
        have hdot : '.' ∈ r.text := by
          rw [text, parts, hq, List.cons_append, hps, List.map_cons, List.map_cons, joined]
          simp
        exact absurd (hletter hdot) (by decide)
    have htext := r.text_of_unqualified hqualifiers
    obtain ⟨front, back, hwrite, hfront, -, hunquoted⟩ := r.column.quoting.exists_write
    have hquoting : r.column.quoting = .unquoted := by
      refine hunquoted (List.eq_nil_iff_forall_not_mem.mpr fun c hc => ?_)
      have hmem : c ∈ r.text := by
        rw [htext, Part.text, hwrite]
        exact List.mem_append_left _ (List.mem_append_left _ hc)
      have hquote := hfront c hc
      simp only [Table.isQuote, Bool.or_eq_true, beq_iff_eq] at hquote
      rcases hquote with ((rfl | rfl) | rfl) | rfl <;> exact absurd (hletter hmem) (by decide)
    refine ⟨hqualifiers, hquoting, ?_⟩
    rwa [htext, Part.text, hquoting] at h
  · rintro ⟨hqualifiers, hquoting, hnull⟩
    rwa [r.text_of_unqualified hqualifiers, Part.text, hquoting]

theorem Reference.isColumnName_text (r : Reference) : isColumnName r.text = true := by
  rw [isColumnName, r.pieces_text, Bool.and_eq_true, decide_eq_true_eq, List.all_eq_true]
  constructor
  · have hfew := r.few
    simp only [parts, List.length_map, List.length_append, List.length_singleton]
    omega
  · intro p hp
    obtain ⟨q, -, rfl⟩ := List.mem_map.mp hp
    obtain ⟨c, cs, hq, -⟩ := exists_head_text q
    have hchars : q.text.all isNameChar = true :=
      List.all_eq_true.mpr fun d hd => (partChar_spec (Answer.isPartChar_of_mem hd)).1
    rw [hchars, hq]
    rfl

theorem Reference.lastPart_text (r : Reference) : lastPart r.text = r.column.text := by
  rw [lastPart, r.pieces_text, parts, List.map_append, List.getLastD_eq_getLast?, List.map_singleton,
    List.getLast?_concat]
  rfl

/-- **A reference is a copy or a renaming by its last name.**  White space around it, qualifiers and quotes make no
difference; only null by itself is a constant. -/
theorem infer_reference (r : Reference) (target : Part) {front back : List Char}
    (hfront : ∀ c ∈ front, isBlank c = true) (hback : ∀ c ∈ back, isBlank c = true) :
    (r.IsNull → infer (front ++ r.text ++ back) target.text = .constant) ∧
    (¬r.IsNull →
      (r.column.name.chars.map Char.toLower = target.name.chars.map Char.toLower →
        infer (front ++ r.text ++ back) target.text = .direct) ∧
      (r.column.name.chars.map Char.toLower ≠ target.name.chars.map Char.toLower →
        infer (front ++ r.text ++ back) target.text = .rename)) := by
  have hliteral : isLiteral r.text = true ↔ r.IsNull := by
    have hlower : "null".toList.map Char.toLower = "null".toList := by decide
    rw [isLiteral, r.isQuoted_text, r.isNumber_text, Bool.false_or, Bool.false_or, sameIgnoringCase,
      beq_iff_eq, hlower, r.isNull_iff]
  have hcopy : ¬(r.text.isEmpty = true ∨ r.text = ['*']) := by
    obtain ⟨c, cs, htext, -⟩ := r.exists_head
    rintro (hempty | hstar)
    · rw [htext] at hempty
      cases hempty
    · exact r.not_mem_text (c := '*') (by decide) (by decide) (hstar ▸ List.mem_singleton_self _)
  have hcalls : ∀ names, calls names false r.text = false := fun names =>
    calls_eq_false (r.not_mem_text (by decide) (by decide))
  constructor
  · intro hnull
    rw [infer_eq_constant_iff, r.trim_text hfront hback]
    exact hliteral.mpr hnull
  · intro hnull
    have hinfer : infer (front ++ r.text ++ back) target.text =
        if sameIgnoringCase r.column.name.chars target.name.chars then .direct else .rename := by
      rw [infer, r.trim_text hfront hback, if_neg hcopy, if_neg (hliteral.not.mpr hnull), hcalls, hcalls,
        r.isColumnName_text, r.lastPart_text, bare_text, bare_text]
      rfl
    rw [hinfer, sameIgnoringCase]
    exact ⟨fun h => if_pos (beq_iff_eq.mpr h), fun h => if_neg (fun hsame => h (beq_iff_eq.mp hsame))⟩

/-- Three references of one column: to a target of its name, to one of another name, and null by itself. -/
theorem infer_reference_sample :
    let name : PlainName := ⟨'C', "ode_1".toList, by decide, by decide⟩
    let dbo : PlainName := ⟨'d', "bo".toList, by decide, by decide⟩
    let null : PlainName := ⟨'N', "ull".toList, by decide, by decide⟩
    let qualified : Reference := ⟨[⟨dbo, .brackets⟩, ⟨null, .unquoted⟩], ⟨name, .quotes⟩, by decide⟩
    let bareNull : Reference := ⟨[], ⟨null, .unquoted⟩, by decide⟩
    ((∀ c ∈ " ".toList, isBlank c = true) ∧ (∀ c ∈ "\n".toList, isBlank c = true) ∧ ¬qualified.IsNull ∧
      bareNull.IsNull ∧ qualified.text = "[dbo].Null.\"Code_1\"".toList) ∧
    infer (" ".toList ++ qualified.text ++ "\n".toList) "[code_1]".toList = .direct ∧
    infer (" ".toList ++ qualified.text ++ "\n".toList) "dbo".toList = .rename ∧
    infer (" ".toList ++ bareNull.text ++ "\n".toList) "dbo".toList = .constant := by
  intro name dbo null qualified bareNull
  have hfront : ∀ c ∈ " ".toList, isBlank c = true := List.forall_mem_singleton.mpr rfl
  have hback : ∀ c ∈ "\n".toList, isBlank c = true := List.forall_mem_singleton.mpr rfl
  have hnot : ¬qualified.IsNull := fun h => absurd h.unqualified (List.cons_ne_nil _ _)
  have hnull : bareNull.IsNull := ⟨rfl, rfl, by decide⟩
  have hcode := (infer_reference qualified ⟨⟨'c', "ode_1".toList, by decide, by decide⟩, .brackets⟩
    hfront hback).2 hnot
  have hdbo := (infer_reference qualified ⟨dbo, .unquoted⟩ hfront hback).2 hnot
  exact ⟨⟨hfront, hback, hnot, hnull, by decide⟩, hcode.1 (by decide), hdbo.2 (by decide),
    (infer_reference bareNull ⟨dbo, .unquoted⟩ hfront hback).1 hnull⟩

end References

end TierLineage.Answer
