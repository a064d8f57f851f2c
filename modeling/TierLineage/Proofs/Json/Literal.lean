import Mathlib.Tactic.Common
import TierLineage.Json.Reader
import TierLineage.Json.Printer

/-!
# The leaves of written data are read back

The digits of a hexadecimal number spell it, the literal of a string spells the string, and the text
of a numeral denotes the numeral, whatever follows it in a container.
-/

namespace TierLineage

open TierLineage.Digest

/-! ### Hexadecimal digits -/

namespace Digest

theorem hexValue?_hexDigit {n : Nat} (h : n < 16) : hexValue? (hexDigit n) = some n := by
  revert n
  decide

theorem hexNumber?_hexDigits (width : Nat) {n : Nat} (h : n < Nat.pow 16 width) :
    hexNumber? (hexDigits width n) = some n := by
  induction width generalizing n with
  | zero =>
    obtain rfl : n = 0 := by simpa using h
    rfl
  | succ w ih =>
    have hdiv : n / 16 < Nat.pow 16 w := by
      refine Nat.div_lt_of_lt_mul ?_
      rwa [Nat.mul_comm]
    have hlead : hexNumber? (hexDigits w (n / 16)) = some (n / 16) := ih hdiv
    rw [hexNumber?] at hlead ⊢
    rw [hexDigits, List.foldlM_append, hlead]
    have hlast := hexValue?_hexDigit (Nat.mod_lt n (by decide : 0 < 16))
    simp [hlast, Nat.div_add_mod]
end Digest

/-! ### Strings -/

namespace Json.Parser

theorem unitPiece_of_lt {n : Nat} (h : n < 0xD800) : unitPiece n = .char (Char.ofNat n) :=
  if_neg (by omega)

theorem pieces_hexDigits {n : Nat} {cs rest : List Char} {ps : List Piece} (hn : n < 0xD800)
    (h : pieces cs = some (ps, rest)) :
    pieces ('\\' :: 'u' :: (hexDigits 4 n ++ cs)) = some (.char (Char.ofNat n) :: ps, rest) := by
  have hnumber := hexNumber?_hexDigits 4 (n := n) (Nat.lt_trans hn (by decide))
  simp only [hexDigits, List.nil_append, List.cons_append] at hnumber ⊢
  simp [pieces, hnumber, h, unitPiece_of_lt hn]

theorem pieces_escaped {c : Char} {cs rest : List Char} {ps : List Piece}
    (h : pieces cs = some (ps, rest)) : pieces (escaped c ++ cs) = some (.char c :: ps, rest) := by
  unfold escaped
  split_ifs with h₁ h₂ h₃ h₄ h₅ h₆ h₇ h₈
  · simp [pieces, shortEscape?, h, h₁]
  · simp [pieces, shortEscape?, h, h₂]
  · simp [pieces, shortEscape?, h, h₃]
  · simp [pieces, shortEscape?, h, h₄]
  · simp [pieces, shortEscape?, h, h₅]
  · simp [pieces, shortEscape?, h, h₆]
  · simp [pieces, shortEscape?, h, h₇]
  · have hn : c.toNat < 0xD800 := by omega
    have hc := pieces_hexDigits hn h
    rwa [Char.ofNat_toNat] at hc
  · simp [pieces, h, h₂, h₈]

theorem pieces_flatMap_escaped (cs rest : List Char) :
    pieces (cs.flatMap escaped ++ '"' :: rest) = some (cs.map .char, rest) := by
  induction cs with
  | nil => simp [pieces]
  | cons c cs ih =>
    rw [List.flatMap_cons, List.append_assoc]
    exact pieces_escaped ih

theorem spelled_map_char (cs : List Char) : spelled (cs.map .char) = some cs := by
  induction cs with
  | nil => rfl
  | cons c cs ih => rw [List.map_cons, spelled, ih, Option.map_some]

/-- The literal of a text spells it. -/
theorem literal?_quoted (s : String) (rest : List Char) :
    literal? (s.toList.flatMap escaped ++ '"' :: rest) = some (some s, rest) := by
  simp [literal?, pieces_flatMap_escaped, spelled_map_char]

/-! ### Numerals -/

end Json.Parser

/-- Whether a numeral is one that a text can hold. -/
structure Json.Numeral.Clean (n : Json.Numeral) : Prop where
  whole_digit : ∀ c ∈ n.whole, c.isDigit = true
  whole_ne_nil : n.whole ≠ []
  /-- No zero stands before other digits. -/
  whole_eq_zero : n.whole.head? = some '0' → n.whole = ['0']
  fraction_digit : ∀ c ∈ n.fraction, c.isDigit = true
  exponent_digit : ∀ {below : Bool} {ds : List Char}, n.exponent = some (below, ds) →
    ds ≠ [] ∧ ∀ c ∈ ds, c.isDigit = true

namespace Json.Parser

/-- What follows a value in a container. -/
def Stops (rest : List Char) : Prop :=
  ∀ c ∈ rest.head?, c = ',' ∨ c = ']' ∨ c = '\x7d'

theorem isDigit_of_stops {rest : List Char} (h : Stops rest) :
    ∀ c ∈ rest.head?, c.isDigit = false := by
  intro c hc
  rcases h c hc with rfl | rfl | rfl <;> rfl

theorem takeWhile_isDigit {ds rest : List Char} (hds : ∀ c ∈ ds, c.isDigit = true)
    (hrest : ∀ c ∈ rest.head?, c.isDigit = false) :
    (ds ++ rest).takeWhile Char.isDigit = ds ∧ (ds ++ rest).dropWhile Char.isDigit = rest := by
  rw [List.takeWhile_append_of_pos hds, List.dropWhile_append_of_pos hds]
  cases rest with
  | nil => simp
  | cons c cs =>
    have hc := hrest c rfl
    exact ⟨by simp [hc], by simp [hc]⟩

theorem digits?_append {ds rest : List Char} (hne : ds ≠ []) (hds : ∀ c ∈ ds, c.isDigit = true)
    (hrest : ∀ c ∈ rest.head?, c.isDigit = false) : digits? (ds ++ rest) = some (ds, rest) := by
  obtain ⟨htake, hdrop⟩ := takeWhile_isDigit hds hrest
  simp [digits?, htake, hdrop, hne]

theorem whole?_append {n : Numeral} (hn : n.Clean) {rest : List Char}
    (hrest : ∀ c ∈ rest.head?, c.isDigit = false) :
    whole? (n.whole ++ rest) = some (n.whole, rest) := by
  obtain ⟨c, cs, hw⟩ := List.exists_cons_of_ne_nil hn.whole_ne_nil
  by_cases hc : c = '0'
  · have hzero : n.whole = ['0'] := hn.whole_eq_zero (by rw [hw, hc]; rfl)
    rw [hzero]
    cases rest with
    | nil => rfl
    | cons r rs =>
      have hr := hrest r rfl
      simp [whole?, hr]
  · have hdigits := digits?_append hn.whole_ne_nil hn.whole_digit hrest
    rw [hw] at hdigits ⊢
    rw [List.cons_append] at hdigits ⊢
    rw [whole?, hdigits]
    intro cs' he
    exact hc (List.cons.inj he).1

theorem fraction?_append {fraction rest : List Char} (hds : ∀ c ∈ fraction, c.isDigit = true)
    (hrest : ∀ c ∈ rest.head?, c.isDigit = false ∧ c ≠ '.') :
    fraction? ((if fraction.isEmpty then [] else '.' :: fraction) ++ rest) =
      some (fraction, rest) := by
  cases fraction with
  | nil =>
    cases rest with
    | nil => rfl
    | cons r rs => simp [fraction?, (hrest r rfl).2]
  | cons d ds =>
    exact digits?_append (List.cons_ne_nil d ds) hds fun c hc => (hrest c hc).1

/-- The text of an exponent. -/
def exponentText : Option (Bool × List Char) → List Char
  | none => []
  | some (below, ds) => 'e' :: ((if below then ['-'] else []) ++ ds)

theorem exponent?_append {exponent : Option (Bool × List Char)} {rest : List Char}
    (hds : ∀ {below : Bool} {ds : List Char}, exponent = some (below, ds) →
      ds ≠ [] ∧ ∀ c ∈ ds, c.isDigit = true) (hrest : Stops rest) :
    exponent? (exponentText exponent ++ rest) = some (exponent, rest) := by
  cases exponent with
  | none =>
    cases rest with
    | nil => rfl
    | cons r rs =>
      rcases hrest r rfl with rfl | rfl | rfl <;> rfl
  | some e =>
    obtain ⟨below, ds⟩ := e
    obtain ⟨hne, hdigit⟩ := hds rfl
    have hdigits := digits?_append hne hdigit (isDigit_of_stops hrest)
    cases below with
    | true => simp [exponentText, exponent?, hdigits]
    | false =>
      obtain ⟨d, ds, rfl⟩ := List.exists_cons_of_ne_nil hne
      have hd := hdigit d (List.mem_cons_self ..)
      have hminus : d ≠ '-' := by rintro rfl; cases hd
      have hplus : d ≠ '+' := by rintro rfl; cases hd
      rw [List.cons_append] at hdigits
      simp [exponentText, exponent?, hdigits, hminus, hplus]

/-- What follows the digits of a number: an exponent, or what follows the number. -/
theorem head_exponentText {exponent : Option (Bool × List Char)} {rest : List Char}
    (hrest : Stops rest) :
    ∀ c ∈ (exponentText exponent ++ rest).head?, c.isDigit = false ∧ c ≠ '.' := by
  intro c hc
  cases exponent with
  | none => rcases hrest c hc with rfl | rfl | rfl <;> decide
  | some e =>
    obtain rfl : c = 'e' := (Option.some.inj hc).symm
    decide

/-- The text of a numeral denotes it. -/
theorem numeral?_text {n : Numeral} (hn : n.Clean) {rest : List Char} (hrest : Stops rest) :
    numeral? (n.text ++ rest) = some (n, rest) := by
  have hexponent := exponent?_append hn.exponent_digit hrest
  have hhead : ∀ c ∈ (exponentText n.exponent ++ rest).head?, c.isDigit = false ∧ c ≠ '.' :=
    head_exponentText hrest
  have hfraction := fraction?_append hn.fraction_digit hhead
  have hwhole : whole? (n.whole ++ ((if n.fraction.isEmpty then [] else '.' :: n.fraction) ++
      (exponentText n.exponent ++ rest))) = some (n.whole, (if n.fraction.isEmpty then [] else
        '.' :: n.fraction) ++ (exponentText n.exponent ++ rest)) := by
    refine whole?_append hn fun c hc => ?_
    cases hf : n.fraction with
    | nil =>
      rw [hf] at hc
      exact (hhead c hc).1
    | cons d ds =>
      rw [hf] at hc
      obtain rfl : c = '.' := (Option.some.inj hc).symm
      decide
  have htext : n.text ++ rest = (if n.negative then ['-'] else []) ++ (n.whole ++
      ((if n.fraction.isEmpty then [] else '.' :: n.fraction) ++
        (exponentText n.exponent ++ rest))) := by
    simp only [Numeral.text, List.append_assoc]
    rfl
  rw [htext]
  generalize (if n.fraction.isEmpty then [] else '.' :: n.fraction) ++
    (exponentText n.exponent ++ rest) = behind at hwhole hfraction ⊢
  generalize exponentText n.exponent ++ rest = power at hfraction hexponent
  cases hneg : n.negative with
  | true =>
    simp only [if_true, List.cons_append, List.nil_append]
    simp [numeral?, hwhole, hfraction, hexponent, ← hneg]
  | false =>
    obtain ⟨c, cs, hw⟩ := List.exists_cons_of_ne_nil hn.whole_ne_nil
    have hminus : c ≠ '-' := by
      rintro rfl
      have hdigit := hn.whole_digit '-' (by rw [hw]; exact List.mem_cons_self ..)
      cases hdigit
    rw [hw, List.cons_append] at hwhole
    simp only [hw, Bool.false_eq_true, if_false, List.cons_append, List.nil_append]
    simp [numeral?, hminus, hwhole, hfraction, hexponent, ← hneg, ← hw]

/-- The first character of a numeral. -/
theorem head_numeral {n : Numeral} (hn : n.Clean) :
    ∃ c cs, n.text = c :: cs ∧ (c = '-' ∨ c.isDigit = true) := by
  obtain ⟨d, ds, hw⟩ := List.exists_cons_of_ne_nil hn.whole_ne_nil
  cases hneg : n.negative with
  | true => exact ⟨'-', _, by simp [Numeral.text, hneg]; rfl, .inl rfl⟩
  | false =>
    refine ⟨d, _, by simp [Numeral.text, hneg, hw]; rfl, .inr ?_⟩
    exact hn.whole_digit d (by rw [hw]; exact List.mem_cons_self ..)

end Json.Parser

end TierLineage
