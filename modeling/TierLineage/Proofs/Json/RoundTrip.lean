import TierLineage.Proofs.Json.Literal

/-!
# Written data is read back

A tree is `Clean` if a text can hold it: it is finished, names its entries, spells its strings and
has numerals without superfluous zeros.  The compact text of a clean tree has exactly this tree, so
that a reader makes of the text what it makes of the tree.
-/

namespace TierLineage

namespace Json

/-- Whether a tree is one that a text can hold. -/
inductive Clean : Json → Prop where
  | null : Clean .null
  | bool (b : Bool) : Clean (.bool b)
  | number {n : Numeral} (h : n.Clean) : Clean (.number n)
  | text (s : String) : Clean (.text (some s))
  | list {items : List Json} (h : ∀ v ∈ items, Clean v) : Clean (.list items .closed)
  | record {entries : List (Option String × Json)} (h : ∀ e ∈ entries, Clean e.2)
      (hnamed : ∀ e ∈ entries, e.1.isSome = true) : Clean (.record entries .closed)

theorem Clean.finished {v : Json} (h : v.Clean) : v.finished = true := by
  cases h <;> rfl

namespace Parser

/-- Whether a character may begin a value. -/
def begins (c : Char) : Bool :=
  c == 'n' || c == 't' || c == 'f' || c == '"' || c == '[' || c == '\x7b' || c == '-' || c.isDigit

theorem isSpace_of_begins {c : Char} (h : begins c = true) : isSpace c = false := by
  by_contra hs
  simp only [isSpace, Bool.not_eq_false, Bool.or_eq_true, beq_iff_eq] at hs
  rcases hs with ((rfl | rfl) | rfl) | rfl <;> cases h

/-- The first character of a value. -/
theorem head_print {v : Json} (hv : v.Clean) : ∃ c cs, print v = c :: cs ∧ begins c = true := by
  cases hv with
  | null => exact ⟨'n', ['u', 'l', 'l'], rfl, rfl⟩
  | bool b =>
    cases b with
    | true => exact ⟨'t', ['r', 'u', 'e'], rfl, rfl⟩
    | false => exact ⟨'f', ['a', 'l', 's', 'e'], rfl, rfl⟩
  | number h =>
    obtain ⟨c, cs, hc, hor⟩ := head_numeral h
    refine ⟨c, cs, hc, ?_⟩
    rcases hor with rfl | hdigit
    · rfl
    · simp [begins, hdigit]
  | text s => exact ⟨'"', _, by rw [print, quoted], rfl⟩
  | list h => exact ⟨'[', _, by rw [print], rfl⟩
  | record h hnamed => exact ⟨'\x7b', _, by rw [print], rfl⟩

theorem head_printItems {v : Json} (hv : v.Clean) (ws : List Json) :
    ∃ c cs, printItems (v :: ws) = c :: cs ∧ begins c = true := by
  obtain ⟨c, cs, hc, hb⟩ := head_print hv
  cases ws with
  | nil => exact ⟨c, cs, by rw [printItems, hc], hb⟩
  | cons w us => exact ⟨c, _, by rw [printItems, hc]; rfl, hb⟩

/-- No white space stands before a value. -/
theorem skip_of_begins {c : Char} (h : begins c = true) (cs : List Char) :
    skip (c :: cs) = c :: cs := by
  simp [skip, isSpace_of_begins h]

theorem skip_print {v : Json} (hv : v.Clean) (rest : List Char) :
    skip (print v ++ rest) = print v ++ rest := by
  obtain ⟨c, cs, hc, hb⟩ := head_print hv
  rw [hc]
  exact skip_of_begins hb _

/-- Whether a value is read back from its text, whatever follows. -/
def Reads (v : Json) : Prop :=
  ∀ (bound : Nat) (rest : List Char), (print v).length ≤ bound → Stops rest →
    value bound (print v ++ rest) = (v, rest)

theorem reads_number {n : Numeral} (hn : n.Clean) : Reads (.number n) := by
  intro bound rest hbound hrest
  have hnumeral := numeral?_text hn hrest
  obtain ⟨c, cs, hc, hor⟩ := head_numeral hn
  rw [print, hc] at hbound ⊢
  rw [hc] at hnumeral
  obtain ⟨bound, rfl⟩ : ∃ b, bound = b + 1 := ⟨bound - 1, by simp at hbound; omega⟩
  have hne : c ≠ 'n' ∧ c ≠ 't' ∧ c ≠ 'f' ∧ c ≠ '"' ∧ c ≠ '[' ∧ c ≠ '\x7b' := by
    refine ⟨?_, ?_, ?_, ?_, ?_, ?_⟩ <;> rintro rfl <;> simp_all +decide
  obtain ⟨h₁, h₂, h₃, h₄, h₅, h₆⟩ := hne
  rw [List.cons_append] at hnumeral ⊢
  simp [value, h₁, h₂, h₃, h₄, h₅, h₆, hnumeral]

theorem reads_text (s : String) : Reads (.text (some s)) := by
  intro bound rest hbound hrest
  have hliteral := literal?_quoted s rest
  rw [print, quoted] at hbound ⊢
  obtain ⟨bound, rfl⟩ : ∃ b, bound = b + 1 := ⟨bound - 1, by simp at hbound; omega⟩
  simp [value, hliteral]

theorem stops_comma (cs : List Char) : Stops (',' :: cs) := by
  simp [Stops]

theorem stops_bracket (cs : List Char) : Stops (']' :: cs) := by
  simp [Stops]

theorem stops_brace (cs : List Char) : Stops ('\x7d' :: cs) := by
  simp [Stops]

/-- The items of a list are read back from their text. -/
theorem items_print {vs : List Json} (hne : vs ≠ []) (hclean : ∀ v ∈ vs, v.Clean)
    (hreads : ∀ v ∈ vs, Reads v) {bound : Nat} (rest : List Char)
    (hbound : (printItems vs).length + 1 ≤ bound) :
    items bound (printItems vs ++ ']' :: rest) = (vs, .closed, rest) := by
  induction vs generalizing bound with
  | nil => exact absurd rfl hne
  | cons v ws ih =>
    have hv := hreads v (List.mem_cons_self ..)
    have hfinished := (hclean v (List.mem_cons_self ..)).finished
    obtain ⟨bound, rfl⟩ : ∃ b, bound = b + 1 := ⟨bound - 1, by omega⟩
    cases ws with
    | nil =>
      rw [printItems] at hbound ⊢
      rw [items, hv _ _ (by omega) (stops_bracket rest)]
      simp [hfinished, skip, isSpace]
    | cons w us =>
      rw [printItems] at hbound ⊢
      simp only [List.length_append, List.length_cons] at hbound
      have hrest := ih (List.cons_ne_nil w us) (fun u hu => hclean u (List.mem_cons_of_mem v hu))
        (fun u hu => hreads u (List.mem_cons_of_mem v hu)) (by omega : _ ≤ bound)
      have hskip : ∀ cs, skip (',' :: cs) = ',' :: cs := fun cs => by simp [skip, isSpace]
      have hskip' : skip (printItems (w :: us) ++ ']' :: rest) =
          printItems (w :: us) ++ ']' :: rest := by
        obtain ⟨c, cs, hc, hb⟩ := head_printItems (hclean w (by simp)) us
        rw [hc]
        exact skip_of_begins hb _
      rw [List.append_assoc, List.cons_append, items, hv _ _ (by omega) (stops_comma _)]
      simp [hfinished, hskip, hskip', hrest]

/-- The entries of a record are read back from their text. -/
theorem entries_print {es : List (Option String × Json)} (hne : es ≠ [])
    (hclean : ∀ e ∈ es, e.2.Clean) (hnamed : ∀ e ∈ es, e.1.isSome = true)
    (hreads : ∀ e ∈ es, Reads e.2) {bound : Nat} (rest : List Char)
    (hbound : (printEntries es).length + 1 ≤ bound) :
    entries bound (printEntries es ++ '\x7d' :: rest) = (es, .closed, rest) := by
  induction es generalizing bound with
  | nil => exact absurd rfl hne
  | cons e ws ih =>
    obtain ⟨k, v⟩ := e
    obtain ⟨k, rfl⟩ := Option.isSome_iff_exists.mp (hnamed _ (List.mem_cons_self ..))
    have hv : Reads v := hreads _ (List.mem_cons_self ..)
    have hv' : v.Clean := hclean _ (List.mem_cons_self ..)
    have hfinished := hv'.finished
    have hcolon : ∀ cs, skip (':' :: cs) = ':' :: cs := fun cs => by simp [skip, isSpace]
    have hcomma : ∀ cs, skip (',' :: cs) = ',' :: cs := fun cs => by simp [skip, isSpace]
    have hbrace : ∀ cs, skip ('\x7d' :: cs) = '\x7d' :: cs := fun cs => by simp [skip, isSpace]
    obtain ⟨bound, rfl⟩ : ∃ b, bound = b + 1 := ⟨bound - 1, by omega⟩
    cases ws with
    | nil =>
      rw [printEntries] at hbound ⊢
      simp only [List.length_append, List.length_cons] at hbound
      simp [entries, quoted, literal?_quoted, hcolon, skip_print hv',
        hv _ _ (by omega : _ ≤ bound) (stops_brace rest), hfinished, hbrace]
    | cons w us =>
      rw [printEntries] at hbound ⊢
      simp only [List.length_append, List.length_cons] at hbound
      have hrest := ih (List.cons_ne_nil w us) (fun u hu => hclean u (List.mem_cons_of_mem _ hu))
        (fun u hu => hnamed u (List.mem_cons_of_mem _ hu))
        (fun u hu => hreads u (List.mem_cons_of_mem _ hu)) (by omega : _ ≤ bound)
      have hskip : skip (printEntries (w :: us) ++ '\x7d' :: rest) =
          printEntries (w :: us) ++ '\x7d' :: rest := by
        obtain ⟨k', v'⟩ := w
        cases us <;> simp [printEntries, quoted, skip, isSpace]
      simp [entries, quoted, literal?_quoted, hcolon, skip_print hv',
        hv _ _ (by omega : _ ≤ bound) (stops_comma _), hfinished, hcomma, hskip, hrest]

theorem reads_list {vs : List Json} (hclean : ∀ v ∈ vs, v.Clean) (hreads : ∀ v ∈ vs, Reads v) :
    Reads (.list vs .closed) := by
  intro bound rest hbound hrest
  rw [print] at hbound ⊢
  simp only [List.length_cons, List.length_append, List.length_nil] at hbound
  obtain ⟨bound, rfl⟩ : ∃ b, bound = b + 1 := ⟨bound - 1, by omega⟩
  cases vs with
  | nil => simp [printItems, value, skip, isSpace]
  | cons v ws =>
    have hitems := items_print (List.cons_ne_nil v ws) hclean hreads rest (by omega : _ ≤ bound)
    obtain ⟨c, cs, hc, hb⟩ := head_printItems (hclean v (List.mem_cons_self ..)) ws
    have hne : c ≠ ']' := by rintro rfl; cases hb
    rw [hc] at hitems ⊢
    rw [List.cons_append] at hitems
    simp [value, skip_of_begins hb, hne, hitems]

theorem reads_record {es : List (Option String × Json)} (hclean : ∀ e ∈ es, e.2.Clean)
    (hnamed : ∀ e ∈ es, e.1.isSome = true) (hreads : ∀ e ∈ es, Reads e.2) :
    Reads (.record es .closed) := by
  intro bound rest hbound hrest
  rw [print] at hbound ⊢
  simp only [List.length_cons, List.length_append, List.length_nil] at hbound
  obtain ⟨bound, rfl⟩ : ∃ b, bound = b + 1 := ⟨bound - 1, by omega⟩
  cases es with
  | nil => simp [printEntries, value, skip, isSpace]
  | cons e ws =>
    have hentries := entries_print (List.cons_ne_nil e ws) hclean hnamed hreads rest
      (by omega : _ ≤ bound)
    have hhead : ∃ cs, printEntries (e :: ws) = '"' :: cs := by
      cases ws <;> exact ⟨_, by rw [printEntries, quoted]; rfl⟩
    obtain ⟨cs, hc⟩ := hhead
    rw [hc] at hentries ⊢
    rw [List.cons_append] at hentries
    simp [value, skip, isSpace, hentries]

/-- A clean tree is read back from its text. -/
theorem value_print {v : Json} (hv : v.Clean) : Reads v := by
  induction hv with
  | null =>
    intro bound rest hbound hrest
    obtain ⟨bound, rfl⟩ : ∃ b, bound = b + 1 := ⟨bound - 1, by simp [print] at hbound; omega⟩
    rfl
  | bool b =>
    intro bound rest hbound hrest
    cases b <;>
      obtain ⟨bound, rfl⟩ : ∃ b, bound = b + 1 := ⟨bound - 1, by simp [print] at hbound; omega⟩ <;>
      rfl
  | number h => exact reads_number h
  | text s => exact reads_text s
  | list h ih => exact reads_list h ih
  | record h hnamed ih => exact reads_record h hnamed ih

end Parser

/-- The text of a clean tree has this tree and nothing else. -/
theorem parse_compact {v : Json} (hv : v.Clean) : parse (compact v) = ⟨v, true⟩ := by
  have hskip := Parser.skip_print hv []
  have hvalue := Parser.value_print hv ((print v).length + 1) [] (Nat.le_succ _) (by simp [Parser.Stops])
  rw [List.append_nil] at hskip hvalue
  simp only [parse, compact, String.toList_ofList, hskip, hvalue]
  rfl

/-- Whatever a reader makes of a clean tree, it makes of its text. -/
theorem decode_compact {α : Type} (read : Reader α) {v : Json} (hv : v.Clean) :
    decode read (compact v) = read v := by
  rw [decode, parse_compact hv, Document.read, hv.finished]
  cases read v <;> rfl

end Json

end TierLineage
