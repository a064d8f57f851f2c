import Mathlib.Data.List.DropRight
import Mathlib.Data.List.Infix
import TierLineage.Json.Reader
import TierLineage.Proofs.Outcome

/-!
# Where a value ends

A value is taken from the front of a text.  If it was read to its end, what follows it is an end of the text;
so a record that was read to its end is what stands between two braces of the text.
-/

namespace TierLineage.Json

namespace Parser

/-! ### Leaves -/

section Leaves

variable {cs rest : List Char}

theorem pieces_suffix {ps : List Piece} (h : pieces cs = some (ps, rest)) : rest <:+ cs := by
  fun_induction pieces cs generalizing ps rest with
  | case1 => cases h
  | case2 cs =>
    cases h
    exact List.suffix_cons ..
  | case3 a b c d cs ih =>
    simp only [Option.bind_eq_bind, Option.bind_eq_some_iff] at h
    obtain ⟨n, -, ⟨qs, r⟩, hqs, hr⟩ := h
    cases hr
    exact (ih hqs).trans (List.suffix_append ['\\', 'u', a, b, c, d] cs)
  | case4 e cs hshort ih =>
    simp only [Option.bind_eq_bind, Option.bind_eq_some_iff] at h
    obtain ⟨n, -, ⟨qs, r⟩, hqs, hr⟩ := h
    cases hr
    exact (ih hqs).trans (List.suffix_append ['\\', e] cs)
  | case5 => cases h
  | case6 c cs hquote hlong hshort hplain ih =>
    simp only [Option.bind_eq_bind, Option.bind_eq_some_iff] at h
    obtain ⟨⟨qs, r⟩, hqs, hr⟩ := h
    cases hr
    exact (ih hqs).trans (List.suffix_cons c cs)

theorem literal?_suffix {s : Option String} (h : literal? cs = some (s, rest)) : rest <:+ cs := by
  obtain ⟨⟨ps, r⟩, hps, hr⟩ := Option.map_eq_some_iff.mp h
  cases hr
  exact pieces_suffix hps

theorem digits?_suffix {ds : List Char} (h : digits? cs = some (ds, rest)) : rest <:+ cs := by
  rw [digits?] at h
  split at h
  · cases h
  · cases h
    exact List.dropWhile_suffix _

theorem whole?_suffix {ds : List Char} (h : whole? cs = some (ds, rest)) : rest <:+ cs := by
  rw [whole?.eq_def] at h
  split at h
  · split at h
    · split at h
      · cases h
      · cases h
        exact List.suffix_cons ..
    · cases h
      exact List.suffix_cons ..
  · exact digits?_suffix h

theorem fraction?_suffix {ds : List Char} (h : fraction? cs = some (ds, rest)) : rest <:+ cs := by
  rw [fraction?.eq_def] at h
  split at h
  · exact (digits?_suffix h).trans (List.suffix_cons ..)
  · cases h
    exact List.suffix_rfl

theorem exponent?_suffix {e : Option (Bool × List Char)} (h : exponent? cs = some (e, rest)) :
    rest <:+ cs := by
  rw [exponent?.eq_def] at h
  split at h
  · next c cs =>
    split at h
    · obtain ⟨⟨ds, r⟩, hds, hr⟩ := Option.map_eq_some_iff.mp h
      cases hr
      refine (digits?_suffix hds).trans ?_
      -- a sign may stand in front of the digits
      split
      · exact List.suffix_append [c, '-'] _
      · exact List.suffix_append [c, '+'] _
      · exact List.suffix_cons ..
    · cases h
      exact List.suffix_rfl
  · cases h
    exact List.suffix_rfl

theorem numeral?_suffix {n : Numeral} (h : numeral? cs = some (n, rest)) : rest <:+ cs := by
  simp only [numeral?, Option.bind_eq_bind, Option.bind_eq_some_iff] at h
  obtain ⟨⟨whole, afterWhole⟩, hwhole, ⟨fraction, afterFraction⟩, hfraction, ⟨exponent, afterExponent⟩,
    hexponent, hr⟩ := h
  cases hr
  refine (exponent?_suffix hexponent).trans ((fraction?_suffix hfraction).trans
    ((whole?_suffix hwhole).trans ?_))
  split
  · exact List.suffix_cons ..
  · exact List.suffix_rfl

end Leaves

/-! ### Trees -/

section Trees

variable {bound : Nat} {cs rest : List Char} {v : Json}

/-- Whether a value stands in front of the rest of a text, a record between braces. -/
structure Ends (v : Json) (cs rest : List Char) : Prop where
  suffix : rest <:+ cs
  braces : ∀ {es : List (Option String × Json)} {ending : Ending}, v = .record es ending →
    cs.head? = some '\x7b' ∧ '\x7d' :: rest <:+ cs

/-- Whether what is read of a text within a bound ends where what is left of the text begins. -/
structure Spans (bound : Nat) : Prop where
  value : ∀ {cs rest : List Char} {v : Json}, value bound cs = (v, rest) → v.finished = true → Ends v cs rest
  items : ∀ {cs rest : List Char} {vs : List Json} {ending : Ending},
    items bound cs = (vs, ending, rest) → ending.complete = true → ']' :: rest <:+ cs
  entries : ∀ {cs rest : List Char} {es : List (Option String × Json)} {ending : Ending},
    entries bound cs = (es, ending, rest) → ending.complete = true → '\x7d' :: rest <:+ cs

theorem Ends.of_suffix (h : rest <:+ cs) (hv : ∀ es ending, v ≠ .record es ending) : Ends v cs rest :=
  ⟨h, fun heq => absurd heq (hv _ _)⟩

/-- What stands behind a character that white space may precede. -/
theorem suffix_of_skip {c : Char} (h : skip cs = c :: rest) : c :: rest <:+ cs :=
  h ▸ List.dropWhile_suffix _

theorem suffix_of_cons_suffix {c : Char} (h : c :: rest <:+ cs) : rest <:+ cs :=
  (List.suffix_cons c rest).trans h

theorem Spans.value_succ (h : Spans bound) (hv : Parser.value (bound + 1) cs = (v, rest))
    (hfinished : v.finished = true) : Ends v cs rest := by
  rw [Parser.value.eq_def] at hv
  dsimp only at hv
  split at hv
  · cases hv
    exact .of_suffix (List.suffix_append ['n', 'u', 'l', 'l'] _) nofun
  · cases hv
    exact .of_suffix (List.suffix_append ['t', 'r', 'u', 'e'] _) nofun
  · cases hv
    exact .of_suffix (List.suffix_append ['f', 'a', 'l', 's', 'e'] _) nofun
  · split at hv
    · next hliteral =>
      cases hv
      exact .of_suffix ((literal?_suffix hliteral).trans (List.suffix_cons ..)) nofun
    · cases hv
      cases hfinished
  · next inner =>
    -- a list, empty or not
    suffices hbracket : ']' :: rest <:+ inner ∧ ∀ es ending, v ≠ .record es ending from
      .of_suffix (suffix_of_cons_suffix (hbracket.1.trans (List.suffix_cons ..))) hbracket.2
    split at hv
    · next hskip =>
      cases hv
      exact ⟨suffix_of_skip hskip, nofun⟩
    · rcases hitems : Parser.items bound (skip inner) with ⟨vs, ending, r⟩
      rw [hitems] at hv
      cases hv
      exact ⟨(h.items hitems hfinished).trans (List.dropWhile_suffix _), nofun⟩
  · next inner =>
    -- a record, empty or not
    suffices hbrace : '\x7d' :: rest <:+ inner from
      ⟨suffix_of_cons_suffix (hbrace.trans (List.suffix_cons ..)),
        fun _ => ⟨rfl, hbrace.trans (List.suffix_cons ..)⟩⟩
    split at hv
    · next hskip =>
      cases hv
      exact suffix_of_skip hskip
    · rcases hentries : Parser.entries bound (skip inner) with ⟨es, ending, r⟩
      rw [hentries] at hv
      cases hv
      exact (h.entries hentries hfinished).trans (List.dropWhile_suffix _)
  · split at hv
    · next hnumeral =>
      cases hv
      exact .of_suffix (numeral?_suffix hnumeral) nofun
    · cases hv
      cases hfinished

theorem Spans.items_succ (h : Spans bound) {vs : List Json} {ending : Ending}
    (hitems : Parser.items (bound + 1) cs = (vs, ending, rest)) (hcomplete : ending.complete = true) :
    ']' :: rest <:+ cs := by
  rw [Parser.items] at hitems
  rcases hvalue : Parser.value bound cs with ⟨v, afterValue⟩
  rw [hvalue] at hitems
  dsimp only at hitems
  split at hitems
  · cases hitems
    cases hcomplete
  · next hfinished =>
    have hrest : afterValue <:+ cs := (h.value hvalue (by simpa using hfinished)).suffix
    split at hitems
    · next r hskip =>
      rcases hmore : Parser.items bound (skip r) with ⟨ws, ending', r'⟩
      rw [hmore] at hitems
      cases hitems
      exact (h.items hmore hcomplete).trans ((List.dropWhile_suffix _).trans
        ((suffix_of_cons_suffix (suffix_of_skip hskip)).trans hrest))
    · next hskip =>
      cases hitems
      exact (suffix_of_skip hskip).trans hrest
    · cases hitems
      cases hcomplete

theorem Spans.entries_succ (h : Spans bound) {es : List (Option String × Json)} {ending : Ending}
    (hentries : Parser.entries (bound + 1) cs = (es, ending, rest)) (hcomplete : ending.complete = true) :
    '\x7d' :: rest <:+ cs := by
  rw [Parser.entries.eq_def] at hentries
  dsimp only at hentries
  split at hentries
  · next inner =>
    split at hentries
    · cases hentries
      cases hcomplete
    · next k afterKey hkey =>
      have hkey : afterKey <:+ '"' :: inner := (literal?_suffix hkey).trans (List.suffix_cons ..)
      split at hentries
      · next r hcolon =>
        rcases hvalue : Parser.value bound (skip r) with ⟨v, afterValue⟩
        rw [hvalue] at hentries
        dsimp only at hentries
        split at hentries
        · cases hentries
          cases hcomplete
        · next hfinished =>
          have hrest : afterValue <:+ '"' :: inner :=
            (h.value hvalue (by simpa using hfinished)).suffix.trans ((List.dropWhile_suffix _).trans
              ((suffix_of_cons_suffix (suffix_of_skip hcolon)).trans hkey))
          split at hentries
          · next r hskip =>
            rcases hmore : Parser.entries bound (skip r) with ⟨fs, ending', r'⟩
            rw [hmore] at hentries
            cases hentries
            exact (h.entries hmore hcomplete).trans ((List.dropWhile_suffix _).trans
              ((suffix_of_cons_suffix (suffix_of_skip hskip)).trans hrest))
          · next hskip =>
            cases hentries
            exact (suffix_of_skip hskip).trans hrest
          · cases hentries
            cases hcomplete
      · cases hentries
        cases hcomplete
  · cases hentries
    cases hcomplete

/-- What follows a value that was read to its end is an end of the text. -/
theorem spans (bound : Nat) : Spans bound := by
  induction bound with
  | zero =>
    constructor
    · intro cs rest v hv hfinished
      rw [value] at hv
      cases hv
      cases hfinished
    · intro cs rest vs ending hitems hcomplete
      rw [items] at hitems
      cases hitems
      cases hcomplete
    · intro cs rest es ending hentries hcomplete
      rw [entries] at hentries
      cases hentries
      cases hcomplete
  | succ bound ih => exact ⟨ih.value_succ, ih.items_succ, ih.entries_succ⟩

end Trees

end Parser

/-! ### Documents -/

section Documents

variable {text : String}

theorem complete_of_decode {α : Type} {read : Reader α} {a : α} (h : decode read text = .ok a) :
    (parse text).root.finished = true ∧ (parse text).complete = true := by
  obtain ⟨b, -, h⟩ := bind_eq_ok.mp h
  split at h
  · next hboth => exact Bool.and_eq_true_iff.mp hboth
  · cases h

/-- **A text that is a record**, with no white space around it, starts with an opening brace and ends with a
closing one. -/
theorem braces_of_record {es : List (Option String × Json)} {ending : Ending}
    (hroot : (parse text).root = .record es ending) (hfinished : (parse text).root.finished = true)
    (hcomplete : (parse text).complete = true)
    (hhead : ∀ c ∈ text.toList.head?, Parser.isSpace c = false)
    (hlast : ∀ c ∈ text.toList.getLast?, Parser.isSpace c = false) :
    text.toList.head? = some '\x7b' ∧ text.toList.getLast? = some '\x7d' := by
  rcases hvalue : Parser.value (text.toList.length + 1) (Parser.skip text.toList) with ⟨v, rest⟩
  have hparse : parse text = ⟨v, (Parser.skip rest).isEmpty⟩ := by simp only [parse, hvalue]
  have hskip : Parser.skip text.toList = text.toList := by
    refine List.dropWhile_eq_self_iff.mpr fun hlength => ?_
    rw [Bool.not_eq_true]
    exact hhead _ (List.head?_eq_getElem? ▸ List.getElem?_eq_getElem hlength)
  rw [hparse] at hroot hfinished hcomplete
  have hspan := (Parser.spans _).value hvalue hfinished
  rw [hskip] at hspan
  obtain ⟨hopens, front, hcloses⟩ := hspan.braces hroot
  refine ⟨hopens, ?_⟩
  have hspaces : ∀ c ∈ rest, Parser.isSpace c = true :=
    List.dropWhile_eq_nil_iff.mp (List.isEmpty_iff.mp hcomplete)
  rw [← hcloses, List.getLast?_append, List.getLast?_cons] at hlast ⊢
  cases hrest : rest.getLast? with
  | none => rfl
  | some c =>
    have hspace := hlast c (by rw [hrest]; rfl)
    rw [hspaces c (List.mem_of_getLast? hrest)] at hspace
    cases hspace

end Documents

end TierLineage.Json
