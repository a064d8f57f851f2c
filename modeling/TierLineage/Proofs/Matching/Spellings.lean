import TierLineage.Proofs.Matching.Cutting
import TierLineage.Proofs.Matching.Scores

/-!
# Spellings of a name

A name made of words may be spelled with separators between them or with a capital at the start of each.
Separators and capitals are told apart by different rules, but they cut the same words out of a name: words
of small letters are found again in whatever style they were put together.
-/

namespace TierLineage.Matching

open TierLineage.Number TierLineage.Text

/-! ### Words -/

/-- A word with a capital in front. -/
def capitalized : Word → Word
  | [] => []
  | c :: cs => c.toUpper :: cs

/-- The ways to write the letters of a word. -/
inductive Casing
  | small
  | capitals
  | capitalized
  deriving Repr, DecidableEq

/-- A word in a casing. -/
def Casing.write : Casing → Word → Word
  | .small, w => w
  | .capitals, w => w.map Char.toUpper
  | .capitalized, w => Matching.capitalized w

section Words

variable {w : Word} {ws : List Word}

theorem capitalized_ne_nil (hne : w ≠ []) : capitalized w ≠ [] := by
  cases w with
  | nil => exact absurd rfl hne
  | cons c cs => exact List.cons_ne_nil c.toUpper cs

/-- A word of small letters is read to its end. -/
theorem wordsFrom_word (hw : ∀ c ∈ w, c.isLower = true) (current rest : List Char) :
    wordsFrom current (w ++ rest) = wordsFrom (w.reverse ++ current) rest := by
  refine wordsFrom_small (fun c hc => ?_) current rest
  obtain ⟨hletter, -, hsmall, -⟩ := small_spec (hw c hc)
  exact ⟨hletter, hsmall⟩

theorem wordsFrom_capitalized (hw : ∀ c ∈ w, c.isLower = true) (rest : List Char) :
    wordsFrom [] (capitalized w ++ rest) = wordsFrom (capitalized w).reverse rest := by
  cases w with
  | nil => rfl
  | cons c cs =>
    obtain ⟨hc, hcs⟩ := List.forall_mem_cons.mp hw
    rw [capitalized, List.cons_append, wordsFrom_next (capital_spec hc).1 (by simp), wordsFrom_word hcs,
      List.reverse_cons]

/-- A word of small letters is one word in every casing. -/
theorem splitWords_write (s : Casing) (hne : w ≠ []) (hw : ∀ c ∈ w, c.isLower = true) :
    splitWords (s.write w) = [s.write w] := by
  rcases s with _ | _ | _
  · have hread := wordsFrom_word hw [] []
    rw [List.append_nil, List.append_nil] at hread
    exact hread.trans (finishedWord_reverse hne)
  · have hcapitals : ∀ c ∈ w.map Char.toUpper,
        isAlphanumeric c = true ∧ isLowercase c = false ∧ c.isDigit = false := by
      intro d hd
      obtain ⟨c, hc, rfl⟩ := List.mem_map.mp hd
      obtain ⟨hletter, -, hlower, hdigit, -⟩ := capital_spec (hw c hc)
      exact ⟨hletter, hlower, hdigit⟩
    have hread : splitWords (w.map Char.toUpper) = finishedWord ((w.map Char.toUpper).reverse ++ []) :=
      wordsFrom_capitals (by simp) hcapitals
    rw [List.append_nil] at hread
    exact hread.trans (finishedWord_reverse (by simpa using hne))
  · have hread := wordsFrom_capitalized hw []
    rw [List.append_nil] at hread
    exact hread.trans (finishedWord_reverse (capitalized_ne_nil hne))

/-- A word in a casing has the letters of the word, some of them as capitals. -/
theorem forall₂_write (s : Casing) (w : Word) :
    List.Forall₂ (fun c d => d = c ∨ d = c.toUpper) w (s.write w) := by
  have hsame : ∀ cs : Word, List.Forall₂ (fun c d => d = c ∨ d = c.toUpper) cs cs :=
    fun cs => List.forall₂_same.mpr fun c _ => .inl rfl
  rcases s with _ | _ | _
  · exact hsame w
  · exact List.forall₂_map_right_iff.mpr (List.forall₂_same.mpr fun c _ => .inr rfl)
  · rcases w with _ | ⟨c, cs⟩
    · exact .nil
    · exact .cons (.inr rfl) (hsame cs)

/-- The casing of a word is lost in lower case. -/
theorem lowercase_write (s : Casing) (hw : ∀ c ∈ w, c.isLower = true) : lowercase (s.write w) = w := by
  have hletter : ∀ {c d : Char}, c.isLower = true → d = c ∨ d = c.toUpper →
      d.toNat < 0x80 ∧ d.toLower = c := by
    rintro c d hc (rfl | rfl)
    · obtain ⟨-, -, -, hlower, hascii⟩ := small_spec hc
      exact ⟨hascii, hlower⟩
    · obtain ⟨-, -, -, -, hlower, hascii⟩ := capital_spec hc
      exact ⟨hascii, hlower⟩
  have hwrite : (∀ d ∈ s.write w, d.toNat < 0x80) ∧ (s.write w).map Char.toLower = w := by
    have hletters := forall₂_write s w
    generalize s.write w = v at hletters ⊢
    induction hletters with
    | nil => simp
    | cons hd _ ih =>
      obtain ⟨hc, hcs⟩ := List.forall_mem_cons.mp hw
      obtain ⟨hascii, hlower⟩ := hletter hc hd
      obtain ⟨hasciis, hlowers⟩ := ih hcs
      exact ⟨List.forall_mem_cons.mpr ⟨hascii, hasciis⟩, by rw [List.map_cons, hlower, hlowers]⟩
  rw [lowercase_of_ascii hwrite.1, hwrite.2]

theorem lowerWords_write (s : Casing) (hne : w ≠ []) (hw : ∀ c ∈ w, c.isLower = true) :
    lowerWords (s.write w) = [w] := by
  rw [lowerWords, splitWords_write s hne hw, List.map_singleton, lowercase_write s hw]

end Words

/-! ### Words without separators -/

/-- A word of two or more small ASCII letters. -/
structure IsSmallWord (w : Word) : Prop where
  two_le : 2 ≤ w.length
  isLower : ∀ c ∈ w, c.isLower = true

section SmallWords

variable {w : Word} {ws : List Word}

theorem IsSmallWord.ne_nil (hw : IsSmallWord w) : w ≠ [] :=
  List.ne_nil_of_length_pos (Nat.lt_of_lt_of_le Nat.two_pos hw.two_le)

theorem endsSmall_of_isLower (hne : w ≠ []) (hw : ∀ c ∈ w, c.isLower = true) : EndsSmall w :=
  ⟨w.getLast hne, List.getLast?_eq_some_getLast hne, (small_spec (hw _ (List.getLast_mem hne))).2.1⟩

/-- The last letter of a capitalized word is a small one, as it is not the first. -/
theorem IsSmallWord.endsSmall_capitalized (hw : IsSmallWord w) : EndsSmall (capitalized w) := by
  obtain ⟨hlength, hlower⟩ := hw
  rcases w with _ | ⟨c, _ | ⟨d, cs⟩⟩
  · simp at hlength
  · simp at hlength
  · obtain ⟨e, hlast, hsmall⟩ := endsSmall_of_isLower (List.cons_ne_nil d cs)
      (List.forall_mem_cons.mp hlower).2
    exact ⟨e, by rwa [capitalized, List.getLast?_cons_cons], hsmall⟩

/-- Capitalized words that follow a small letter are found again. -/
theorem wordsFrom_flatten (hw : EndsSmall w) (hws : ∀ v ∈ ws, IsSmallWord v) :
    wordsFrom w.reverse (ws.map capitalized).flatten = w :: ws.map capitalized := by
  induction ws generalizing w with
  | nil =>
    obtain ⟨c, hlast, -⟩ := hw
    exact finishedWord_reverse (List.ne_nil_of_mem (List.mem_of_getLast? hlast))
  | cons v ws ih =>
    obtain ⟨hv, hws⟩ := List.forall_mem_cons.mp hws
    have hcapital : wordsFrom w.reverse (capitalized v ++ (ws.map capitalized).flatten) =
        w :: wordsFrom [] (capitalized v ++ (ws.map capitalized).flatten) := by
      obtain ⟨c, cs, rfl⟩ := List.exists_cons_of_ne_nil hv.ne_nil
      obtain ⟨hletter, hupper, -⟩ := capital_spec (hv.isLower c List.mem_cons_self)
      exact wordsFrom_capital hw hletter hupper _
    rw [List.map_cons, List.flatten_cons, hcapital, wordsFrom_capitalized hv.isLower,
      ih hv.endsSmall_capitalized hws]

theorem splitWords_flatten (hws : ∀ v ∈ ws, IsSmallWord v) :
    splitWords (ws.map capitalized).flatten = ws.map capitalized := by
  rcases ws with _ | ⟨w, ws⟩
  · rfl
  · obtain ⟨hw, hws⟩ := List.forall_mem_cons.mp hws
    rw [List.map_cons, List.flatten_cons, splitWords, wordsFrom_capitalized hw.isLower,
      wordsFrom_flatten hw.endsSmall_capitalized hws]

theorem splitWords_append_flatten (hw : IsSmallWord w) (hws : ∀ v ∈ ws, IsSmallWord v) :
    splitWords (w ++ (ws.map capitalized).flatten) = w :: ws.map capitalized := by
  rw [splitWords, wordsFrom_word hw.isLower, List.append_nil,
    wordsFrom_flatten (endsSmall_of_isLower hw.ne_nil hw.isLower) hws]

/-- Words in a casing are found again in lower case. -/
theorem map_lowercase_write (s : Casing) (hws : ∀ v ∈ ws, IsSmallWord v) :
    (ws.map s.write).map lowercase = ws := by
  rw [List.map_map]
  exact (List.map_congr_left fun v hv => lowercase_write s (hws v hv).isLower).trans (List.map_id ws)

/-- Words put together with a separator are found again, whatever their casing. -/
theorem lowerWords_joined {sep : Char} (hsep : isAlphanumeric sep = false) (s : Casing)
    (hws : ∀ v ∈ ws, IsSmallWord v) : lowerWords (joined [sep] (ws.map s.write)) = ws := by
  rw [lowerWords, splitWords_joined hsep, List.map_flatMap, List.flatMap_map]
  calc ws.flatMap (fun v => (splitWords (s.write v)).map lowercase)
      = ws.flatMap List.singleton := List.flatMap_congr fun v hv =>
        lowerWords_write s (hws v hv).ne_nil (hws v hv).isLower
    _ = ws := List.flatMap_singleton' ws

end SmallWords

/-! ### Styles -/

/-- The ways to make a name of words. -/
inductive Style
  | snake
  | kebab
  | dotted
  | spaced
  | screamingSnake
  | camel
  | pascal
  deriving Repr, DecidableEq

/-- The characters of a name made of words in a style. -/
def Style.write : Style → List Word → List Char
  | .snake, ws => joined ['_'] ws
  | .kebab, ws => joined ['-'] ws
  | .dotted, ws => joined ['.'] ws
  | .spaced, ws => joined [' '] ws
  | .screamingSnake, ws => joined ['_'] (ws.map Casing.capitals.write)
  | .camel, [] => []
  | .camel, w :: ws => w ++ (ws.map capitalized).flatten
  | .pascal, ws => (ws.map capitalized).flatten

/-- The name made of words in a style. -/
def Style.name (s : Style) (ws : List Word) : String :=
  String.ofList (s.write ws)

section Styles

variable {ws : List Word}

/-- Words are found again in every style. -/
theorem lowerWords_style (s : Style) (hws : ∀ w ∈ ws, IsSmallWord w) : lowerWords (s.write ws) = ws := by
  have hsmall : ∀ {sep : Char}, isAlphanumeric sep = false → lowerWords (joined [sep] ws) = ws := by
    intro sep hsep
    have hjoined := lowerWords_joined hsep .small hws
    rwa [show ws.map Casing.small.write = ws from List.map_id ws] at hjoined
  match s, ws, hws with
  | .snake, ws, hws => exact hsmall rfl
  | .kebab, _, _ => exact hsmall rfl
  | .dotted, _, _ => exact hsmall rfl
  | .spaced, _, _ => exact hsmall rfl
  | .screamingSnake, _, hws => exact lowerWords_joined rfl .capitals hws
  | .camel, [], _ => rfl
  | .camel, w :: ws, hws =>
    obtain ⟨hw, hws⟩ := List.forall_mem_cons.mp hws
    rw [Style.write, lowerWords, splitWords_append_flatten hw hws]
    exact congrArg₂ List.cons (lowercase_write .small hw.isLower) (map_lowercase_write .capitalized hws)
  | .pascal, ws, hws =>
    rw [Style.write, lowerWords, splitWords_flatten hws]
    exact map_lowercase_write .capitalized hws

/-- **Styles of one name.**  A name made of words of two or more small letters is compared by the same
words in every style: by the singulars of those words, without the tier markers at either end.  So two
names made of the same words score one, whatever their styles. -/
theorem normalize_style (hws : ∀ w ∈ ws, IsSmallWord w) (s t : Style) :
    normalizeString (s.name ws) = trimMarkers (ws.map singular) ∧
      normalizeString (s.name ws) = normalizeString (t.name ws) ∧
      scoreNames (s.name ws) (t.name ws) = Binary.ofNat 1 := by
  have hname : ∀ s : Style, normalizeString (s.name ws) = trimMarkers (ws.map singular) := by
    intro s
    rw [normalizeString, Style.name, String.toList_ofList, normalize_eq, lowerWords_style s hws,
      trimMarkers_eq]
  have hsame : normalizeString (s.name ws) = normalizeString (t.name ws) := by rw [hname, hname]
  exact ⟨hname s, hsame, scoreWords_eq_one_iff.mpr hsame⟩

/-- Three words in camel case and in capitals. -/
theorem normalize_style_sample :
    (∀ w ∈ ["stg".toList, "customer".toList, "orders".toList], IsSmallWord w) ∧
    Style.camel.name ["stg".toList, "customer".toList, "orders".toList] = "stgCustomerOrders" ∧
    Style.screamingSnake.name ["stg".toList, "customer".toList, "orders".toList] =
      "STG_CUSTOMER_ORDERS" ∧
    normalizeString "stgCustomerOrders" = ["customer".toList, "order".toList] ∧
    normalizeString "stgCustomerOrders" = normalizeString "STG_CUSTOMER_ORDERS" ∧
    scoreNames "stgCustomerOrders" "STG_CUSTOMER_ORDERS" = Binary.ofNat 1 := by
  have hws : ∀ w ∈ ["stg".toList, "customer".toList, "orders".toList], IsSmallWord w := by
    have hsmall : ∀ w ∈ ["stg".toList, "customer".toList, "orders".toList],
        2 ≤ w.length ∧ w.all Char.isLower = true := by decide
    exact fun w hw => ⟨(hsmall w hw).1, List.all_eq_true.mp (hsmall w hw).2⟩
  have hcamel : Style.camel.name ["stg".toList, "customer".toList, "orders".toList] =
    "stgCustomerOrders" := by decide
  have hcapitals : Style.screamingSnake.name ["stg".toList, "customer".toList, "orders".toList] =
    "STG_CUSTOMER_ORDERS" := by decide
  obtain ⟨hwords, hsame, hscore⟩ := normalize_style hws .camel .screamingSnake
  rw [hcamel, hcapitals] at hsame hscore
  rw [hcamel] at hwords
  exact ⟨hws, hcamel, hcapitals, hwords.trans (by decide), hsame, hscore⟩

end Styles

end TierLineage.Matching
