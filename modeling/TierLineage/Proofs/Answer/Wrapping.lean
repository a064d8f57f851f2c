import TierLineage.Answer.Analysis
import TierLineage.Proofs.Text.Parts

/-!
# Payloads and what is around them

A payload that stands in the first fenced block of an answer, or that is the only thing in braces in an answer
without fences, is found whatever else the answer says.  So the analysis is that of the payload, and it does
not depend on how the payload is wrapped.
-/

namespace TierLineage.Answer

open TierLineage.Text

section Cutting

variable {mark cs front back : List Char}

theorem cutAt?_eq_none_iff (hmark : mark ≠ []) : cutAt? mark cs = none ↔ ¬mark <:+: cs := by
  induction cs with
  | nil => simp [cutAt?, hmark]
  | cons c cs ih =>
    rw [cutAt?, List.infix_cons_iff, not_or]
    split
    · next rest h =>
      have hstarts : mark <+: c :: cs := ⟨rest, (after?_eq_some_iff.mp h).symm⟩
      simp [hstarts]
    · next h => rw [Option.map_eq_none_iff, ih, and_iff_right (after?_eq_none_iff.mp h)]

/-- A fence is found behind a text that holds none and does not end with a backtick. -/
theorem cutAt?_fence (hfront : ¬fence <:+: front) (hlast : front.getLast? ≠ some '\x60')
    (back : List Char) : cutAt? fence (front ++ fence ++ back) = some (front, back) := by
  induction front with
  | nil => simp [fence, cutAt?, after?]
  | cons c front ih =>
    rw [List.infix_cons_iff, not_or] at hfront
    have hnone : after? (c :: (front ++ fence ++ back)) fence = none := by
      rw [after?_eq_none_iff]
      intro hstarts
      have hprefix : c :: front <+: c :: (front ++ fence ++ back) := ⟨fence ++ back, by simp⟩
      rcases List.prefix_or_prefix_of_prefix hstarts hprefix with h | h
      · exact hfront.1 h
      · -- the text in front would be a start of the fence
        have hmem : (c :: front).getLast (List.cons_ne_nil c front) ∈ fence :=
          h.subset (List.getLast_mem _)
        rw [List.getLast?_eq_some_getLast (List.cons_ne_nil c front)] at hlast
        simp only [fence, List.mem_cons, List.not_mem_nil, or_false, or_self] at hmem
        exact hlast (congrArg some hmem)
    have hrest : front.getLast? ≠ some '\x60' := by
      intro h
      rw [List.getLast?_cons, h] at hlast
      exact hlast rfl
    rw [List.cons_append, List.cons_append, cutAt?, hnone, ih hfront.2 hrest]
    rfl

end Cutting

section Wrapping

/-- A text that is written like an object and holds no fence. -/
structure IsObjectText (p : List Char) : Prop where
  opens : p.head? = some '\x7b'
  closes : p.getLast? = some '\x7d'
  unfenced : ¬fence <:+: p

/-- The tags that a fence may have. -/
def tags : List (List Char) :=
  [[], "json".toList, "JSON".toList]

/-- The answers that consist of a payload and texts around it: the payload is on lines of its own in the
first fenced block, or there are no fences and nothing in front of it or behind it looks like its ends. -/
inductive Wraps (p : List Char) : List Char → Prop
  | fenced {front tag back : List Char} (hfront : ¬fence <:+: front)
      (hlast : front.getLast? ≠ some '\x60') (htag : tag ∈ tags) :
      Wraps p (front ++ fence ++ tag ++ ['\n'] ++ p ++ ['\n'] ++ fence ++ back)
  | bare {front back : List Char} (hfront : '\x7b' ∉ front) (hback : '\x7d' ∉ back)
      (hfence : ¬fence <:+: front ++ p ++ back) : Wraps p (front ++ p ++ back)

variable {p raw : List Char}

theorem withoutTag_append {tag : List Char} (htag : tag ∈ tags) (cs : List Char) :
    withoutTag (tag ++ '\n' :: cs) = '\n' :: cs := by
  simp only [tags, List.mem_cons, List.not_mem_nil, or_false] at htag
  rcases htag with rfl | rfl | rfl <;> rfl

/-- What stands between the first opening and the last closing brace. -/
theorem braced?_append (hp : p.head? = some '\x7b') (hlast : p.getLast? = some '\x7d')
    {front back : List Char} (hfront : '\x7b' ∉ front) (hback : '\x7d' ∉ back) :
    braced? (front ++ p ++ back) = some p := by
  have hdrop : ∀ {c : Char} {cs ds : List Char}, c ∉ cs → ds.head? = some c →
      (cs ++ ds).dropWhile (· != c) = ds := by
    intro c cs ds hcs hds
    obtain ⟨rest, rfl⟩ := List.head?_eq_some_iff.mp hds
    have hall : ∀ d ∈ cs, (d != c) = true := fun d hd => by
      rw [bne_iff_ne]
      rintro rfl
      exact hcs hd
    rw [List.dropWhile_append_of_pos hall, List.dropWhile_cons_of_neg (by simp)]
  have hopens : (p ++ back).head? = some '\x7b' := by
    rw [List.head?_append, hp]
    rfl
  have hcloses : p.reverse.head? = some '\x7d' := by rw [List.head?_reverse, hlast]
  have hne : p ≠ [] := List.ne_nil_of_mem (List.mem_of_getLast? hlast)
  rw [braced?, List.append_assoc, hdrop hfront hopens, List.reverse_append,
    hdrop (by simpa using hback) hcloses, List.reverse_reverse]
  exact if_neg (by simpa using hne)

/-- On lines of its own an object holds no fence either, and the line breaks are dropped. -/
theorem IsObjectText.lines (hp : IsObjectText p) : ¬fence <:+: '\n' :: (p ++ ['\n']) ∧
    trim ('\n' :: (p ++ ['\n'])) = p := by
  constructor
  · have hsuffix : ¬fence <:+ p ++ ['\n'] := by
      intro h
      have hlast := h.getLast (by simp [fence])
      simp [fence] at hlast
    rw [List.infix_cons_iff, List.infix_concat_iff, not_or, not_or]
    exact ⟨by simp [fence], hsuffix, hp.unfenced⟩
  · have hends : ∀ c, Matching.AtEnd p c → isBlank c = false := by
      rintro c (hfirst | hlast)
      · obtain rfl : '\x7b' = c := Option.some.inj (hp.opens.symm.trans hfirst)
        rfl
      · obtain rfl : '\x7d' = c := Option.some.inj (hp.closes.symm.trans hlast)
        rfl
    have hbreak : ∀ c ∈ ['\n'], isBlank c = true := List.forall_mem_singleton.mpr rfl
    exact trimBy_append hbreak hbreak hends

theorem fenced?_of_cuts {front block content back : List Char}
    (hraw : cutAt? fence raw = some (front, block))
    (hblock : cutAt? fence (withoutTag block) = some (content, back)) :
    fenced? raw = some (trim content) := by
  simp only [fenced?, hraw, hblock, Option.bind_eq_bind, Option.bind_some]
  rfl

theorem IsObjectText.fenced?_eq (hp : IsObjectText p) {front tag : List Char} (hfront : ¬fence <:+: front)
    (hlast : front.getLast? ≠ some '\x60') (htag : tag ∈ tags) (back : List Char) :
    fenced? (front ++ fence ++ tag ++ ['\n'] ++ p ++ ['\n'] ++ fence ++ back) = some p := by
  obtain ⟨hlines, htrim⟩ := hp.lines
  have hbreak : ('\n' :: (p ++ ['\n'])).getLast? ≠ some '\x60' := by
    rw [← List.cons_append, List.getLast?_concat]
    decide
  have hblock : cutAt? fence (withoutTag (tag ++ ('\n' :: (p ++ ['\n']) ++ fence ++ back))) =
      some ('\n' :: (p ++ ['\n']), back) :=
    (congrArg (cutAt? fence) (withoutTag_append htag _)).trans (cutAt?_fence hlines hbreak back)
  have hraw := cutAt?_fence hfront hlast (tag ++ ('\n' :: (p ++ ['\n']) ++ fence ++ back))
  have hparts : front ++ fence ++ tag ++ ['\n'] ++ p ++ ['\n'] ++ fence ++ back =
      front ++ fence ++ (tag ++ ('\n' :: (p ++ ['\n']) ++ fence ++ back)) := by simp
  rw [hparts, fenced?_of_cuts hraw hblock, htrim]

theorem fenced?_eq_none (h : ¬fence <:+: raw) : fenced? raw = none := by
  have hne : fence ≠ [] := List.cons_ne_nil _ _
  rw [fenced?, (cutAt?_eq_none_iff hne).mpr h]
  rfl

theorem Wraps.payload?_eq (hraw : Wraps p raw) (hp : IsObjectText p) : payload? raw = some p := by
  rcases hraw with ⟨hfront, hlast, htag⟩ | ⟨hfront, hback, hfence⟩
  · rw [payload?, hp.fenced?_eq hfront hlast htag, Option.some_or]
  · rw [payload?, fenced?_eq_none hfence, braced?_append hp.opens hp.closes hfront hback, Option.none_or]

/-- The analysis of an answer is that of its payload. -/
theorem analyze_of_payload {raw p : String} (h : payload? raw.toList = some p.toList) (connection : Alias)
    (fallback : String) : analyze raw connection fallback =
      (Json.decode Statement.read p).toOption.elim (fallbackAnalysis fallback) (analysisOf connection) := by
  rw [analyze, h, Option.bind_some, statement?, String.ofList_toList]
  cases (Json.decode Statement.read p).toOption <;> rfl

/-- **Wrapping makes no difference.**  An answer that consists of an object and texts around it has the
analysis of the object, if that can be read as a statement, and the fallback otherwise; so all the answers
with that object have the same analysis. -/
theorem analyze_wrapped {p raw : String} (hp : IsObjectText p.toList) (hraw : Wraps p.toList raw.toList)
    (connection : Alias) (fallback : String) :
    (∀ s, Json.decode Statement.read p = .ok s → analyze raw connection fallback = analysisOf connection s) ∧
      ((∀ s, Json.decode Statement.read p ≠ .ok s) →
        analyze raw connection fallback = ⟨fallback, none, [], true⟩) ∧
      ∀ other : String, Wraps p.toList other.toList →
        analyze other connection fallback = analyze raw connection fallback := by
  have hanalyze : ∀ {raw : String}, Wraps p.toList raw.toList → analyze raw connection fallback =
      (Json.decode Statement.read p).toOption.elim (fallbackAnalysis fallback) (analysisOf connection) :=
    fun hraw => analyze_of_payload (hraw.payload?_eq hp) connection fallback
  refine ⟨fun s hs => ?_, fun hnone => ?_, fun other hother => ?_⟩
  · rw [hanalyze hraw, hs]
    rfl
  · rw [hanalyze hraw]
    cases hdecode : Json.decode Statement.read p with
    | ok s => exact absurd hdecode (hnone s)
    | error e => rfl
  · rw [hanalyze hother, hanalyze hraw]

/-- An object in a fenced block and in a sentence, and a text that is no object in spite of its braces. -/
theorem analyze_wrapped_sample :
    let books : Alias := ⟨"books", by decide⟩
    let object := "\x7b\"summary\": \"Loads \x7bit\x7d.\"\x7d"
    let inBlock := "Sure:\n```json\n" ++ object ++ "\n```\nIs ``that`` all?"
    let inSentence := "It is " ++ object ++ ", I think."
    let said : Statement := ⟨some "Loads \x7bit\x7d.", [], none, []⟩
    (IsObjectText object.toList ∧ Wraps object.toList inBlock.toList ∧
      Wraps object.toList inSentence.toList ∧ Json.decode Statement.read object = .ok said) ∧
    analyze inBlock books "" = analysisOf books said ∧
    analyze inSentence books "" = analyze inBlock books "" ∧
    (IsObjectText "\x7bso\x7d".toList ∧ Wraps "\x7bso\x7d".toList "\x7bso\x7d".toList ∧
      ∀ s, Json.decode Statement.read "\x7bso\x7d" ≠ .ok s) ∧
    analyze "\x7bso\x7d" books "Unread." = ⟨"Unread.", none, [], true⟩ := by
  intro books object inBlock inSentence said
  have hobject : IsObjectText object.toList :=
    ⟨by decide +kernel, by decide +kernel, by decide +kernel⟩
  have hblock : Wraps object.toList inBlock.toList := by
    have htext : inBlock.toList = "Sure:\n".toList ++ fence ++ "json".toList ++ ['\n'] ++ object.toList ++
        ['\n'] ++ fence ++ "\nIs ``that`` all?".toList := by decide +kernel
    rw [htext]
    exact .fenced (by decide +kernel) (by decide +kernel) (by decide +kernel)
  have hsentence : Wraps object.toList inSentence.toList := by
    have htext : inSentence.toList = "It is ".toList ++ object.toList ++ ", I think.".toList := by
      decide +kernel
    rw [htext]
    exact .bare (by decide +kernel) (by decide +kernel) (by decide +kernel)
  have hsaid : Json.decode Statement.read object = .ok said := by decide +kernel
  have hbraces : IsObjectText "\x7bso\x7d".toList :=
    ⟨by decide +kernel, by decide +kernel, by decide +kernel⟩
  have halone : Wraps "\x7bso\x7d".toList "\x7bso\x7d".toList := by
    have hbare : Wraps "\x7bso\x7d".toList ([] ++ "\x7bso\x7d".toList ++ []) :=
      .bare (by decide +kernel) (by decide +kernel) (by decide +kernel)
    rwa [List.nil_append, List.append_nil] at hbare
  have hunread : ∀ s, Json.decode Statement.read "\x7bso\x7d" ≠ .ok s := by
    have hnone : (Json.decode Statement.read "\x7bso\x7d").toOption = none := by decide +kernel
    intro s hs
    rw [hs] at hnone
    cases hnone
  obtain ⟨hread, -, hsame⟩ := analyze_wrapped hobject hblock books ""
  obtain ⟨-, hfallback, -⟩ := analyze_wrapped hbraces halone books "Unread."
  exact ⟨⟨hobject, hblock, hsentence, hsaid⟩, hread said hsaid, hsame inSentence hsentence,
    ⟨hbraces, halone, hunread⟩, hfallback hunread⟩

end Wrapping

end TierLineage.Answer
