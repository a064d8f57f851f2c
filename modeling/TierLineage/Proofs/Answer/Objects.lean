import TierLineage.Proofs.Answer.Wrapping
import TierLineage.Proofs.Json.Spans

/-!
# Answers that are an object

An answer may be an object with nothing but white space around it.  Then the object is the payload, unless two
fences stand one behind the other in its strings: the text between them passes for a block, and what is made
of that text takes the place of what the object says.
-/

namespace TierLineage

/-- Whether a value is a record. -/
def Json.isRecord : Json → Bool
  | .record _ _ => true
  | _ => false

theorem Json.isRecord_iff {v : Json} : v.isRecord = true ↔ ∃ entries ending, v = .record entries ending := by
  cases v <;> simp [Json.isRecord]

namespace Answer

open TierLineage.Text

section Cutting

variable {mark cs front back : List Char}

/-- A text is cut at the first place where the other one stands: no part of that place belongs to an earlier
one. -/
theorem cutAt?_eq_some_iff (hmark : mark ≠ []) : cutAt? mark cs = some (front, back) ↔
    cs = front ++ mark ++ back ∧ ¬mark <:+: front ++ mark.dropLast := by
  have hdrop : ∀ front back : List Char, front ++ mark.dropLast <+: front ++ mark ++ back :=
    fun front back => ((List.prefix_append_right_inj front).mpr (List.dropLast_prefix mark)).trans
      (List.prefix_append _ back)
  have hlength : 0 < mark.length := List.length_pos_iff.mpr hmark
  induction cs generalizing front with
  | nil => simp [cutAt?, hmark]
  | cons c cs ih =>
    rw [cutAt?]
    split
    · next rest h =>
      have hcs : c :: cs = mark ++ rest := after?_eq_some_iff.mp h
      constructor
      · intro heq
        cases heq
        refine ⟨hcs, fun hin => ?_⟩
        have hle := hin.length_le
        rw [List.nil_append, List.length_dropLast] at hle
        omega
      · rintro ⟨hfront, hfirst⟩
        obtain rfl : front = [] := by
          by_contra hne
          have hpos : 0 < front.length := List.length_pos_iff.mpr hne
          have hstarts : mark <+: front ++ mark.dropLast := by
            refine List.prefix_of_prefix_length_le ⟨rest, rfl⟩ (hcs ▸ hfront ▸ hdrop front back) ?_
            rw [List.length_append, List.length_dropLast]
            omega
          exact hfirst hstarts.isInfix
        rw [List.nil_append, hcs] at hfront
        rw [List.append_cancel_left hfront]
    · next h =>
      have hnot : ¬mark <+: c :: cs := after?_eq_none_iff.mp h
      rw [Option.map_eq_some_iff]
      constructor
      · rintro ⟨⟨f, b⟩, hcut, heq⟩
        cases heq
        obtain ⟨rfl, hfirst⟩ := ih.mp hcut
        refine ⟨rfl, ?_⟩
        rw [List.cons_append, List.infix_cons_iff, not_or]
        exact ⟨fun hstarts => hnot (hstarts.trans (hdrop (c :: f) back)), hfirst⟩
      · rintro ⟨hfront, hfirst⟩
        cases front with
        | nil => exact absurd ⟨back, hfront.symm⟩ hnot
        | cons d f =>
          cases hfront
          exact ⟨(f, back), ih.mpr ⟨rfl, fun hin => hfirst (hin.trans (List.suffix_cons ..).isInfix)⟩, rfl⟩

end Cutting

section Blocks

variable {raw block content p : List Char}

/-- The first block of an answer: it stands between the first fence, with a tag behind it if there is one, and
the next fence. -/
inductive FirstBlock (content : List Char) : List Char → Prop
  | intro {front tag back : List Char} (hfront : ¬fence <:+: front ++ fence.dropLast) (htag : tag ∈ tags)
      (huntagged : tag = [] → ∀ t ∈ tags, t <+: content → t = [])
      (hcontent : ¬fence <:+: content ++ fence.dropLast) :
      FirstBlock content (front ++ fence ++ (tag ++ (content ++ fence ++ back)))

/-- Whether two fences stand one behind the other in an answer. -/
def HasBlock (raw : List Char) : Prop :=
  ∃ front content back, raw = front ++ fence ++ (content ++ fence ++ back)

theorem not_mem_of_mem_tags {t : List Char} (ht : t ∈ tags) : '\x60' ∉ t := by
  revert t
  decide

theorem eq_of_prefix_of_tags : ∀ t ∈ tags, ∀ u ∈ tags, t <+: u → t ≠ [] → t = u := by
  decide

/-- What is left of a block without its tag; a block is untagged only if it starts with no tag. -/
theorem withoutTag_eq_iff : withoutTag block = content ↔
    ∃ tag ∈ tags, block = tag ++ content ∧ (tag = [] → ∀ t ∈ tags, t <+: block → t = []) := by
  have huntag : ∀ {tag rest : List Char}, tag ∈ tags → tag ≠ [] → block = tag ++ rest →
      (rest = content ↔ ∃ tag ∈ tags, block = tag ++ content ∧
        (tag = [] → ∀ t ∈ tags, t <+: block → t = [])) := by
    intro tag rest htag hne hblock
    constructor
    · rintro rfl
      exact ⟨tag, htag, hblock, fun h => absurd h hne⟩
    · rintro ⟨t, ht, hcontent, huntagged⟩
      have htne : t ≠ [] := fun h => hne (huntagged h tag htag ⟨rest, hblock.symm⟩)
      obtain rfl : t = tag := by
        rcases List.prefix_or_prefix_of_prefix ⟨content, hcontent.symm⟩ ⟨rest, hblock.symm⟩ with h | h
        · exact eq_of_prefix_of_tags t ht tag htag h htne
        · exact (eq_of_prefix_of_tags tag htag t ht h hne).symm
      exact List.append_cancel_left (hblock.symm.trans hcontent)
  rw [withoutTag]
  split
  · next rest h => exact huntag (by decide) (by decide) (after?_eq_some_iff.mp h)
  · next rest hnone h => exact huntag (by decide) (by decide) (after?_eq_some_iff.mp h)
  · next hjson hJSON =>
    have hnone : ∀ t ∈ tags, t <+: block → t = [] := by
      intro t ht hstarts
      simp only [tags, List.mem_cons, List.not_mem_nil, or_false] at ht
      rcases ht with rfl | rfl | rfl
      · rfl
      · exact absurd hstarts (after?_eq_none_iff.mp hjson)
      · exact absurd hstarts (after?_eq_none_iff.mp hJSON)
    constructor
    · rintro rfl
      exact ⟨[], List.mem_cons_self, rfl, fun _ => hnone⟩
    · rintro ⟨t, ht, hcontent, -⟩
      obtain rfl : t = [] := hnone t ht ⟨content, hcontent.symm⟩
      exact hcontent

/-- A text in front of a fence starts with a tag exactly if it does so without the fence. -/
theorem prefix_append_fence_iff {t back : List Char} (ht : t ∈ tags) :
    t <+: content ++ fence ++ back ↔ t <+: content := by
  rw [List.append_assoc]
  refine ⟨fun h => ?_, fun h => h.trans (List.prefix_append ..)⟩
  rcases List.prefix_or_prefix_of_prefix h (List.prefix_append ..) with h' | ⟨u, rfl⟩
  · exact h'
  · cases u with
    | nil => simp
    | cons c u =>
      -- the tag would reach into the fence
      have hc : c = '\x60' := (List.cons_prefix_cons.mp ((List.prefix_append_right_inj content).mp h)).1
      exact absurd (hc ▸ List.mem_append_right content List.mem_cons_self) (not_mem_of_mem_tags ht)

/-- What is found is the text of the first block without white space around it. -/
theorem fenced?_eq_some_iff : fenced? raw = some p ↔ ∃ content, FirstBlock content raw ∧ trim content = p := by
  have hne : fence ≠ [] := List.cons_ne_nil _ _
  have hcuts : fenced? raw = some p ↔ ∃ front block, cutAt? fence raw = some (front, block) ∧
      ∃ content back, cutAt? fence (withoutTag block) = some (content, back) ∧ trim content = p := by
    simp [fenced?, Option.bind_eq_some_iff]
  rw [hcuts]
  constructor
  · rintro ⟨front, block, hraw, content, back, hblock, rfl⟩
    obtain ⟨rfl, hfront⟩ := (cutAt?_eq_some_iff hne).mp hraw
    obtain ⟨hrest, hcontent⟩ := (cutAt?_eq_some_iff hne).mp hblock
    obtain ⟨tag, htag, rfl, huntagged⟩ := withoutTag_eq_iff.mp hrest
    refine ⟨content, .intro hfront htag (fun hnil t ht hstarts => ?_) hcontent, rfl⟩
    refine huntagged hnil t ht ?_
    rw [hnil, List.nil_append]
    exact (prefix_append_fence_iff ht).mpr hstarts
  · rintro ⟨content, ⟨hfront, htag, huntagged, hcontent⟩, rfl⟩
    refine ⟨_, _, (cutAt?_eq_some_iff hne).mpr ⟨rfl, hfront⟩, content, _,
      (cutAt?_eq_some_iff hne).mpr ⟨withoutTag_eq_iff.mpr ⟨_, htag, rfl, fun hnil t ht hstarts => ?_⟩,
        hcontent⟩, rfl⟩
    rw [hnil, List.nil_append] at hstarts
    exact huntagged hnil t ht ((prefix_append_fence_iff ht).mp hstarts)

theorem FirstBlock.hasBlock (h : FirstBlock content raw) : HasBlock raw := by
  obtain @⟨front, tag, back, -, -, -, -⟩ := h
  exact ⟨front, tag ++ content, back, by simp only [List.append_assoc]⟩

theorem infix_of_infix_tag {tag cs : List Char} (htag : tag ∈ tags) (h : fence <:+: tag ++ cs) :
    fence <:+: cs := by
  simp only [tags, List.mem_cons, List.not_mem_nil, or_false] at htag
  rcases htag with rfl | rfl | rfl
  · exact h
  · simpa [List.infix_cons_iff, fence] using h
  · simpa [List.infix_cons_iff, fence] using h

/-- Of two fences one behind the other the first one opens a block. -/
theorem HasBlock.exists_firstBlock (h : HasBlock raw) : ∃ content, FirstBlock content raw := by
  have hne : fence ≠ [] := List.cons_ne_nil _ _
  obtain ⟨a, b, c, hraw⟩ := h
  have hopens : fence <:+: raw := ⟨a, b ++ fence ++ c, hraw.symm⟩
  obtain ⟨⟨front, block⟩, hcut⟩ := Option.ne_none_iff_exists'.mp
    fun hnone => (cutAt?_eq_none_iff hne).mp hnone hopens
  obtain ⟨hfront, hfirst⟩ := (cutAt?_eq_some_iff hne).mp hcut
  have hle : front.length ≤ a.length := by
    by_contra hlt
    -- otherwise the fence behind `a` would be an earlier one
    have hearlier : a ++ fence <+: front ++ fence.dropLast := by
      have hstarts : front ++ fence.dropLast <+: raw := by
        rw [hfront, List.append_assoc, List.prefix_append_right_inj]
        exact (List.dropLast_prefix fence).trans (List.prefix_append ..)
      refine List.prefix_of_prefix_length_le ⟨_, hraw.symm⟩ hstarts ?_
      rw [List.length_append, List.length_append, List.length_dropLast]
      omega
    exact hfirst ((List.suffix_append a fence).isInfix.trans hearlier.isInfix)
  have hsuffix : b ++ fence ++ c <:+ block := by
    have hends : b ++ fence ++ c <:+ raw := ⟨_, hraw.symm⟩
    refine List.suffix_of_suffix_length_le hends ⟨_, hfront.symm⟩ ?_
    have hlength := congrArg List.length (hraw.symm.trans hfront)
    simp only [List.length_append] at hlength ⊢
    omega
  obtain ⟨tag, htag, hblock, -⟩ := withoutTag_eq_iff.mp (rfl : withoutTag block = _)
  have hcloses : fence <:+: withoutTag block := by
    refine infix_of_infix_tag htag (hblock ▸ ?_)
    exact List.IsInfix.trans ⟨b, c, rfl⟩ hsuffix.isInfix
  obtain ⟨⟨content, back⟩, hcut'⟩ := Option.ne_none_iff_exists'.mp
    fun hnone => (cutAt?_eq_none_iff hne).mp hnone hcloses
  obtain ⟨content, hcontent, -⟩ := fenced?_eq_some_iff.mp (fenced?_of_cuts hcut hcut')
  exact ⟨content, hcontent⟩

theorem hasBlock_iff : HasBlock raw ↔ (fenced? raw).isSome = true := by
  rw [Option.isSome_iff_exists]
  constructor
  · intro h
    obtain ⟨content, hcontent⟩ := h.exists_firstBlock
    exact ⟨trim content, fenced?_eq_some_iff.mpr ⟨content, hcontent, rfl⟩⟩
  · rintro ⟨p, hp⟩
    obtain ⟨content, hcontent, -⟩ := fenced?_eq_some_iff.mp hp
    exact hcontent.hasBlock

instance (raw : List Char) : Decidable (HasBlock raw) :=
  decidable_of_iff _ hasBlock_iff.symm

end Blocks

section Objects

/-- Whether a text is an object. -/
def IsObject (text : String) : Prop :=
  (Json.parse text).root.isRecord = true

instance (text : String) : Decidable (IsObject text) :=
  inferInstanceAs (Decidable (_ = true))

variable {raw : String} {s : Statement}

theorem isBlank_of_isSpace {c : Char} (h : Json.Parser.isSpace c = true) : isBlank c = true := by
  simp only [Json.Parser.isSpace, Bool.or_eq_true, beq_iff_eq] at h
  rcases h with ((rfl | rfl) | rfl) | rfl <;> rfl

/-- An object that can be read, with nothing but white space around it, is what stands between the braces of
the answer. -/
theorem braced?_of_isObject (hobject : IsObject (trimString raw))
    (hread : Json.decode Statement.read (trimString raw) = .ok s) :
    braced? raw.toList = some (trimString raw).toList := by
  obtain ⟨entries, ending, hroot⟩ := Json.isRecord_iff.mp hobject
  obtain ⟨hfinished, hcomplete⟩ := Json.complete_of_decode hread
  obtain ⟨front, back, hraw, hfront, hback⟩ := Matching.exists_eq_stripped isBlank raw.toList
  have htrim : (trimString raw).toList = Matching.stripped isBlank raw.toList := String.toList_ofList
  have hends : ∀ c, Matching.AtEnd (trimString raw).toList c → Json.Parser.isSpace c = false := by
    intro c hc
    rw [htrim] at hc
    have hblank := Matching.stripped_eq_self_iff.mp (Matching.stripped_stripped fun _ => id) c hc
    rw [Bool.eq_false_iff] at hblank ⊢
    exact fun hspace => hblank (isBlank_of_isSpace hspace)
  obtain ⟨hopens, hcloses⟩ := Json.braces_of_record hroot hfinished hcomplete
    (fun c hc => hends c (.inl hc)) fun c hc => hends c (.inr hc)
  have hnotMem : ∀ {c : Char} {cs : List Char}, isBlank c = false → (∀ d ∈ cs, isBlank d = true) →
      c ∉ cs := by
    intro c cs hc hcs hmem
    rw [hcs c hmem] at hc
    cases hc
  rw [hraw, ← htrim]
  exact braced?_append hopens hcloses (hnotMem rfl hfront) (hnotMem rfl hback)

/-- **An answer that is nothing but an object is read as the object unless it has a block.**  If two fences stand
one behind the other in its strings, it has the analysis of the text of the first block if that can be read
as a statement, and the fallback otherwise. -/
theorem analyze_object (hobject : IsObject (trimString raw))
    (hread : Json.decode Statement.read (trimString raw) = .ok s) (connection : Alias) (fallback : String) :
    (¬HasBlock raw.toList → (analyze raw connection fallback).fallback = false ∧
      analyze raw connection fallback = analysisOf connection s) ∧
    (HasBlock raw.toList → ∃ content : String, FirstBlock content.toList raw.toList ∧
      (∀ t, Json.decode Statement.read (trimString content) = .ok t →
        analyze raw connection fallback = analysisOf connection t) ∧
      ((∀ t, Json.decode Statement.read (trimString content) ≠ .ok t) →
        analyze raw connection fallback = ⟨fallback, none, [], true⟩)) := by
  constructor
  · intro hblock
    have hnone : fenced? raw.toList = none := by
      rwa [hasBlock_iff, Bool.not_eq_true, Option.isSome_eq_false_iff, Option.isNone_iff_eq_none] at hblock
    have hpayload : payload? raw.toList = some (trimString raw).toList := by
      rw [payload?, hnone, Option.none_or, braced?_of_isObject hobject hread]
    have hanalyze := analyze_of_payload hpayload connection fallback
    rw [hread] at hanalyze
    exact ⟨congrArg Analysis.fallback hanalyze, hanalyze⟩
  · intro hblock
    obtain ⟨content, hcontent⟩ := hblock.exists_firstBlock
    have hpayload : payload? raw.toList = some (trimString (String.ofList content)).toList := by
      rw [payload?, fenced?_eq_some_iff.mpr ⟨content, hcontent, rfl⟩, Option.some_or, trimString,
        String.toList_ofList, String.toList_ofList]
    have hanalyze := analyze_of_payload hpayload connection fallback
    refine ⟨String.ofList content, String.toList_ofList ▸ hcontent, fun t ht => ?_, fun hnone => ?_⟩
    · rw [hanalyze, ht]
      rfl
    · rw [hanalyze]
      cases hdecode : Json.decode Statement.read (trimString (String.ofList content)) with
      | ok t => exact absurd hdecode (hnone t)
      | error e => rfl

/-- An object with one fence in a string, and one whose string quotes code. -/
theorem analyze_object_sample :
    let books : Alias := ⟨"books", by decide⟩
    let plain := " \x7b\"summary\": \"Three: ```.\"\x7d\n"
    let quoting := "\x7b\"summary\": \"Runs ```EXEC load``` daily.\"\x7d"
    let said : Statement := ⟨some "Three: ```.", [], none, []⟩
    let lost : Statement := ⟨some "Runs ```EXEC load``` daily.", [], none, []⟩
    (IsObject (trimString plain) ∧ Json.decode Statement.read (trimString plain) = .ok said ∧
      ¬HasBlock plain.toList) ∧
    analyze plain books "Unread." = analysisOf books said ∧
    (IsObject (trimString quoting) ∧ Json.decode Statement.read (trimString quoting) = .ok lost ∧
      HasBlock quoting.toList ∧ ∀ t, Json.decode Statement.read "EXEC load" ≠ .ok t) ∧
    analyze quoting books "Unread." = ⟨"Unread.", none, [], true⟩ := by
  intro books plain quoting said lost
  have hplain : IsObject (trimString plain) ∧ Json.decode Statement.read (trimString plain) = .ok said ∧
      ¬HasBlock plain.toList := ⟨by decide +kernel, by decide +kernel, by decide +kernel⟩
  have hunread : ∀ t, Json.decode Statement.read "EXEC load" ≠ .ok t := by
    have hnone : (Json.decode Statement.read "EXEC load").toOption = none := by decide +kernel
    intro t ht
    rw [ht] at hnone
    cases hnone
  have hquoting : IsObject (trimString quoting) ∧ Json.decode Statement.read (trimString quoting) = .ok lost ∧
      HasBlock quoting.toList ∧ ∀ t, Json.decode Statement.read "EXEC load" ≠ .ok t :=
    ⟨by decide +kernel, by decide +kernel, by decide +kernel, hunread⟩
  obtain ⟨content, hcontent, -, hfallback⟩ :=
    (analyze_object hquoting.1 hquoting.2.1 books "Unread.").2 hquoting.2.2.1
  have hfound : fenced? quoting.toList = some "EXEC load".toList := by decide +kernel
  have htrim : trimString content = "EXEC load" := by
    rw [fenced?_eq_some_iff.mpr ⟨_, hcontent, rfl⟩] at hfound
    rw [trimString, Option.some.inj hfound, String.ofList_toList]
  exact ⟨hplain, ((analyze_object hplain.1 hplain.2.1 books "Unread.").1 hplain.2.2).2, hquoting,
    hfallback (htrim ▸ hunread)⟩

/-- An object whose strings quote code is lost. -/
theorem not_keeps_quoting_object :
    ¬∀ (raw : String) (s : Statement) (connection : Alias) (fallback : String),
      IsObject (trimString raw) → Json.decode Statement.read (trimString raw) = .ok s →
        (analyze raw connection fallback).fallback = false ∧
          analyze raw connection fallback = analysisOf connection s := by
  intro h
  have hkept := h "\x7b\"summary\": \"Runs ```EXEC load``` daily.\"\x7d"
    ⟨some "Runs ```EXEC load``` daily.", [], none, []⟩ ⟨"books", by decide⟩ "Unread."
    (by decide +kernel) (by decide +kernel)
  exact absurd hkept.1 (by decide +kernel)

end Objects

end Answer

end TierLineage
