import TierLineage.Proofs.Json.Fields
import TierLineage.Proofs.Outcome
import TierLineage.Proofs.Service.BulkReport
import TierLineage.Proofs.Store.Key
import TierLineage.Proofs.Text.Octets
import TierLineage.Proofs.Web.Routing

/-!
# Bodies that narrow an analysis down

The procedures of a connection are analyzed all together, or those of one schema.  Which of the two, the
body says: blanks leave the request as wide as it is, and data narrows it down if it is announced as data
and starts with a record of one field, or with the list that stands for such a record.  Any other body
is refused, and nothing happens.  What follows the data is not looked at, so a body may be accepted that
is not data as a whole.
-/

namespace TierLineage

namespace Json

/-! ### Endings -/

namespace Parser

/-- In a text of data containers are closed, or the text goes wrong. -/
theorem items_ending (bound : Nat) (cs : List Char) : (items bound cs).2.1 ≠ .lax := by
  induction bound generalizing cs with
  | zero => rintro ⟨⟩
  | succ bound ih =>
    simp only [items]
    split
    · rintro ⟨⟩
    · split
      · exact ih _
      · rintro ⟨⟩
      · rintro ⟨⟩

theorem entries_ending (bound : Nat) (cs : List Char) : (entries bound cs).2.1 ≠ .lax := by
  induction bound generalizing cs with
  | zero => rintro ⟨⟩
  | succ bound ih =>
    simp only [entries]
    split
    · split
      · rintro ⟨⟩
      · split
        · split
          · rintro ⟨⟩
          · split
            · exact ih _
            · rintro ⟨⟩
            · rintro ⟨⟩
        · rintro ⟨⟩
    · rintro ⟨⟩

end Parser

/-- How the container at the root of a tree ended, if it is one. -/
def ending? : Json → Option Ending
  | .list _ e => some e
  | .record _ e => some e
  | _ => none

theorem Parser.value_ending (bound : Nat) (cs : List Char) :
    (value bound cs).1.ending? ≠ some .lax := by
  cases bound with
  | zero => rintro ⟨⟩
  | succ bound =>
    simp only [value]
    split
    · rintro ⟨⟩
    · rintro ⟨⟩
    · rintro ⟨⟩
    · split <;> rintro ⟨⟩
    · split
      · rintro ⟨⟩
      · exact fun h => items_ending bound _ (Option.some.inj h)
    · split
      · rintro ⟨⟩
      · exact fun h => entries_ending bound _ (Option.some.inj h)
    · split <;> rintro ⟨⟩

theorem ending?_parse (text : String) : (parse text).root.ending? ≠ some .lax := by
  rw [parse]
  exact Parser.value_ending _ _

end Json

namespace Web

open TierLineage.Text

/-! ### Data -/

/-- Whether data asks for a schema or, without one, for all: it is a record of a schema, or the list
that stands for such a record. -/
inductive AsksFor : Json → Option String → Prop
  | nothing : AsksFor (Json.obj []) none
  | null : AsksFor (Json.obj [("schema", .null)]) none
  | schema (s : String) : AsksFor (Json.obj [("schema", Json.str s)]) (some s)
  | noItem : AsksFor (Json.arr []) none
  | nullItem : AsksFor (Json.arr [.null]) none
  | schemaItem (s : String) : AsksFor (Json.arr [Json.str s]) (some s)

theorem AsksFor.finished {v : Json} {schema : Option String} (h : AsksFor v schema) :
    v.finished = true := by
  cases h <;> rfl

namespace Request

/-- The field by which a request can be narrowed down. -/
def schemaField : Json.Field :=
  Json.may "schema" (Json.readOption Json.readText)

/-- What may stand in it. -/
theorem readOption_eq_ok_iff {v : Json} {schema : Option String} :
    Json.readOption Json.readText v = .ok schema ↔
      v = .null ∧ schema = none ∨ ∃ s, v = Json.str s ∧ schema = some s := by
  constructor
  · intro h
    cases v with
    | null => exact .inl ⟨rfl, (Except.ok.inj h).symm⟩
    | text s =>
      cases s with
      | none => cases h
      | some s => exact .inr ⟨s, rfl, (Except.ok.inj h).symm⟩
    | bool b => cases h
    | number n => cases h
    | measured q => cases h
    | list items e => cases h
    | record entries e => cases h
    | broken => cases h
  · rintro (⟨rfl, rfl⟩ | ⟨s, rfl, rfl⟩) <;> rfl

theorem check_schemaField {v : Json} (h : schemaField.check v = .ok ()) :
    v = .null ∨ ∃ s, v = Json.str s := by
  obtain ⟨o, ho, -⟩ := map_eq_ok.mp h
  exact (readOption_eq_ok_iff.mp ho).imp And.left fun ⟨s, hs, _⟩ => ⟨s, hs⟩

theorem checkEnding_eq_ok {e : Json.Ending} (hlax : e ≠ .lax) (h : Json.checkEnding e = .ok ()) :
    e = .closed := by
  cases e with
  | closed => rfl
  | lax => exact absurd rfl hlax
  | unfinished => cases h

/-- What is found in a list. -/
theorem foundByPlace_schemaField {e : Json.Ending} {items : List Json} {found : Json.Found}
    (hlax : e ≠ .lax) (h : Json.foundByPlace e [schemaField] items = .ok found) :
    e = .closed ∧ (items = [] ∧ found = [] ∨
      ∃ v, items = [v] ∧ found = [("schema", v)] ∧ (v = .null ∨ ∃ s, v = Json.str s)) := by
  cases items with
  | nil =>
    cases e with
    | closed => exact ⟨rfl, .inl ⟨rfl, (Except.ok.inj h).symm⟩⟩
    | lax => exact absurd rfl hlax
    | unfinished => cases h
  | cons v rest =>
    obtain ⟨_, hcheck, h⟩ := bind_eq_ok.mp h
    obtain ⟨more, hmore, h⟩ := bind_eq_ok.mp h
    cases rest with
    | nil =>
      obtain ⟨_, hending, hnone⟩ := bind_eq_ok.mp hmore
      cases hnone
      cases h
      exact ⟨checkEnding_eq_ok hlax hending, .inr ⟨v, rfl, rfl, check_schemaField hcheck⟩⟩
    | cons w ws =>
      rw [Json.foundByPlace, if_neg hlax] at hmore
      cases hmore

/-- The only field that a name may stand for. -/
theorem find?_schemaField {k : String} {f : Json.Field}
    (h : [schemaField].find? (·.name == k) = some f) : k = "schema" ∧ f = schemaField := by
  have hname := List.find?_some h
  obtain rfl := List.mem_singleton.mp (List.mem_of_find?_eq_some h)
  exact ⟨(beq_iff_eq.mp hname).symm, rfl⟩

/-- What is found in the entries of a record once some were read. -/
theorem foundByName_cases {e : Json.Ending} {entries : List (Option String × Json)}
    {before found : Json.Found} (hlax : e ≠ .lax)
    (h : Json.foundByName [schemaField] true e entries before = .ok found) :
    entries = [] ∧ e = .closed ∧ found = before ∨
      ∃ v rest, entries = (some "schema", v) :: rest ∧ before.lookup "schema" = none ∧
        (v = .null ∨ ∃ s, v = Json.str s) ∧
        Json.foundByName [schemaField] true e rest (("schema", v) :: before) = .ok found := by
  rcases entries with _ | ⟨⟨_ | k, v⟩, rest⟩
  · obtain ⟨_, hending, hfound⟩ := bind_eq_ok.mp h
    cases hfound
    exact .inl ⟨rfl, checkEnding_eq_ok hlax hending, rfl⟩
  · cases h
  · rw [Json.foundByName] at h
    split at h
    · next f hf =>
      obtain ⟨rfl, rfl⟩ := find?_schemaField hf
      split at h
      · cases h
      · next hnew =>
        obtain ⟨_, hcheck, h⟩ := bind_eq_ok.mp h
        exact .inr ⟨v, rest, rfl, Option.not_isSome_iff_eq_none.mp hnew, check_schemaField hcheck, h⟩
    · cases h

/-- What is found in a record. -/
theorem foundByName_schemaField {e : Json.Ending} {entries : List (Option String × Json)}
    {found : Json.Found} (hlax : e ≠ .lax)
    (h : Json.foundByName [schemaField] true e entries [] = .ok found) :
    e = .closed ∧ (entries = [] ∧ found = [] ∨
      ∃ v, entries = [(some "schema", v)] ∧ found = [("schema", v)] ∧
        (v = .null ∨ ∃ s, v = Json.str s)) := by
  rcases foundByName_cases hlax h with ⟨rfl, he, rfl⟩ | ⟨v, rest, rfl, -, hv, h⟩
  · exact ⟨he, .inl ⟨rfl, rfl⟩⟩
  · rcases foundByName_cases hlax h with ⟨rfl, he, rfl⟩ | ⟨w, _, -, hnew, -, -⟩
    · exact ⟨he, .inr ⟨v, rfl, rfl, hv⟩⟩
    · -- the field is not given twice
      cases hnew

/-- A schema is read from data exactly if the data asks for it. -/
theorem readSchema_eq_ok_iff {v : Json} {schema : Option String} (hv : v.ending? ≠ some .lax) :
    readSchema v = .ok schema ↔ AsksFor v schema := by
  constructor
  · intro h
    obtain ⟨found, hfound, hread⟩ := bind_eq_ok.mp h
    cases v with
    | list items e =>
      obtain ⟨rfl, ⟨rfl, rfl⟩ | ⟨v, rfl, rfl, rfl | ⟨s, rfl⟩⟩⟩ :=
        foundByPlace_schemaField (fun he => hv (congrArg some he)) hfound <;> cases hread
      · exact .noItem
      · exact .nullItem
      · exact .schemaItem s
    | record entries e =>
      obtain ⟨rfl, ⟨rfl, rfl⟩ | ⟨v, rfl, rfl, rfl | ⟨s, rfl⟩⟩⟩ :=
        foundByName_schemaField (fun he => hv (congrArg some he)) hfound <;> cases hread
      · exact .nothing
      · exact .null
      · exact .schema s
    | null => cases hfound
    | bool b => cases hfound
    | number n => cases hfound
    | measured q => cases hfound
    | text s => cases hfound
    | broken => cases hfound
  · rintro (_ | _ | _ | _ | _ | _) <;> rfl

/-! ### Announcements -/

/-- Whether a header value is a text that starts, behind blanks, with the media type of data. -/
def Announces (value : String) : Prop :=
  (∀ c ∈ value.toList, isVisible c = true) ∧ ∃ blanks rest, value.toList = blanks ++ rest ∧
    (∀ c ∈ blanks, isBlank c = true) ∧ "application/json".toList <+: rest

theorem startsAsJson_iff {value : String} : startsAsJson value = true ↔ Announces value := by
  rw [startsAsJson, Bool.and_eq_true, List.all_eq_true, startsWith_iff, trimStartBy]
  refine and_congr_right fun _ => ⟨fun h => ?_, ?_⟩
  · exact ⟨_, _, List.takeWhile_append_dropWhile.symm,
      fun c hc => List.all_eq_true.mp List.all_takeWhile c hc, h⟩
  · rintro ⟨blanks, _, h, hblanks, rest, rfl⟩
    rw [h, List.dropWhile_append_of_pos hblanks]
    exact ⟨rest, rfl⟩

/-! ### Bodies -/

/-- Whether a body says which procedures are to be analyzed: those of a schema, or all. -/
inductive Narrows (r : Request) : Option String → Prop
  /-- Blanks leave the request as wide as it is. -/
  | blank (h : ∀ b ∈ r.body, isSeparator b = true) : Narrows r none
  /-- Any other body has to be announced as data, and starts with data that asks for them. -/
  | data {schema : Option String} {value : String} (hbody : ∃ b ∈ r.body, isSeparator b = false)
    (hheader : r.header? "content-type" = some value) (hvalue : Announces value)
    (hdata : AsksFor (Json.parse (dataText r.body)).root schema) : Narrows r schema

variable {r : Request} {schema : Option String}

theorem contentOf_readSchema_iff {body : List Nat} : contentOf readSchema body = .ok schema ↔
    AsksFor (Json.parse (dataText body)).root schema := by
  have hread : readSchema (Json.parse (dataText body)).root = .ok schema ↔
      AsksFor (Json.parse (dataText body)).root schema :=
    readSchema_eq_ok_iff (Json.ending?_parse (dataText body))
  constructor
  · intro h
    obtain ⟨a, ha, hfinished⟩ := bind_eq_ok.mp (ok_of_mapError h)
    split at hfinished <;> cases hfinished
    exact hread.mp ha
  · intro h
    have hdecode : Json.decodeFront readSchema (dataText body) = .ok schema :=
      bind_eq_ok.mpr ⟨schema, hread.mpr h, if_pos h.finished⟩
    rw [contentOf, hdecode]
    rfl

/-- What is made of a body is what it says. -/
theorem schema_eq_ok_iff : r.schema = .ok schema ↔ r.Narrows schema := by
  by_cases hblank : r.body.all isSeparator = true
  · have hall := List.all_eq_true.mp hblank
    rw [Request.schema, if_pos hblank]
    constructor
    · intro h
      obtain rfl := Except.ok.inj h
      exact .blank hall
    · rintro (_ | ⟨⟨b, hb, hother⟩, -, -, -⟩)
      · rfl
      · rw [hall b hb] at hother
        cases hother
  · obtain ⟨b, hb, hother⟩ := List.all_eq_false.mp (Bool.eq_false_iff.mpr hblank)
    rw [Request.schema, if_neg hblank]
    constructor
    · intro h
      split at h
      · cases h
      · next hannounced =>
        rw [Bool.not_eq_true', Bool.not_eq_false] at hannounced
        cases hheader : r.header? "content-type" with
        | none =>
          rw [hheader] at hannounced
          cases hannounced
        | some value =>
          rw [hheader, Option.any_some] at hannounced
          exact .data ⟨b, hb, Bool.eq_false_iff.mpr hother⟩ hheader (startsAsJson_iff.mp hannounced)
            (contentOf_readSchema_iff.mp h)
    · rintro (hall | ⟨-, hheader, hvalue, hdata⟩)
      · exact absurd (hall b hb) hother
      · rw [hheader, Option.any_some, startsAsJson_iff.mpr hvalue]
        exact contentOf_readSchema_iff.mpr hdata

/-- A body that says nothing of the kind is no valid input. -/
theorem exists_of_schema_eq_error {p : Problem} (h : r.schema = .error p) :
    ∃ message, p = .invalidInput message := by
  rw [Request.schema] at h
  split at h
  · cases h
  · split at h
    · exact ⟨_, (Except.error.inj h).symm⟩
    · cases hdecode : Json.decodeFront readSchema (dataText r.body) with
      | ok schema =>
        rw [contentOf, hdecode] at h
        cases h
      | error f =>
        rw [contentOf, hdecode] at h
        exact ⟨_, (Except.error.inj h).symm⟩

/-- A body says one thing at most. -/
theorem Narrows.unique {other : Option String} (h : r.Narrows schema) (h' : r.Narrows other) :
    schema = other :=
  Except.ok.inj ((schema_eq_ok_iff.mpr h).symm.trans (schema_eq_ok_iff.mpr h'))

end Request

/-! ### Texts as bodies -/

theorem withoutGaps_map_some (escaping : Bool) (cs : List Char) :
    withoutGaps escaping (cs.map some) = cs := by
  induction cs generalizing escaping with
  | nil => rfl
  | cons c cs ih => rw [List.map_cons, withoutGaps, ih]

/-- The octets of a text are read as this text. -/
theorem dataText_octets (cs : List Char) : dataText (octets cs) = String.ofList cs := by
  rw [dataText, characters_octets, withoutGaps_map_some]

theorem AsksFor.clean {v : Json} {schema : Option String} (h : AsksFor v schema) : v.Clean := by
  have hitem : ∀ {v : Json}, v.Clean → (Json.arr [v]).Clean := fun hv => .list (by simpa using hv)
  have hentry : ∀ {v : Json}, v.Clean → (Json.obj [("schema", v)]).Clean := fun hv =>
    .record (by simpa using hv) (by simp)
  cases h with
  | nothing => exact .record (by simp) (by simp)
  | null => exact hentry .null
  | schema s => exact hentry (.text s)
  | noItem => exact .list (by simp)
  | nullItem => exact hitem .null
  | schemaItem s => exact hitem (.text s)

/-- Data that asks for something begins with a bracket or a brace. -/
theorem AsksFor.head {v : Json} {schema : Option String} (h : AsksFor v schema) :
    ∃ c cs, Json.print v = c :: cs ∧ ∀ b ∈ octetsOfNat c.toNat, Request.isSeparator b = false := by
  have hbrace : ∀ b ∈ octetsOfNat '\x7b'.toNat, Request.isSeparator b = false := by decide
  have hbracket : ∀ b ∈ octetsOfNat '['.toNat, Request.isSeparator b = false := by decide
  cases h with
  | nothing => exact ⟨_, _, by rw [Json.obj, Json.print], hbrace⟩
  | null => exact ⟨_, _, by rw [Json.obj, Json.print], hbrace⟩
  | schema s => exact ⟨_, _, by rw [Json.obj, Json.print], hbrace⟩
  | noItem => exact ⟨_, _, by rw [Json.arr, Json.print], hbracket⟩
  | nullItem => exact ⟨_, _, by rw [Json.arr, Json.print], hbracket⟩
  | schemaItem s => exact ⟨_, _, by rw [Json.arr, Json.print], hbracket⟩

/-- Whatever data asks for, a body can say. -/
theorem Request.narrows_of_compact {r : Request} {value : String} {v : Json}
    {schema : Option String} (hdata : AsksFor v schema)
    (hbody : r.body = octets (Json.compact v).toList)
    (hheader : r.header? "content-type" = some value) (hvalue : Announces value) :
    r.Narrows schema := by
  obtain ⟨c, cs, hprint, hfirst⟩ := hdata.head
  refine .data ?_ hheader hvalue ?_
  · obtain ⟨b, hb⟩ : ∃ b, b ∈ octetsOfNat c.toNat := by
      rw [octetsOfNat]
      split_ifs <;> exact ⟨_, List.mem_cons_self⟩
    refine ⟨b, ?_, hfirst b hb⟩
    rw [hbody, Json.compact, String.toList_ofList, hprint, octets, List.flatMap_cons]
    exact List.mem_append_left _ hb
  · rw [hbody, dataText_octets, String.ofList_toList, Json.parse_compact hdata.clean]
    exact hdata

/-! ### Requests -/

/-- The route by which all procedures of a connection are analyzed. -/
def bulkRoute : Route :=
  .api ["lineage", "*", "bulk-analyze"] [(.post, .bulkAnalyze)]

/-- Whether a request is to analyze all procedures of a connection, however its name is written. -/
structure Request.OnBulk (r : Request) (connection : String) : Prop where
  post : r.method = .post
  path : ∃ segment, r.path = "/api/v1/lineage/".toList ++ (segment ++ "/bulk-analyze".toList) ∧
    segment ≠ [] ∧ '/' ∉ segment ∧ segmentText? segment = some connection

theorem segments?_bulk {segment : List Char} (h : '/' ∉ segment) :
    Route.segments? ("/api/v1/lineage/".toList ++ (segment ++ "/bulk-analyze".toList)) =
      some ["api".toList, "v1".toList, "lineage".toList, segment, "bulk-analyze".toList] := by
  have hpath := Route.segments?_api "lineage" (by decide)
    (segment ++ "/bulk-analyze".toList)
  have hsegment := pieces_append h "bulk-analyze".toList
  rw [pieces_of_not_mem (show '/' ∉ "bulk-analyze".toList by decide)] at hsegment
  exact hpath.trans (congrArg some (congrArg _ (congrArg _ (congrArg _ hsegment))))

theorem find?_bulk {segment : List Char} (hne : segment ≠ []) (hslash : '/' ∉ segment) :
    Route.find? ("/api/v1/lineage/".toList ++ (segment ++ "/bulk-analyze".toList)) =
      some (bulkRoute, [segment]) := by
  have hclues : List.Forall₂ Route.Clue.Holds
      [.text "api", .text "v1", .text "lineage", .otherThan [], .text "bulk-analyze"]
      ["api".toList, "v1".toList, "lineage".toList, segment, "bulk-analyze".toList] :=
    .cons rfl (.cons rfl (.cons rfl (.cons ⟨hne, List.forall_mem_nil _⟩ (.cons rfl .nil))))
  refine Route.find?_eq (i := 19) (segments?_bulk hslash) hclues (by decide +kernel)
    (by decide +kernel) ?_
  have hparts : bulkRoute.parts =
      [.fixed "api", .fixed "v1", .fixed "lineage", .parameter, .fixed "bulk-analyze"] := by
    decide +kernel
  rw [hparts, Route.arguments?_fixed, Route.arguments?_fixed, Route.arguments?_fixed,
    Route.arguments?_parameter hne, Route.arguments?_fixed]
  rfl

/-! ### Responses -/

namespace Site

variable {s : Site} {r : Request} {connection : String} {schema : Option String}

/-- Whether a request is responded to with the analysis of the procedures of a schema, or of all. -/
def Analyzes (s : Site) (r : Request) (connection : String) (schema : Option String) : Prop :=
  s.respond r =
    (s.shared r (ofReply plain ((Command.bulkAnalyze connection schema).run s.world).1),
      { s with world := ((Command.bulkAnalyze connection schema).run s.world).2 })

/-- Whether a request is refused as no valid input, and nothing happens. -/
structure Refuses (s : Site) (r : Request) (message : String) : Prop where
  status_eq : (s.respond r).1.status = 400
  body_eq : (s.respond r).1.body = .json (Json.obj [("code", Json.str "INVALID_INPUT"),
    ("message", Json.str message)])
  site_eq : (s.respond r).2 = s

theorem methods_of_onBulk (hr : r.OnBulk connection) :
    r.method ≠ .options ∧ r.method ≠ .head := by
  rw [hr.post]
  exact ⟨nofun, nofun⟩

/-- What is read of a request is done. -/
theorem respond_of_bulkAnalysis (s : Site) (hr : r.OnBulk connection) {t : Task}
    (ht : bulkAnalysis connection r = .ok t) :
    s.respond r = (s.shared r (perform s.world t).1, { s with world := (perform s.world t).2 }) := by
  obtain ⟨segment, hpath, hne, hslash, htext⟩ := hr.path
  have hrequest : Task.ofRequest r = t := Task.ofRequest_eq (hpath ▸ find?_bulk hne hslash)
    (hr.post ▸ rfl) (parameters_singleton htext) (a := .bulkAnalyze) ht
  rw [respond_eq s (methods_of_onBulk hr).1 (methods_of_onBulk hr).2, hrequest]

/-- A request that cannot be read changes nothing. -/
theorem respond_of_bulkAnalysis_error (s : Site) (hr : r.OnBulk connection) {response : Response}
    (ht : bulkAnalysis connection r = .error response) : s.respond r = (s.shared r response, s) := by
  obtain ⟨segment, hpath, hne, hslash, htext⟩ := hr.path
  have hrequest : Task.ofRequest r = .respond response :=
    Task.ofRequest_error (hpath ▸ find?_bulk hne hslash) (hr.post ▸ rfl) (parameters_singleton htext)
      (a := .bulkAnalyze) ht
  rw [respond_eq s (methods_of_onBulk hr).1 (methods_of_onBulk hr).2, hrequest]
  rfl

/-- **A body says what is analyzed.**  A request to analyze the procedures of a connection, whose body
is not too large, is responded to with their analysis exactly if the body says which: with that of all
procedures if it is blank or starts with announced data without a schema, and with that of a schema if
it starts with announced data that names it.  Any other request is refused, and nothing happens. -/
theorem bulkAnalyze_by_body (s : Site) (hr : r.OnBulk connection) (hsize : r.bodySize ≤ bodyLimit) :
    (∀ schema, r.Narrows schema → s.Analyzes r connection schema) ∧
    ((∀ schema, ¬ r.Narrows schema) → ∃ message, s.Refuses r message) ∧
    ∀ schema other, r.Narrows schema → r.Narrows other → schema = other := by
  have hfits : ¬ bodyLimit < r.bodySize := Nat.not_lt.mpr hsize
  have hanalysis : bulkAnalysis connection r =
      (orProblem r.schema).map fun schema => .run (.bulkAnalyze connection schema) plain := by
    rw [bulkAnalysis, if_neg hfits]
    cases r.schema <;> rfl
  refine ⟨fun schema hschema => ?_, fun hnone => ?_, fun _ _ h h' => h.unique h'⟩
  · rw [Request.schema_eq_ok_iff.mpr hschema] at hanalysis
    exact s.respond_of_bulkAnalysis hr hanalysis
  · cases hread : r.schema with
    | ok schema => exact absurd (Request.schema_eq_ok_iff.mp hread) (hnone schema)
    | error p =>
      obtain ⟨message, rfl⟩ := Request.exists_of_schema_eq_error hread
      rw [hread] at hanalysis
      have hrespond := s.respond_of_bulkAnalysis_error hr hanalysis
      refine ⟨message, ?_, ?_, congrArg Prod.snd hrespond⟩
      · rw [hrespond, status_shared]
        rfl
      · rw [hrespond, body_shared]
        rfl

end Site

/-! ### Samples -/

/-- A request to analyze procedures of a connection, with a body that is announced as data. -/
def bulkRequest (body : String) : Request :=
  .ofAddress .post "/api/v1/lineage/erp/bulk-analyze" [("content-type", "application/json")] body

theorem onBulk_bulkRequest (body : String) : (bulkRequest body).OnBulk "erp" where
  post := rfl
  path := by
    have hpath : (bulkRequest "").path =
        "/api/v1/lineage/".toList ++ ("erp".toList ++ "/bulk-analyze".toList) := by
      decide +kernel
    exact ⟨"erp".toList, hpath, by decide, by decide, by decide +kernel⟩

/-- A service with two procedures. -/
def procedureSite : Site :=
  ⟨World.lineageShop .memory World.sampleProcedures [], []⟩

/-- A body that names a schema. -/
def schemaBody : String :=
  Json.compact (Json.obj [("schema", Json.str "etl")])

theorem Site.bulkAnalyze_by_body_sample : (bulkRequest schemaBody).bodySize ≤ bodyLimit ∧
    procedureSite.Analyzes (bulkRequest schemaBody) "erp" (some "etl") := by
  have hsize : (bulkRequest schemaBody).bodySize ≤ bodyLimit := by decide +kernel
  have hvalue : Request.Announces "application/json" :=
    Request.startsAsJson_iff.mp (by decide +kernel)
  have hnarrows : (bulkRequest schemaBody).Narrows (some "etl") :=
    Request.narrows_of_compact (.schema "etl") rfl rfl hvalue
  exact ⟨hsize, (Site.bulkAnalyze_by_body procedureSite (onBulk_bulkRequest schemaBody) hsize).1 _
    hnarrows⟩

/-! ### What follows the data -/

/-- A body that is not data as a whole is not always refused: an empty record with a word behind it
is as good as a record. -/
theorem Site.not_refuses_more : ¬ ∀ (s : Site) (r : Request) (connection : String),
    r.OnBulk connection → r.bodySize ≤ bodyLimit →
      (∃ b ∈ r.body, Request.isSeparator b = false) →
        (Json.parse (dataText r.body)).complete = false → ∃ message, s.Refuses r message := by
  intro h
  let r := bulkRequest "\x7b\x7d more"
  have hmore : (∃ b ∈ r.body, Request.isSeparator b = false) ∧
      (Json.parse (dataText r.body)).complete = false := by
    decide +kernel
  obtain ⟨message, hrefuses⟩ := h procedureSite r "erp" (onBulk_bulkRequest _) (by decide +kernel)
    hmore.1 hmore.2
  have hstatus : (procedureSite.respond r).1.status = 200 := by decide +kernel
  cases hstatus.symm.trans hrefuses.status_eq

end Web

end TierLineage
