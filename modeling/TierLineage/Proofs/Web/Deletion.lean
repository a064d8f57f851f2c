import TierLineage.Proofs.Service.Legal
import TierLineage.Proofs.Service.Statuses
import TierLineage.Proofs.Store.Removal
import TierLineage.Proofs.Web.Routing

/-!
# Listed mappings and their deletion

A deletion names the source table of a mapping by the name of its connection and its own dotted name,
from which the key is read back.  For a table whose parts are bare this is the key under which the
mapping was stored, so that a listed mapping is deleted, and nothing else; the same request made again
finds nothing.  From the name of any other table another key is read, and the mapping stays.
-/

namespace TierLineage

namespace Web

open TierLineage.Text

/-! ### The path of mappings -/

/-- The route of the mappings of a hop. -/
def mappingsRoute : Route :=
  .api ["mappings", "*"] [(.get, .mappings), (.delete, .deleteMapping)]

/-- Whether a request is for the mappings of a hop, however the hop is written in its path. -/
def Request.OnMappings (r : Request) (hop : Hop) : Prop :=
  ∃ segment text, r.path = "/api/v1/mappings/".toList ++ segment ∧ '/' ∉ segment ∧
    segmentText? segment = some text ∧ hopOf text = .ok hop

theorem segments?_mappings {segment : List Char} (h : '/' ∉ segment) :
    Route.segments? ("/api/v1/mappings/".toList ++ segment) =
      some ["api".toList, "v1".toList, "mappings".toList, segment] := by
  have hstart : "/api/v1/mappings/".toList ++ segment =
      "/api/v1/".toList ++ ("mappings".toList ++ '/' :: segment) := rfl
  rw [hstart, Route.segments?_api "mappings" (by decide), pieces_of_not_mem h]

/-- No fixed segment that stands where the hop does is the name of one. -/
theorem ne_of_hopOf {segment : List Char} {text : String} {hop : Hop}
    (htext : segmentText? segment = some text) (hhop : hopOf text = .ok hop) :
    segment ≠ [] ∧ ∀ name ∈ ["discover", "confirm", "bulk"], segment ≠ name.toList := by
  have hno : ∀ name ∈ ["", "discover", "confirm", "bulk"],
      segmentText? name.toList = some name ∧ (hopOf name).isOk = false := by
    decide +kernel
  have hne : ∀ name ∈ ["", "discover", "confirm", "bulk"], segment ≠ name.toList := by
    rintro name hname rfl
    obtain ⟨hsame, hfails⟩ := hno name hname
    obtain rfl := Option.some.inj (hsame.symm.trans htext)
    rw [hhop] at hfails
    cases hfails
  exact List.forall_mem_cons.mp hne

/-- A request for the mappings of a hop leads to their route. -/
theorem find?_mappings {segment : List Char} {text : String} {hop : Hop} (hslash : '/' ∉ segment)
    (htext : segmentText? segment = some text) (hhop : hopOf text = .ok hop) :
    Route.find? ("/api/v1/mappings/".toList ++ segment) = some (mappingsRoute, [segment]) := by
  have hne := ne_of_hopOf htext hhop
  have hclues : List.Forall₂ Route.Clue.Holds
      [.text "api", .text "v1", .text "mappings", .otherThan ["discover", "confirm", "bulk"]]
      ["api".toList, "v1".toList, "mappings".toList, segment] :=
    .cons rfl (.cons rfl (.cons rfl (.cons hne .nil)))
  refine Route.find?_eq (i := 10) (segments?_mappings hslash) hclues (by decide +kernel)
    (by decide +kernel) ?_
  have hparts : mappingsRoute.parts =
      [.fixed "api", .fixed "v1", .fixed "mappings", .parameter] := by
    decide +kernel
  rw [hparts, Route.arguments?_fixed, Route.arguments?_fixed, Route.arguments?_fixed,
    Route.arguments?_parameter hne.1]
  rfl

/-! ### Responses -/

/-- Whether a request names the source table of a mapping. -/
structure Request.Names (r : Request) (m : Mapping) : Prop where
  onMappings : r.OnMappings m.hop
  connection : requiredValue (queryPairs r.query) "alias" = .ok m.source.connection.name
  table : requiredValue (queryPairs r.query) "table" = .ok m.source.qualified

/-- The key that is read where the source table of a mapping is named. -/
def namedKey (m : Mapping) : SlotKey :=
  ⟨m.hop, Table.ofQualified m.source.connection m.source.qualified⟩

/-- What is told where there is no mapping under this key. -/
def missingText (m : Mapping) : String :=
  "No " ++ m.hop.name ++ " mapping for " ++ (namedKey m).source.display

/-- No name is reported as repeated that is given once at most. -/
theorem repeatedAfter?_eq_none {names given : List String} {pairs : List (String × String)}
    (h : ∀ n ∈ names, given.count n + pairs.countP (·.1 == n) ≤ 1) :
    repeatedAfter? names given pairs = none := by
  -- a name that is passed moves from the pairs to those that were given
  induction pairs generalizing given with
  | nil => rfl
  | cons p pairs ih =>
    obtain ⟨n, v⟩ := p
    rw [repeatedAfter?]
    by_cases hn : n ∈ names
    · have hfirst := h n hn
      rw [List.countP_cons_of_pos (by simp)] at hfirst
      have hnew : n ∉ given := List.count_eq_zero.mp (by omega)
      rw [if_neg (by simpa using hn), if_neg (by simpa using hnew)]
      refine ih fun m hm => ?_
      have hm := h m hm
      rw [List.countP_cons] at hm
      rw [List.count_cons]
      dsimp only at hm
      omega
    · rw [if_pos (by simpa using hn)]
      refine ih fun m hm => ?_
      have hm := h m hm
      rw [List.countP_cons] at hm
      omega

/-- A name that has a value is given once. -/
theorem countP_of_requiredValue {name value : String} {pairs : List (String × String)}
    (h : requiredValue pairs name = .ok value) : pairs.countP (·.1 == name) = 1 := by
  rw [List.countP_eq_length_filter]
  rw [requiredValue, optionalValue] at h
  split at h
  · cases h
  · next p hp => rw [hp]; rfl
  · cases h

theorem deletion_eq {tier : String} {query : List Char} {m : Mapping} (htier : hopOf tier = .ok m.hop)
    (hconnection : requiredValue (queryPairs query) "alias" = .ok m.source.connection.name)
    (htable : requiredValue (queryPairs query) "table" = .ok m.source.qualified) :
    deletion tier query = .ok (.run (.delete (namedKey m)) (deleted (missingText m))) := by
  have halias : aliasOf m.source.connection.name = .ok m.source.connection := by
    rw [aliasOf, Alias.parse_name]
    rfl
  have honce : givenOnce (queryPairs query) ["alias", "table"] = .ok () := by
    rw [givenOnce, repeatedAfter?_eq_none fun n hn => ?_]
    rw [List.count_nil, Nat.zero_add]
    rcases List.mem_pair.mp hn with rfl | rfl
    · exact (countP_of_requiredValue hconnection).le
    · exact (countP_of_requiredValue htable).le
  have honce := congrArg orBadQuery honce
  have hconnection := congrArg orBadQuery hconnection
  have htable := congrArg orBadQuery htable
  rw [missingText, namedKey]
  exact bind_eq_ok.mpr ⟨_, honce, bind_eq_ok.mpr ⟨_, hconnection, bind_eq_ok.mpr ⟨_, htable,
    bind_eq_ok.mpr ⟨_, htier, bind_eq_ok.mpr ⟨_, halias, rfl⟩⟩⟩⟩⟩

namespace Site

variable {s : Site} {r : Request} {hop : Hop} {m : Mapping}

/-- A request to list mappings shows what the store tells and changes nothing. -/
theorem respond_listMappings (hget : r.method = .get) (hr : r.OnMappings hop) : s.respond r =
    (s.shared r (ofReply (listing "mappings")
      (.of (Json.listOf Mapping.toJson) (s.world.store.confirmed hop))), s) := by
  obtain ⟨segment, text, hpath, hslash, htext, hhop⟩ := hr
  have htask : taskOf r .mappings [text] = .ok (.run (.listMappings hop) (listing "mappings")) := by
    rw [taskOf, hhop]
    rfl
  have hrequest : Task.ofRequest r = .run (.listMappings hop) (listing "mappings") :=
    Task.ofRequest_eq (hpath ▸ find?_mappings hslash htext hhop) (hget ▸ rfl)
      (parameters_singleton htext) htask
  rw [respond_eq s (by rw [hget]; exact nofun) (by rw [hget]; exact nofun), hrequest, perform,
    Command.run_listMappings]

/-- A request to delete a mapping deletes under the key that is read. -/
theorem respond_delete (s : Site) (hdelete : r.method = .delete) (hr : r.Names m) : s.respond r =
    (s.shared r (ofReply (deleted (missingText m))
      (.of (fun b => .bool b) (s.world.store.delete (namedKey m)).1)),
    { s with world := s.world.withStore (s.world.store.delete (namedKey m)).2 }) := by
  obtain ⟨segment, text, hpath, hslash, htext, hhop⟩ := hr.onMappings
  have hrequest := Task.ofRequest_eq (r := r) (a := .deleteMapping)
    (hpath ▸ find?_mappings hslash htext hhop) (hdelete ▸ rfl) (parameters_singleton htext)
    (deletion_eq hhop hr.connection hr.table)
  rw [respond_eq s (by rw [hdelete]; exact nofun) (by rw [hdelete]; exact nofun), hrequest, perform,
    Command.run_delete]

/-! ### Deleting what is listed -/

/-- The key that is read is that of a mapping, or shares its slot, if the parts of its source table
are bare and only then. -/
theorem shares_namedKey_iff {b : Backend} (hvalid : m.source.validate = .ok ()) :
    b.Shares m.key (namedKey m) ↔ m.source.Bare := by
  have hiff := Table.slotKey_ofQualified_eq_iff hvalid m.hop
  constructor
  · intro h
    refine hiff.mp ?_
    cases b with
    | memory => exact congrArg Ledger.slotKey h.symm
    | ledger => exact Eq.symm h
  · intro h
    have hkey : namedKey m = m.key :=
      congrArg (SlotKey.mk m.hop) (h.ofQualified_qualified hvalid)
    rw [hkey]
    exact b.shares_refl m.key

/-- Whether a response shows a list of mappings. -/
structure Shows (response : Response) (ms : List Mapping) : Prop where
  status_eq : response.status = 200
  body_eq : response.body = .json (Json.obj [("mappings", Json.listOf Mapping.toJson ms),
    ("total", Json.nat ms.length)])

/-- Whether a request deletes a mapping: it is gone and all else is as it was, and the same request
made again finds nothing and leaves every entry of the store where it is. -/
structure Deletes (s : Site) (r : Request) (m : Mapping) : Prop where
  status_eq : (s.respond r).1.status = 204
  loses : s.world.store.Loses m (s.respond r).2.world.store
  rest_eq : (s.respond r).2 =
    { s with world := s.world.withStore (s.respond r).2.world.store }
  again_status_eq : ((s.respond r).2.respond r).1.status = 404
  again_entries : ((s.respond r).2.respond r).2.world.store.SameEntries
    (s.respond r).2.world.store
  again_rest_eq : ((s.respond r).2.respond r).2 =
    { s with world := s.world.withStore ((s.respond r).2.respond r).2.world.store }

theorem shows_listMappings {ms : List Mapping} (hms : s.world.store.confirmed hop = .ok ms)
    (hget : r.method = .get) (hr : r.OnMappings hop) :
    Shows (s.respond r).1 ms ∧ (s.respond r).2 = s := by
  rw [respond_listMappings hget hr, hms]
  have hlisting : ofReply (listing "mappings") (.of (Json.listOf Mapping.toJson) (.ok ms)) =
      .json 200 (Json.obj [("mappings", Json.listOf Mapping.toJson ms),
        ("total", Json.nat (ms.map Mapping.toJson).length)]) := rfl
  rw [List.length_map] at hlisting
  refine ⟨⟨?_, ?_⟩, rfl⟩
  · rw [status_shared, hlisting]
    rfl
  · rw [body_shared, hlisting]
    rfl

/-- A decision that has ended all proposals is deleted under its own key. -/
theorem deletes_of_slot {v : Slot} {ms : List Mapping}
    (hslot : s.world.store.slot m.key = .ok v) (hconfirmed : v.confirmed = some m)
    (hnone : v.candidates = []) (hms : s.world.store.confirmed m.hop = .ok ms)
    (hkey : namedKey m = m.key) (hdelete : r.method = .delete) (hr : r.Names m) :
    s.Deletes r m := by
  have hfirst := Store.delete_eq_erase hslot hconfirmed hnone
  obtain ⟨s', hagain, hentries⟩ := s.world.store.exists_delete_erase m.key
  have hrespond := s.respond_delete hdelete hr
  rw [hkey, hfirst] at hrespond
  have hrespond' := (s.respond r).2.respond_delete hdelete hr
  have hstore : (s.respond r).2.world.store = s.world.store.erase m.key := by
    rw [hrespond]
    rfl
  rw [hkey, hstore, hagain] at hrespond'
  have hstore' : ((s.respond r).2.respond r).2.world.store = s' := by
    rw [hrespond']
    rfl
  refine
    { status_eq := ?_
      loses := hstore ▸ Store.loses_erase hslot hconfirmed hnone hms
      rest_eq := ?_
      again_status_eq := ?_
      again_entries := hstore'.symm ▸ hstore.symm ▸ hentries
      again_rest_eq := ?_ }
  · rw [hrespond, status_shared]
    rfl
  · rw [hstore, hrespond]
  · rw [hrespond', status_shared]
    rfl
  · rw [hstore', hrespond', hrespond]
    rfl

/-- A deletion under a key of another slot leaves what is confirmed. -/
theorem confirmed?_respond_of_not_shares (hdelete : r.method = .delete) (hr : r.Names m)
    (h : ¬ s.world.store.backend.Shares m.key (namedKey m)) :
    (s.respond r).2.world.store.confirmed? m.key = s.world.store.confirmed? m.key := by
  rw [s.respond_delete hdelete hr]
  change (s.world.store.delete (namedKey m)).2.confirmed? m.key = _
  rw [Store.confirmed?_eq, Store.confirmed?_eq, Store.slot_delete_of_not_shares h]

/-- **A listed mapping can be deleted by the name of its source table exactly if the parts of the name
are bare.**  However the service was reached, those who ask for the mappings of a hop are shown what is
listed.  A request that names the source table of one of them deletes it, and nothing else, if the
parts of the table are bare; otherwise the mapping stays where it is. -/
theorem deletes_listed {cs : List Connection} {snapshot : Snapshot} {registry : Registry}
    {e : Engine} {c : Catalog} {b : Backend} {a : Analyst} {supply : Supply} {w : World}
    (hregistry : Registry.ofList cs = .ok registry) (hcatalog : snapshot.load = .ok c)
    (hstart : World.start registry e c (.empty b) a supply = .ok w) (h : w.Reaches s.world)
    {ms : List Mapping} (hms : s.world.store.confirmed hop = .ok ms) :
    (∀ {r : Request}, r.method = .get → r.OnMappings hop →
      Shows (s.respond r).1 ms ∧ (s.respond r).2 = s) ∧
    ∀ m ∈ ms, ∀ {r : Request}, r.method = .delete → r.Names m →
      (m.source.Bare → s.Deletes r m) ∧
      (¬ m.source.Bare → (s.respond r).2.world.store.confirmed? m.key = .ok (some m)) := by
  have hsound := World.sound_of_start hregistry hcatalog hstart
  obtain ⟨-, rfl⟩ := World.start_spec hstart
  obtain ⟨hpermitted, hkeyed⟩ := h.permitted hsound ⟨b, rfl⟩
  refine ⟨fun hget hr => shows_listMappings hms hget hr, fun m hm r hdelete hr => ?_⟩
  obtain ⟨rfl, hpermits, v, hslot, hconfirmed, hnone⟩ := hpermitted.slot_of_listed hkeyed hms hm
  have hvalid : m.source.validate = .ok () := hpermits.1.valid
  refine ⟨fun hbare => ?_, fun hbare => ?_⟩
  · have hkey : namedKey m = m.key :=
      congrArg (SlotKey.mk m.hop) (hbare.ofQualified_qualified hvalid)
    exact deletes_of_slot hslot hconfirmed hnone hms hkey hdelete hr
  · have hshares : ¬ s.world.store.backend.Shares m.key (namedKey m) :=
      fun hshares => hbare ((shares_namedKey_iff hvalid).mp hshares)
    rw [confirmed?_respond_of_not_shares hdelete hr hshares, Store.confirmed?_eq, hslot]
    exact congrArg Except.ok hconfirmed

end Site

/-! ### Samples -/

/-- The service in which two tables were mapped automatically. -/
def mappedSite : Site :=
  ⟨(Call.autoMap .sourceToStage).perform variantShop, []⟩

/-- A request to delete the mapping of a table, by its name. -/
def deletionOf (name : String) : Request :=
  .ofAddress .delete ("/api/v1/mappings/source_to_stage?alias=erp&table=" ++ name) [] ""

theorem names_deletionOf {name : String} {m : Mapping} (hhop : m.hop = .sourceToStage)
    (hconnection : m.source.connection = Warehouse.erp)
    (hpath : (deletionOf name).path = "/api/v1/mappings/source_to_stage".toList)
    (hquery : queryPairs (deletionOf name).query = [("alias", "erp"), ("table", name)])
    (hname : m.source.qualified = name) : (deletionOf name).Names m where
  onMappings := by
    have hread : Named.parse "source_to_stage" = .ok Hop.sourceToStage := by decide +kernel
    rw [hhop]
    refine ⟨"source_to_stage".toList, "source_to_stage", hpath, by decide, by decide +kernel, ?_⟩
    rw [hopOf, hread]
    rfl
  connection := by
    rw [hquery, hconnection]
    rfl
  table := by
    rw [hquery, hname]
    rfl

/-- A mapping of the service is deleted. -/
theorem Site.deletes_listed_sample :
    ∃ m, m.source = ⟨Warehouse.erp, "", "dbo", "Orders"⟩ ∧
      mappedSite.Deletes (deletionOf "dbo.Orders") m := by
  have hfirst : ((mappedSite.world.store.confirmed .sourceToStage).toOption.bind
      List.head?).map Mapping.key =
        some ⟨.sourceToStage, ⟨Warehouse.erp, "", "dbo", "Orders"⟩⟩ := by
    decide +kernel
  cases hms : mappedSite.world.store.confirmed .sourceToStage with
  | error f =>
    rw [hms] at hfirst
    cases hfirst
  | ok ms =>
    rw [hms] at hfirst
    obtain ⟨m, hm, hkey⟩ := Option.map_eq_some_iff.mp hfirst
    obtain ⟨hhop, hsource⟩ := SlotKey.mk.inj hkey
    have hnames : (deletionOf "dbo.Orders").Names m :=
      names_deletionOf hhop (hsource ▸ rfl) (by decide +kernel) (by decide +kernel) (hsource ▸ rfl)
    have hbare : m.source.Bare := hsource ▸ ⟨by decide +kernel, by decide +kernel, by decide +kernel⟩
    exact ⟨m, hsource, ((Site.deletes_listed registered_variantShop load_variantSnapshot
      start_variantShop (.call .refl (.autoMap .sourceToStage)) hms).2 m
        (List.mem_of_head? hm) rfl hnames).1 hbare⟩

/-- A service that does not look tables up. -/
def trustingShop : World :=
  { variantShop with engine := { variantShop.engine with verifyConfirmedTables := false } }

/-- A request to map a table whose name has a dot in it. -/
def dottedRequest : ConfirmRequest where
  hop := .sourceToStage
  source := ⟨Warehouse.erp, "", "dbo", "a.b"⟩
  target := ⟨Warehouse.stage, "", "dbo", "orders"⟩
  provenance := .manual
  confidence := none
  notes := none
  overwrite := false

/-- The service in which that was done. -/
def dottedSite : Site :=
  ⟨(Call.confirm dottedRequest).perform trustingShop, []⟩

/-- A mapping of a table whose name has a dot in it is listed, and is not deleted. -/
theorem Site.not_deletes_dotted : ¬ ∀ (cs : List Connection) (snapshot : Snapshot)
    (registry : Registry) (e : Engine) (c : Catalog) (b : Backend) (a : Analyst) (supply : Supply)
    (w : World) (s : Site) (hop : Hop) (ms : List Mapping) (m : Mapping) (r : Request),
    Registry.ofList cs = .ok registry → snapshot.load = .ok c →
      World.start registry e c (.empty b) a supply = .ok w → w.Reaches s.world →
        s.world.store.confirmed hop = .ok ms → m ∈ ms → r.method = .delete → r.Names m →
          s.Deletes r m := by
  intro h
  have hstart : World.start trustingShop.registry trustingShop.engine
      trustingShop.surroundings.catalog (.empty .memory) .absent ⟨0, ⟨0, 0⟩⟩ =
        .ok trustingShop := by
    have hvalid : trustingShop.engine.validate = .ok () := by decide +kernel
    rw [World.start, hvalid]
    rfl
  let m := Mapping.decided ⟨⟨0⟩, ⟨0, 0⟩⟩ .sourceToStage dottedRequest.source dottedRequest.target
    (Number.Binary.ofNat 1) .manual none
  have hms : dottedSite.world.store.confirmed .sourceToStage = .ok [m] := by decide +kernel
  have hnames : (deletionOf "dbo.a.b").Names m :=
    names_deletionOf rfl rfl (by decide +kernel) (by decide +kernel) rfl
  have hreaches : trustingShop.Reaches dottedSite.world := by
    dsimp only [dottedSite]
    exact .call .refl (.confirm dottedRequest)
  have hdeletes := h _ variantSnapshot trustingShop.registry trustingShop.engine
    trustingShop.surroundings.catalog .memory .absent ⟨0, ⟨0, 0⟩⟩ trustingShop dottedSite _ [m] m _
    registered_variantShop load_variantSnapshot hstart hreaches hms
    (List.mem_singleton_self m) rfl hnames
  have hstatus : (dottedSite.respond (deletionOf "dbo.a.b")).1.status = 404 := by decide +kernel
  exact absurd (hdeletes.status_eq.symm.trans hstatus) (by decide)

end Web

end TierLineage
