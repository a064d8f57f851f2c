import TierLineage.Proofs.Service.Promotion
import TierLineage.Proofs.Service.Report
import TierLineage.Proofs.Store.Permitted

/-!
# Only legal mappings are stored

A mapping is legal if its tables have names and schemas and are on connections of the tiers of its
hop, if its confidence lies between zero and one, and if the catalog lists its tables exactly as they
are, where tables are looked up.  Each of the calls that write mappings has checks of its own; what
passes them are deeds that bring legal mappings only.  So whatever calls were made, whether or not they
failed, a service that started with an empty store holds no others.
-/

namespace TierLineage

open TierLineage.Number TierLineage.Mappings

/-! ### Legal mappings -/

/-- Whether a catalog lists a table, exactly as it is. -/
def Catalog.Lists (c : Catalog) (t : Table) : Prop :=
  ∃ ts, c.tables t.connection = .ok ts ∧ t ∈ ts

namespace World

/-- Whether a table may stand on the side of a tier in a mapping. -/
structure Admits (w : World) (tier : Tier) (t : Table) : Prop where
  registered : t.connection ∈ w.registry.aliasesOf tier
  valid : t.validate = .ok ()
  listed : w.engine.verifyConfirmedTables = true → w.surroundings.catalog.Lists t

/-- Whether a source table may be mapped to a target on a hop. -/
def Permits (w : World) (k : SlotKey) (target : Table) : Prop :=
  w.Admits k.hop.start k.source ∧ w.Admits k.hop.target target

/-- Whether a mapping may be in the store. -/
structure Legal (w : World) (m : Mapping) : Prop where
  source : w.Admits m.hop.start m.source
  target : w.Admits m.hop.target m.target
  inUnit : m.confidence.InUnit

/-- A service whose connections were registered, and whose catalog was loaded from a snapshot. -/
structure Sound (w : World) : Prop where
  regular : w.Regular
  checked : w.surroundings.catalog.Checked

/-- A service with the connections, the settings and the catalog of another one. -/
structure Kin (v w : World) : Prop where
  registry_eq : v.registry = w.registry
  engine_eq : v.engine = w.engine
  catalog_eq : v.surroundings.catalog = w.surroundings.catalog

variable {v w : World} {tier : Tier} {t u : Table}

theorem kin_refl (w : World) : w.Kin w := ⟨rfl, rfl, rfl⟩

theorem Kin.trans {u : World} (h : u.Kin v) (h' : v.Kin w) : u.Kin w where
  registry_eq := h.registry_eq.trans h'.registry_eq
  engine_eq := h.engine_eq.trans h'.engine_eq
  catalog_eq := h.catalog_eq.trans h'.catalog_eq

theorem Kin.sound (h : v.Kin w) (hw : w.Sound) : v.Sound where
  regular := ⟨h.registry_eq ▸ hw.regular.registry, h.catalog_eq ▸ hw.regular.catalog⟩
  checked := h.catalog_eq ▸ hw.checked

theorem Kin.admits (h : v.Kin w) (ht : v.Admits tier t) : w.Admits tier t where
  registered := h.registry_eq ▸ ht.registered
  valid := ht.valid
  listed := fun hverify => h.catalog_eq ▸ ht.listed (h.engine_eq ▸ hverify)

/-! ### Tables -/

/-- A table that a connection of a tier lists may stand on its side. -/
theorem Sound.admits_of_lists (hw : w.Sound) (h : w.Lists tier t) : w.Admits tier t := by
  obtain ⟨halias, ts, hts, ht⟩ := h
  have hlist := tables_of_listTables hts
  exact ⟨halias, (Catalog.All.tables hw.checked hlist).2 t ht, fun _ => ⟨ts, hlist, ht⟩⟩

/-- So may the table that a table of such a connection means. -/
theorem Sound.admits_of_meant (hw : w.Sound) (halias : t.connection ∈ w.registry.aliasesOf tier)
    (hvalid : t.validate = .ok ()) (h : meant w.engine w.surroundings t = .ok u) :
    w.Admits tier u := by
  rw [meant] at h
  split at h
  · obtain ⟨ts, hts, h⟩ := bind_eq_ok.mp h
    rcases listed_cases ts t with ⟨u', hu, heq, -⟩ | ⟨herror, -⟩
    · obtain rfl := Except.ok.inj (heq.symm.trans h)
      have hown : u'.connection = t.connection :=
        (Catalog.All.tables hw.regular.catalog.placed (tables_of_listTables hts)).2 u' hu
      exact hw.admits_of_lists ⟨hown ▸ halias, ts, hown ▸ hts, hu⟩
    · rw [herror] at h
      cases h
  · next hverify =>
    cases h
    exact ⟨halias, hvalid, fun h => absurd h hverify⟩

/-- Tables that pass the check have names and schemas, on connections of the tiers of the hop. -/
theorem checkPair_spec (hr : w.registry.Named) {hop : Hop} {source target : Table}
    (h : checkPair w.registry hop source target = .ok ()) :
    (source.connection ∈ w.registry.aliasesOf hop.start ∧ source.validate = .ok ()) ∧
      target.connection ∈ w.registry.aliasesOf hop.target ∧ target.validate = .ok () := by
  have htier : ∀ {a : Alias} {tier : Tier} {c : Connection},
      w.registry.requireTier a.name tier = .ok c → a ∈ w.registry.aliasesOf tier := by
    intro a tier c hc
    obtain ⟨k, hk, hc⟩ := bind_eq_ok.mp hc
    split at hc
    · next htier => exact (Registry.mem_aliasesOf hr).mpr ⟨k, hk, htier⟩
    · cases hc
  obtain ⟨_, hsource, h⟩ := bind_eq_ok.mp h
  obtain ⟨_, htarget, h⟩ := bind_eq_ok.mp h
  obtain ⟨c, hc, h⟩ := bind_eq_ok.mp h
  obtain ⟨k, hk, -⟩ := bind_eq_ok.mp h
  exact ⟨⟨htier hc, hsource⟩, htier hk, htarget⟩

/-- What tables that pass the check mean may be mapped. -/
theorem Sound.permits_of_meant (hw : w.Sound) {hop : Hop} {source target s t : Table}
    (hpair : checkPair w.registry hop source target = .ok ())
    (hs : meant w.engine w.surroundings source = .ok s)
    (ht : meant w.engine w.surroundings target = .ok t) : w.Permits ⟨hop, s⟩ t := by
  obtain ⟨⟨hsource, hvalid⟩, htarget, hvalid'⟩ := checkPair_spec hw.regular.named hpair
  exact ⟨hw.admits_of_meant hsource hvalid hs, hw.admits_of_meant htarget hvalid' ht⟩

end World

/-! ### Deeds -/

theorem Mapping.inUnit_decided {stamp : Stamp} {hop : Hop} {source target : Table}
    {confidence : Single} {provenance : Provenance} {notes : Option String}
    (h : confidence ≠ .nan) :
    (Mapping.decided stamp hop source target confidence provenance notes).confidence.InUnit :=
  Binary.inUnit_clamp h

namespace Deed

/-- Whether a deed brings legal mappings only. -/
def Fit (w : World) : Deed → Prop
  | auto hop targets source =>
    w.Admits hop.start source.table ∧ ∀ x ∈ targets, w.Admits hop.target x.table
  | confirm q => w.Permits ⟨q.hop, q.source⟩ q.target ∧ q.confidence.getD (Binary.ofNat 1) ≠ .nan
  | upsert rows => ∀ row ∈ rows, w.Permits ⟨row.hop, row.source⟩ row.target ∧
      row.confidence.getD (Binary.ofNat 1) ≠ .nan
  | delete _ => True

variable {v w : World} {d : Deed} {op : Operation}

/-- What automatic mapping decides on leads to one of the targets. -/
theorem permitted_of_mem_asksOn {hop : Hop} {targets : List Listed} {source : Listed}
    (hsource : w.Admits hop.start source.table)
    (htargets : ∀ x ∈ targets, w.Admits hop.target x.table)
    (h : op ∈ asksOn v hop source.table (decision v hop targets source)) :
    op.Permitted w.Permits := by
  rw [decision] at h
  rcases Proposal.decide_cases v.engine (Proposal.ranking v.engine v.registry hop targets source)
    with ⟨best, ⟨htop, -⟩, hdecide⟩ | ⟨-, hdecide⟩
  · rw [hdecide] at h
    rw [List.mem_singleton.mp h]
    have hbest : best ∈ Proposal.ranking v.engine v.registry hop targets source :=
      Ranked.mem_of_mem_selectTop (htop ▸ List.mem_singleton_self best)
    obtain ⟨x, hx, htable⟩ := Proposal.exists_mem_of_mem_ranking hbest
    exact ⟨⟨hsource, htable ▸ htargets x hx⟩,
      Mapping.inUnit_decided (Proposal.ne_nan_of_mem_ranking hbest)⟩
  · rw [hdecide, asksOn] at h
    split at h
    · cases h
    · rw [List.mem_singleton.mp h]
      intro m hm
      obtain ⟨i, hi, rfl⟩ := List.mem_mapIdx.mp hm
      have hbest := Ranked.mem_of_mem_selectTop (List.getElem_mem hi)
      obtain ⟨x, hx, htable⟩ := Proposal.exists_mem_of_mem_ranking hbest
      exact ⟨rfl, ⟨hsource, htable ▸ htargets x hx⟩,
        Binary.inUnit_clamp (Proposal.ne_nan_of_mem_ranking hbest), rfl⟩

/-- A deed that brings legal mappings only asks nothing else of a store. -/
theorem Fit.permitted (hd : d.Fit w) (h : op ∈ d.asks v) : op.Permitted w.Permits := by
  cases d with
  | auto hop targets source => exact permitted_of_mem_asksOn hd.1 hd.2 h
  | confirm q =>
    rw [List.mem_singleton.mp h]
    exact ⟨hd.1, Mapping.inUnit_decided hd.2⟩
  | upsert rows =>
    rw [List.mem_singleton.mp h]
    intro m hm
    obtain ⟨i, hi, rfl⟩ := List.mem_mapIdx.mp hm
    obtain ⟨hpermits, hnan⟩ := hd rows[i] (List.getElem_mem hi)
    exact ⟨hpermits, Mapping.inUnit_decided hnan⟩
  | delete k =>
    rw [List.mem_singleton.mp h]
    trivial

end Deed

/-- A run of deeds that bring legal mappings only asks nothing else of a store. -/
theorem World.permitted_of_mem_asks {v w : World} {ds : List Deed} (hds : ∀ d ∈ ds, d.Fit w)
    {op : Operation} (h : op ∈ v.asks ds) : op.Permitted w.Permits := by
  induction ds generalizing v with
  | nil => cases h
  | cons d ds ih =>
    obtain ⟨hd, hds⟩ := List.forall_mem_cons.mp hds
    rcases List.mem_append.mp h with h | h
    · exact hd.permitted h
    · exact ih hds h

/-! ### Calls -/

/-- A call that may change mappings. -/
inductive Call where
  | confirm (request : ConfirmRequest)
  | upsert (rows : List MappingRow)
  | autoMap (hop : Hop)
  | delete (key : SlotKey)

/-- The service after a call, whatever the call answers. -/
def Call.perform (w : World) : Call → World
  | confirm q => ((Errand.confirm q).run w).2
  | upsert rows => ((Errand.upsert rows).run w).2
  | autoMap hop => ((Errand.autoMap hop).run w).2
  | delete k => (Mappings.delete w k).2

/-- An errand acts on what its visit tells, or only lets time pass. -/
theorem Errand.exists_run_cases {α : Type} (q : Errand α) (w : World) : ∃ moment,
    (q.run w).2 = { w with clock := moment } ∨
      ∃ a, (q.visit w.engine w.registry (fun _ => w.surroundings) w.clock).1 = .ok a ∧
        q.run w = q.act { w with clock := moment } a := by
  refine ⟨max w.clock (q.visit w.engine w.registry (fun _ => w.surroundings) w.clock).2, ?_⟩
  cases hfound : q.visit w.engine w.registry (fun _ => w.surroundings) w.clock with
  | mk found moment =>
    rw [Errand.run, hfound]
    cases found with
    | error f => exact .inl rfl
    | ok a => exact .inr ⟨a, rfl, rfl⟩

namespace World

variable {w : World}

/-- A request that passes its checks is for a deed that brings a legal mapping. -/
theorem Sound.fit_confirm (hw : w.Sound) {q q' : ConfirmRequest}
    (h : checkedRequest w.engine w.registry w.surroundings q = .ok q') : (Deed.confirm q').Fit w := by
  obtain ⟨_, hpair, h⟩ := bind_eq_ok.mp h
  obtain ⟨_, hconfidence, h⟩ := bind_eq_ok.mp h
  obtain ⟨s, hs, h⟩ := bind_eq_ok.mp h
  obtain ⟨t, ht, h⟩ := bind_eq_ok.mp h
  obtain rfl := Except.ok.inj h
  exact ⟨hw.permits_of_meant (ok_of_mapError hpair) hs ht,
    Binary.InUnit.ne_nan (checkConfidence_eq_ok.mp (ok_of_mapError hconfidence))⟩

/-- Rows that pass their checks are for a deed that brings legal mappings. -/
theorem Sound.fit_upsert (hw : w.Sound) {index : Nat} {seen : List SlotKey}
    {rows rows' : List MappingRow}
    (h : checkedRows w.engine w.registry w.surroundings index seen rows = .ok rows') :
    (Deed.upsert rows').Fit w := by
  induction rows generalizing index seen rows' with
  | nil =>
    cases h
    exact fun row hrow => by cases hrow
  | cons row rest ih =>
    obtain ⟨row', hrow, h⟩ := bind_eq_ok.mp h
    split at h
    · cases h
    · obtain ⟨rows, hrest, h⟩ := bind_eq_ok.mp h
      obtain rfl := Except.ok.inj h
      refine List.forall_mem_cons.mpr ⟨?_, ih hrest⟩
      have hrow := ok_of_mapError hrow
      obtain ⟨_, hpair, hrow⟩ := bind_eq_ok.mp hrow
      obtain ⟨_, hconfidence, hrow⟩ := bind_eq_ok.mp hrow
      obtain ⟨s, hs, hrow⟩ := bind_eq_ok.mp hrow
      obtain ⟨t, ht, hrow⟩ := bind_eq_ok.mp hrow
      obtain rfl := Except.ok.inj hrow
      refine ⟨hw.permits_of_meant (ok_of_mapError hpair) hs ht, ?_⟩
      cases hx : row.confidence with
      | none =>
        rw [Option.getD_none, Binary.one_eq]
        exact nofun
      | some x =>
        rw [hx] at hconfidence
        exact Binary.InUnit.ne_nan (checkedConfidence_eq_ok.mp hconfidence x rfl)

end World

/-- What a call does to a service are deeds that bring legal mappings only, at some moment. -/
theorem Call.exists_deeds {w : World} (hw : w.Sound) (c : Call) : ∃ moment ds,
    (∀ d ∈ ds, Deed.Fit w d) ∧ c.perform w = { w with clock := moment }.after ds := by
  cases c with
  | confirm q =>
    obtain ⟨moment, h | ⟨q', hvisit, h⟩⟩ := (Errand.confirm q).exists_run_cases w
    · exact ⟨moment, [], List.forall_mem_nil _, h⟩
    · refine ⟨moment, [.confirm q'], List.forall_mem_singleton.mpr ?_, congrArg Prod.snd h⟩
      have hfound : (checkRequest w.engine w.registry q).found w.surroundings = .ok q' :=
        (steady_checkRequest w.engine w.registry q _ _).symm.trans hvisit
      rw [found_checkRequest] at hfound
      exact hw.fit_confirm hfound
  | upsert rows =>
    obtain ⟨moment, h | ⟨rows', hvisit, h⟩⟩ := (Errand.upsert rows).exists_run_cases w
    · exact ⟨moment, [], List.forall_mem_nil _, h⟩
    · refine ⟨moment, [.upsert rows'], List.forall_mem_singleton.mpr ?_, congrArg Prod.snd h⟩
      have hfound : (checkBatch w.engine w.registry rows).found w.surroundings = .ok rows' :=
        (steady_checkBatch w.engine w.registry rows _ _).symm.trans hvisit
      rw [found_checkBatch] at hfound
      exact hw.fit_upsert hfound
  | autoMap hop =>
    obtain ⟨moment, h⟩ := Errand.exists_run_eq (q := .autoMap hop)
      (steady_gather w.engine w.registry hop) (found_gather w.engine w.registry hop w.surroundings)
    obtain ⟨done, hdone, hafter⟩ := exists_after_autoMapAll hop
      (sides w.engine w.registry w.surroundings hop).targets { w with clock := moment }
      (sides w.engine w.registry w.surroundings hop).sources _
    refine ⟨moment, _, ?_, (congrArg Prod.snd h).trans hafter⟩
    have hdrawn := hw.regular.drawn_sides hop
    intro d hd
    obtain ⟨x, hx, rfl⟩ := List.mem_map.mp hd
    exact ⟨hw.admits_of_lists (hdrawn.sources x (hdone.subset hx)),
      fun y hy => hw.admits_of_lists (hdrawn.targets y hy)⟩
  | delete k => exact ⟨w.clock, [.delete k], List.forall_mem_singleton.mpr trivial, rfl⟩

/-! ### Histories -/

/-- Whether an operation concerns lineage records. -/
def Operation.OnRecords : Operation → Prop
  | putRecord _ => True
  | deleteRecord _ => True
  | _ => False

theorem Operation.OnRecords.permitted {op : Operation} (h : op.OnRecords)
    (P : SlotKey → Table → Prop) : op.Permitted P := by
  cases op <;> trivial

namespace World

/-- Whether a service comes of another one by calls.  Between them time passes, connections fail and
recover, marks are used up and lineage records are kept. -/
inductive Reaches (w : World) : World → Prop
  | refl : Reaches w w
  | call {v : World} (h : Reaches w v) (c : Call) : Reaches w (c.perform v)
  | pass {v v' : World} (h : Reaches w v) (hkin : v'.Kin v) (ops : List Operation)
    (hops : ∀ op ∈ ops, op.OnRecords) (hstore : v'.store = v.store.after ops) : Reaches w v'

variable {v w : World}

/-- However a service is reached, its store was asked for legal mappings only. -/
theorem Reaches.exists_ops (h : w.Reaches v) (hw : w.Sound) : v.Kin w ∧ ∃ ops,
    (∀ op ∈ ops, op.Permitted w.Permits) ∧ v.store = w.store.after ops := by
  induction h with
  | refl => exact ⟨w.kin_refl, [], List.forall_mem_nil _, rfl⟩
  | @call v _ c ih =>
    obtain ⟨hkin, ops, hops, hstore⟩ := ih
    obtain ⟨moment, ds, hds, hperform⟩ := c.exists_deeds (hkin.sound hw)
    obtain ⟨n, hafter⟩ := { v with clock := moment }.exists_after_eq ds
    refine ⟨?_, ops ++ { v with clock := moment }.asks ds, fun op hop => ?_, ?_⟩
    · rw [hperform, hafter]
      exact ⟨hkin.registry_eq, hkin.engine_eq, hkin.catalog_eq⟩
    · rcases List.mem_append.mp hop with hop | hop
      · exact hops op hop
      · exact (permitted_of_mem_asks hds hop).imp fun k t h => ⟨hkin.admits h.1, hkin.admits h.2⟩
    · rw [hperform, store_after, Store.after_append, ← hstore]
      rfl
  | @pass v v' _ hkin' ops' hops' hstore' ih =>
    obtain ⟨hkin, ops, hops, hstore⟩ := ih
    refine ⟨hkin'.trans hkin, ops ++ ops', fun op hop => ?_, ?_⟩
    · rcases List.mem_append.mp hop with hop | hop
      · exact hops op hop
      · exact (hops' op hop).permitted _
    · rw [hstore', hstore, Store.after_append]

/-- A service that was reached has an orderly store of permitted mappings. -/
theorem Reaches.permitted (h : w.Reaches v) (hw : w.Sound) (hempty : ∃ b, w.store = .empty b) :
    v.store.Permitted w.Permits ∧ v.store.Keyed := by
  obtain ⟨-, ops, hops, hstore⟩ := h.exists_ops hw
  obtain ⟨b, hb⟩ := hempty
  rw [hstore, hb]
  exact ⟨(Store.permitted_empty b).after hops, Store.keyed_after b ops⟩

/-- What is permitted in a slot is legal. -/
theorem legal_of_permitted {b : Backend} {k : SlotKey} {m : Mapping}
    (h : m.Permitted b w.Permits k) : m.hop = k.hop ∧ w.Legal m :=
  ⟨h.shares.hop_eq, h.permits.1, h.permits.2, h.inUnit⟩

theorem start_spec {r : Registry} {e : Engine} {c : Catalog} {s : Store} {a : Analyst}
    {supply : Supply} (h : World.start r e c s a supply = .ok w) :
    e.validate = .ok () ∧ w = .idle r e c s a supply := by
  obtain ⟨_, hvalid, h⟩ := bind_eq_ok.mp h
  exact ⟨hvalid, (Except.ok.inj h).symm⟩

/-- A service that was started with registered connections and a snapshot is sound. -/
theorem sound_of_start {cs : List Connection} {snapshot : Snapshot} {r : Registry} {e : Engine}
    {c : Catalog} {s : Store} {a : Analyst} {supply : Supply}
    (hregistry : Registry.ofList cs = .ok r) (hcatalog : snapshot.load = .ok c)
    (hstart : World.start r e c s a supply = .ok w) : w.Sound := by
  obtain ⟨-, rfl⟩ := start_spec hstart
  obtain ⟨hstatic, hchecked⟩ := Snapshot.load_spec hcatalog
  exact ⟨⟨⟨cs, hregistry⟩, hstatic⟩, hchecked⟩

/-- **Only legal mappings are stored.**  However a service is reached that was started with registered
connections, a catalog loaded from a snapshot, valid settings and an empty store of either kind,
whatever was asked of it and whether or not it failed, all confirmed mappings and all candidates of a
hop are on that hop and legal, and the candidates are automatic ones.  So is what is found under the
key of a source table. -/
theorem stored_mappings_legal {cs : List Connection} {snapshot : Snapshot} {r : Registry}
    {e : Engine} {c : Catalog} {b : Backend} {a : Analyst} {supply : Supply}
    (hregistry : Registry.ofList cs = .ok r) (hcatalog : snapshot.load = .ok c)
    (hstart : World.start r e c (.empty b) a supply = .ok w) (h : w.Reaches v) :
    (∀ {hop : Hop} {ms : List Mapping}, v.store.confirmed hop = .ok ms →
      ∀ m ∈ ms, m.hop = hop ∧ w.Legal m) ∧
    (∀ {hop : Hop} {ms : List Mapping}, v.store.candidates hop = .ok ms →
      ∀ m ∈ ms, m.hop = hop ∧ w.Legal m ∧ m.provenance = .auto) ∧
    ∀ {k : SlotKey} {m : Mapping}, v.store.confirmed? k = .ok (some m) →
      m.hop = k.hop ∧ w.Legal m := by
  have hsound := sound_of_start hregistry hcatalog hstart
  obtain ⟨-, rfl⟩ := start_spec hstart
  obtain ⟨hpermitted, hkeyed⟩ := h.permitted hsound ⟨b, rfl⟩
  refine ⟨fun hms m hm => ?_, fun hms m hm => ?_, fun {k m} hm => ?_⟩
  · obtain ⟨k, s, rfl, hslot, hm⟩ := hkeyed.slot_of_mem_confirmed hms hm
    exact legal_of_permitted ((hpermitted k s hslot).confirmed m hm)
  · obtain ⟨k, s, rfl, hslot, hm⟩ := hkeyed.slot_of_mem_candidates hms hm
    obtain ⟨hm, hauto⟩ := (hpermitted k s hslot).candidates m hm
    obtain ⟨hhop, hlegal⟩ := legal_of_permitted hm
    exact ⟨hhop, hlegal, hauto⟩
  · rw [Store.confirmed?_eq] at hm
    obtain ⟨s, hslot, hm⟩ := map_eq_ok.mp hm
    exact legal_of_permitted ((hpermitted k s hslot).confirmed m hm)

end World

/-! ### Samples -/

/-- The service with the tables of the snapshot was started. -/
theorem start_variantShop : World.start variantShop.registry variantShop.engine
    variantShop.surroundings.catalog (.empty .memory) .absent ⟨0, ⟨0, 0⟩⟩ = .ok variantShop := by
  have hvalid : variantShop.engine.validate = .ok () := by decide +kernel
  rw [World.start, hvalid]
  rfl

/-- What automatic mapping confirms in it is legal. -/
theorem World.stored_mappings_legal_sample :
    ∃ ms, ((Call.autoMap .sourceToStage).perform variantShop).store.confirmed .sourceToStage =
        .ok ms ∧ ms.length = 2 ∧ ∀ m ∈ ms, m.hop = .sourceToStage ∧ variantShop.Legal m := by
  have hcount : (((Call.autoMap .sourceToStage).perform variantShop).store.confirmed
      .sourceToStage).toOption.map List.length = some 2 := by
    decide +kernel
  cases hms : ((Call.autoMap .sourceToStage).perform variantShop).store.confirmed .sourceToStage with
  | error f =>
    rw [hms] at hcount
    cases hcount
  | ok ms =>
    rw [hms] at hcount
    refine ⟨ms, rfl, Option.some.inj hcount, ?_⟩
    exact (World.stored_mappings_legal registered_variantShop load_variantSnapshot start_variantShop
      (.call .refl (.autoMap .sourceToStage))).1 hms

end TierLineage
