import TierLineage.Proofs.Calendar.Text
import TierLineage.Proofs.Store.Scalars

/-!
# Records and slots are read back

The text of a lineage record or of a slot is read back as it was.  What is asked for that concerns
scalars only: moments are ones that dates can have, and a mapping is `Legible` if moreover its
identifier has 128 bits and its confidence is read back from its own text.
-/

namespace TierLineage

/-! ### Lists, options and sets -/

/-- Values that can all be read are read in their order. -/
theorem mapM_eq_ok {ε α β : Type} {f : α → Except ε β} {g : α → β} {as : List α}
    (h : ∀ a ∈ as, f a = .ok (g a)) : as.mapM f = .ok (as.map g) := by
  induction as with
  | nil => rfl
  | cons a as ih =>
    rw [List.mapM_cons, h a (List.mem_cons_self ..), ih fun b hb => h b (List.mem_cons_of_mem a hb)]
    rfl

theorem Json.readList_listOf {α : Type} {read : Json.Reader α} {write : α → Json} {as : List α}
    (h : ∀ a ∈ as, read (write a) = .ok a) : Json.readList read (Json.listOf write as) = .ok as := by
  have hitems : (as.map write).mapM read = .ok as := by
    have hid : (as.map write).mapM read = .ok (as.map id) := by
      rw [List.mapM_map]
      exact mapM_eq_ok h
    rwa [List.map_id] at hid
  simp [Json.readList, Json.listOf, Json.arr, hitems, Json.checkEnding, Json.Ending.complete]

theorem Json.readOption_opt {α : Type} {read : Json.Reader α} {write : α → Json} {o : Option α}
    (h : ∀ a ∈ o, read (write a) = .ok a) (hnull : ∀ a, write a ≠ .null) :
    Json.readOption read (Json.opt write o) = .ok o := by
  cases o with
  | none => rfl
  | some a =>
    have ha := h a rfl
    rw [Json.opt, Json.readOption, ha]
    · rfl
    · exact hnull a

namespace Json

@[simp] theorem clean_str (s : String) : (str s).Clean := .text s

theorem clean_obj {es : List (String × Json)} (h : ∀ e ∈ es, e.2.Clean) : (obj es).Clean := by
  refine .record (fun e he => ?_) fun e he => ?_
  all_goals
    obtain ⟨⟨k, v⟩, hkv, rfl⟩ := List.mem_map.mp he
  · exact h _ hkv
  · rfl

theorem clean_listOf {α : Type} {write : α → Json} {as : List α} (h : ∀ a ∈ as, (write a).Clean) :
    (listOf write as).Clean := by
  refine .list fun v hv => ?_
  obtain ⟨a, ha, rfl⟩ := List.mem_map.mp hv
  exact h a ha

theorem clean_opt {α : Type} {write : α → Json} {o : Option α} (h : ∀ a ∈ o, (write a).Clean) :
    (opt write o).Clean := by
  cases o with
  | none => exact .null
  | some a => exact h a rfl

end Json

/-! ### Procedures and tables -/

theorem ProcedureId.read_toJson (p : ProcedureId) : ProcedureId.read p.toJson = .ok p := by
  have ha := p.connection.read_toJson
  rw [read, toJson, Json.fields_obj]
  · simp [Json.Found.need, List.lookup_cons, ha]
  · simp
  · simp [Json.needs, ha]
  · simp [Json.needs]

theorem ProcedureId.clean_toJson (p : ProcedureId) : p.toJson.Clean := by
  refine Json.clean_obj ?_
  simp [Alias.toJson]

theorem Table.read_toJson (t : Table) : Table.read t.toJson = .ok t := by
  have ha := t.connection.read_toJson
  rw [read, toJson, Json.fields_obj]
  · simp [Json.Found.need, Json.Found.orDefault, List.lookup_cons, ha]
  · simp
  · simp [Json.needs, Json.may, ha]
  · simp [Json.needs, Json.may]

theorem Table.clean_toJson (t : Table) : t.toJson.Clean := by
  refine Json.clean_obj ?_
  simp [Alias.toJson]

/-- A table behind all others comes to the end. -/
theorem insertOnce_of_lt {t : Table} {us : List Table} (h : ∀ u ∈ us, compare u t = .lt) :
    TableSet.insertOnce t us = us ++ [t] := by
  induction us with
  | nil => rfl
  | cons u us ih =>
    have hgt : compare t u = .gt := Std.OrientedCmp.gt_iff_lt.mpr (h u (List.mem_cons_self ..))
    rw [TableSet.insertOnce, hgt, List.cons_append, ih fun v hv => h v (List.mem_cons_of_mem u hv)]

theorem TableSet.ofList_items (s : TableSet) : TableSet.ofList s.items = s := by
  have hfold : ∀ (ts : List Table) (r : TableSet),
      (r.items ++ ts).Pairwise (fun t u => compare t u = .lt) →
        (ts.foldl TableSet.insert r).items = r.items ++ ts := by
    intro ts
    induction ts with
    | nil => simp
    | cons t ts ih =>
      intro r hr
      have hlt : ∀ u ∈ r.items, compare u t = .lt := by
        intro u hu
        exact (List.pairwise_append.mp hr).2.2 u hu t (List.mem_cons_self ..)
      have hinsert : (r.insert t).items = r.items ++ [t] := insertOnce_of_lt hlt
      rw [List.foldl_cons, ih _ (by simpa [hinsert] using hr), hinsert]
      simp
  have hitems := hfold s.items .empty (by simpa [TableSet.empty] using s.ordered)
  exact TableSet.ext hitems

theorem TableSet.read_toJson (s : TableSet) : TableSet.read s.toJson = .ok s := by
  rw [read, toJson, Json.readList_listOf fun t _ => t.read_toJson]
  simp [s.ofList_items]

/-! ### Records -/

theorem ColumnLineage.read_toJson (c : ColumnLineage) : ColumnLineage.read c.toJson = .ok c := by
  have ht := c.tables.read_toJson
  have hk := c.transformation.read_toJson
  rw [read, toJson, Json.fields_obj]
  · simp [Json.Found.need, Json.Found.orDefault, List.lookup_cons, ht, hk]
  · simp
  · simp [Json.needs, Json.may, ht, hk]
  · simp [Json.needs, Json.may]

theorem ColumnLineage.clean_toJson (c : ColumnLineage) : c.toJson.Clean := by
  have ht : c.tables.toJson.Clean := Json.clean_listOf fun t _ => t.clean_toJson
  refine Json.clean_obj ?_
  simp [ht, Named.toJson]

theorem Record.clean_toJson (r : Record) : r.toJson.Clean := by
  have hi := r.identity.clean_toJson
  have ht : (Json.opt Table.toJson r.target).Clean := Json.clean_opt fun t _ => t.clean_toJson
  have hc : (Json.listOf ColumnLineage.toJson r.columns).Clean :=
    Json.clean_listOf fun c _ => c.clean_toJson
  refine Json.clean_obj ?_
  simp [hi, ht, hc, Json.Clean.bool]

theorem Record.read_toJson {r : Record} (h : r.computedAt.Valid) : Record.read r.toJson = .ok r := by
  have hi := r.identity.read_toJson
  have ht : Json.readOption Table.read (Json.opt Table.toJson r.target) = .ok r.target :=
    Json.readOption_opt (fun t _ => t.read_toJson) fun t => by simp [Table.toJson, Json.obj]
  have hc : Json.readList ColumnLineage.read (Json.listOf ColumnLineage.toJson r.columns) =
      .ok r.columns := Json.readList_listOf fun c _ => c.read_toJson
  have hw : Mapping.readInstant (Json.str r.computedAt.text) = .ok r.computedAt := by
    simp [Mapping.readInstant, Instant.parse?_text h]
    rfl
  rw [read, toJson, Json.fields_obj]
  · simp [Json.Found.need, Json.Found.orDefault, Json.Found.option, List.lookup_cons, hi, ht, hc, hw]
  · simp
  · simp [Json.needs, Json.may, hi, ht, hc, hw]
  · simp [Json.needs, Json.may]

/-! ### Mappings -/

/-- A mapping with scalars that are read back from their texts. -/
structure Mapping.Legible (m : Mapping) : Prop where
  /-- Identifiers have 128 bits. -/
  identifier_lt : m.identifier.value < Nat.pow 2 128
  confidence_eq : Json.decode Json.readSingle (Json.compact (Json.single m.confidence)) =
    .ok m.confidence
  createdAt_valid : m.createdAt.Valid

theorem Mapping.clean_toJson {m : Mapping} (h : m.Legible) : m.toJson.Clean := by
  have hs := m.source.clean_toJson
  have ht := m.target.clean_toJson
  have hc := (Json.clean_single h.confidence_eq).1
  refine Json.clean_obj ?_
  cases m.notes <;> simp [hs, ht, hc, Named.toJson]

theorem Mapping.read_toJson {m : Mapping} (h : m.Legible) : Mapping.read m.toJson = .ok m := by
  have hi : readIdentifier (Json.str m.identifier.text) = .ok m.identifier := by
    simp [readIdentifier, Identifier.parse?_text h.identifier_lt]
    rfl
  have hw : readInstant (Json.str m.createdAt.text) = .ok m.createdAt := by
    simp [readInstant, Instant.parse?_text h.createdAt_valid]
    rfl
  have hh := m.hop.read_toJson
  have hs := m.source.read_toJson
  have ht := m.target.read_toJson
  have hc := (Json.clean_single h.confidence_eq).2
  have hp := m.provenance.read_toJson
  have hst := m.state.read_toJson
  obtain ⟨identifier, hop, source, target, confidence, provenance, state, createdAt, notes⟩ := m
  cases notes with
  | none =>
    rw [read, toJson, Json.fields_obj]
    · simp [Json.Found.need, Json.Found.orDefault, Json.Found.option, List.lookup_cons, hi, hw, hh,
        hs, ht, hc, hp, hst]
    · simp
    · simp [Json.needs, Json.may, hi, hw, hh, hs, ht, hc, hp, hst]
    · simp [Json.needs, Json.may]
  | some n =>
    have hn : Json.readOption Json.readText (Json.str n) = .ok (some n) := rfl
    rw [read, toJson, Json.fields_obj]
    · simp [Json.Found.need, Json.Found.orDefault, Json.Found.option, List.lookup_cons, hi, hw, hh,
        hs, ht, hc, hp, hst, hn]
    · simp
    · simp [Json.needs, Json.may, hi, hw, hh, hs, ht, hc, hp, hst, hn]
    · simp [Json.needs, Json.may]

/-- A slot of legible mappings. -/
structure Slot.Legible (s : Slot) : Prop where
  confirmed : ∀ m ∈ s.confirmed, m.Legible
  candidates : ∀ m ∈ s.candidates, m.Legible

/-- A slot can be written if its mappings can. -/
theorem Slot.clean_of_mappings {s : Slot} (hconfirmed : ∀ m ∈ s.confirmed, m.toJson.Clean)
    (hcandidates : ∀ m ∈ s.candidates, m.toJson.Clean) : s.toJson.Clean := by
  have hc : (Json.opt Mapping.toJson s.confirmed).Clean := Json.clean_opt hconfirmed
  have hl : (Json.listOf Mapping.toJson s.candidates).Clean := Json.clean_listOf hcandidates
  refine Json.clean_obj ?_
  simp [hc, hl]

theorem Slot.clean_toJson {s : Slot} (h : s.Legible) : s.toJson.Clean :=
  clean_of_mappings (fun m hm => Mapping.clean_toJson (h.confirmed m hm))
    (fun m hm => Mapping.clean_toJson (h.candidates m hm))

theorem Slot.read_toJson {s : Slot} (h : s.Legible) : Slot.read s.toJson = .ok s := by
  have hc : Json.readOption Mapping.read (Json.opt Mapping.toJson s.confirmed) = .ok s.confirmed :=
    Json.readOption_opt (fun m hm => Mapping.read_toJson (h.confirmed m hm))
      fun m => by simp [Mapping.toJson, Json.obj]
  have hl : Json.readList Mapping.read (Json.listOf Mapping.toJson s.candidates) =
      .ok s.candidates := Json.readList_listOf fun m hm => Mapping.read_toJson (h.candidates m hm)
  rw [read, toJson, Json.fields_obj]
  · simp [Json.Found.orDefault, Json.Found.option, List.lookup_cons, hc, hl]
  · simp
  · simp [Json.nullable, Json.may, hc, hl]
  · simp [Json.nullable, Json.may]

end TierLineage
