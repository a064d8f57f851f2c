import TierLineage.Proofs.Number.UnitInterval
import TierLineage.Proofs.Outcome
import TierLineage.Proofs.Store.Data
import TierLineage.Store.Ledger

/-!
# What becomes of mappings in a text

A ledger keeps texts, and not every scalar is read back as it was: an identifier of more than 128 bits,
a moment that dates cannot have, or a confidence whose shortest digits are read as another number.
Whatever is read from the text of a slot, though, it has the mappings that were written in their order,
each of them with its hop, its tables, its provenance and its state, and with a confidence between zero
and one if it had one.  No hypothesis on the scalars is needed for that; a slot that cannot be read has
nothing in it.
-/

namespace TierLineage

open TierLineage.Number

namespace Json

/-- What is found in a written record are its entries, if all of them are known. -/
theorem eq_of_foundByName {fs : List Field} {strict : Bool} {es : List (String × Json)}
    {found result : Found} (hknown : ∀ e ∈ es, (fs.find? (·.name == e.1)).isSome = true)
    (h : foundByName fs strict .closed (es.map fun (k, v) => (some k, v)) found = .ok result) :
    result = es.reverse ++ found := by
  induction es generalizing found with
  | nil =>
    obtain ⟨-, -, h⟩ := bind_eq_ok.mp h
    split at h
    · exact (Except.ok.inj h).symm
    · cases h
  | cons e es ih =>
    obtain ⟨k, v⟩ := e
    obtain ⟨f, hf⟩ := Option.isSome_iff_exists.mp (hknown (k, v) (List.mem_cons_self ..))
    simp only [List.map_cons, foundByName, hf] at h
    split at h
    · cases h
    · obtain ⟨-, -, h⟩ := bind_eq_ok.mp h
      rw [ih (fun e he => hknown e (List.mem_cons_of_mem _ he)) h, List.reverse_cons,
        List.append_assoc, List.singleton_append]

theorem eq_of_fields_obj {strict : Bool} {fs : List Field} {es : List (String × Json)} {found : Found}
    (hknown : ∀ e ∈ es, (fs.find? (·.name == e.1)).isSome = true)
    (h : fields strict fs (obj es) = .ok found) : found = es.reverse := by
  rw [← List.append_nil es.reverse]
  exact eq_of_foundByName hknown h

end Json

/-! ### Mappings -/

namespace Mapping

/-- Whether a mapping may have come of another one in a text: its identity and its age may be other
ones, and its confidence is what is read from the numeral. -/
structure Echoes (m n : Mapping) : Prop where
  key_eq : n.key = m.key
  target_eq : n.target = m.target
  provenance_eq : n.provenance = m.provenance
  state_eq : n.state = m.state
  notes_eq : n.notes = m.notes
  confidence_eq : Json.readSingle (Json.single m.confidence) = .ok n.confidence

/-- A mapping with a confidence between zero and one can be written, whatever its other scalars are. -/
theorem clean_of_inUnit {m : Mapping} (h : m.confidence.InUnit) : m.toJson.Clean := by
  have hs := m.source.clean_toJson
  have ht := m.target.clean_toJson
  have hc := (Json.single_inUnit h).1
  refine Json.clean_obj ?_
  cases m.notes <;> simp [hs, ht, hc, Named.toJson]

/-- What is read from the data of a mapping is an echo of it. -/
theorem echoes_of_read {m n : Mapping} (h : Mapping.read m.toJson = .ok n) : m.Echoes n := by
  obtain ⟨found, hfound, h⟩ := bind_eq_ok.mp h
  obtain rfl := Json.eq_of_fields_obj
    (by cases m.notes <;> simp [Json.needs, Json.may]) hfound
  obtain ⟨identifier, -, h⟩ := bind_eq_ok.mp h
  obtain ⟨hop, hhop, h⟩ := bind_eq_ok.mp h
  obtain ⟨source, hsource, h⟩ := bind_eq_ok.mp h
  obtain ⟨target, htarget, h⟩ := bind_eq_ok.mp h
  obtain ⟨confidence, hconfidence, h⟩ := bind_eq_ok.mp h
  obtain ⟨provenance, hprovenance, h⟩ := bind_eq_ok.mp h
  obtain ⟨state, hstate, h⟩ := bind_eq_ok.mp h
  obtain ⟨createdAt, -, h⟩ := bind_eq_ok.mp h
  obtain ⟨notes, hnotes, h⟩ := bind_eq_ok.mp h
  obtain rfl := Except.ok.inj h
  have hh := m.hop.read_toJson
  have hs := m.source.read_toJson
  have ht := m.target.read_toJson
  have hp := m.provenance.read_toJson
  have hst := m.state.read_toJson
  have hn : ∀ text, Json.readOption Json.readText (Json.str text) = .ok (some text) := fun _ => rfl
  -- the entries are found under their names whether or not notes are written behind them
  cases hwritten : m.notes <;>
    simp [Json.Found.need, Json.Found.option, Json.Found.orDefault, List.lookup_cons, hwritten, hh, hs,
      ht, hp, hst, hn] at hhop hsource htarget hconfidence hprovenance hstate hnotes
  all_goals
    subst hhop hsource htarget hprovenance hstate hnotes
    exact ⟨rfl, rfl, rfl, rfl, hwritten.symm, hconfidence⟩

end Mapping

/-! ### Slots -/

/-- What lists that are related have on the right is related to something on the left. -/
theorem exists_mem_of_forall₂ {α β : Type} {R : α → β → Prop} {as : List α} {bs : List β}
    (h : List.Forall₂ R as bs) {b : β} (hb : b ∈ bs) : ∃ a ∈ as, R a b := by
  induction h with
  | nil => cases hb
  | @cons a _ as _ hab _ ih =>
    rcases List.mem_cons.mp hb with rfl | hb
    · exact ⟨a, List.mem_cons_self .., hab⟩
    · obtain ⟨a', ha', hab'⟩ := ih hb
      exact ⟨a', List.mem_cons_of_mem a ha', hab'⟩

namespace Slot

/-- Whether a slot may have come of another one in a text. -/
structure Echoes (v w : Slot) : Prop where
  confirmed : Option.Rel Mapping.Echoes v.confirmed w.confirmed
  candidates : List.Forall₂ Mapping.Echoes v.candidates w.candidates

variable {v w : Slot} {n : Mapping}

theorem Echoes.exists_confirmed (h : v.Echoes w) (hn : w.confirmed = some n) :
    ∃ m, v.confirmed = some m ∧ m.Echoes n := by
  have hrel := h.confirmed
  rw [hn] at hrel
  cases hv : v.confirmed with
  | none =>
    rw [hv] at hrel
    cases hrel
  | some m =>
    rw [hv] at hrel
    cases hrel with
    | some hmn => exact ⟨m, rfl, hmn⟩

theorem Echoes.exists_candidate (h : v.Echoes w) (hn : n ∈ w.candidates) :
    ∃ m ∈ v.candidates, m.Echoes n :=
  exists_mem_of_forall₂ h.candidates hn

/-- What is read from the data of a slot is an echo of it. -/
theorem echoes_of_read (h : Slot.read v.toJson = .ok w) : v.Echoes w := by
  obtain ⟨found, hfound, h⟩ := bind_eq_ok.mp h
  obtain rfl := Json.eq_of_fields_obj (by simp [Json.nullable, Json.may]) hfound
  obtain ⟨confirmed, hconfirmed, h⟩ := bind_eq_ok.mp h
  obtain ⟨candidates, hcandidates, h⟩ := bind_eq_ok.mp h
  obtain rfl := Except.ok.inj h
  have hopt : Json.readOption Mapping.read (Json.opt Mapping.toJson v.confirmed) = .ok confirmed :=
    hconfirmed
  have hlist : Json.readList Mapping.read (Json.listOf Mapping.toJson v.candidates) =
    .ok candidates := hcandidates
  constructor
  · cases hv : v.confirmed with
    | none =>
      rw [hv] at hopt
      obtain rfl := Except.ok.inj hopt
      exact .none
    | some m =>
      rw [hv] at hopt
      -- the data of a mapping is no null
      have hsome : (Mapping.read m.toJson).map some = .ok confirmed := hopt
      cases hm : Mapping.read m.toJson with
      | error e =>
        rw [hm] at hsome
        cases hsome
      | ok n =>
        rw [hm] at hsome
        cases hsome
        exact .some (Mapping.echoes_of_read hm)
  · obtain ⟨ms, hms, hlist⟩ := bind_eq_ok.mp hlist
    obtain ⟨-, -, hlist⟩ := bind_eq_ok.mp hlist
    obtain rfl := Except.ok.inj hlist
    rw [List.mapM_map] at hms
    exact (forall₂_of_mapM hms).imp fun _ _ => Mapping.echoes_of_read

/-- What is read from the text of a slot is an echo of it, if its confidences lie between zero and
one. -/
theorem echoes_of_decode (hconfirmed : ∀ m ∈ v.confirmed, m.confidence.InUnit)
    (hcandidates : ∀ m ∈ v.candidates, m.confidence.InUnit)
    (h : Ledger.decode Slot.read (Json.compact v.toJson) = .ok w) : v.Echoes w := by
  have hclean : v.toJson.Clean := clean_of_mappings
    (fun m hm => Mapping.clean_of_inUnit (hconfirmed m hm))
    (fun m hm => Mapping.clean_of_inUnit (hcandidates m hm))
  refine echoes_of_read ?_
  rw [Ledger.decode, Json.decode_compact Slot.read hclean] at h
  split at h
  · next heq => exact heq.trans (congrArg Except.ok (Except.ok.inj h))
  · cases h

end Slot

end TierLineage
