import TierLineage.Proofs.Mapping.Slot
import TierLineage.Proofs.Store.Contents

/-!
# Decisions end proposals

A slot is lawful if it holds a decision for its key, or proposals for its key, and not both.  Every
operation keeps the slots of a shelf lawful, as long as candidates are recorded under their own key.
So in every store that started empty the decisions of a hop are listed by strictly increasing source
tables, they are what is found under the keys of the hop, and no table has both a decision and a
proposal.
-/

namespace TierLineage

/-! ### Slots -/

/-- Whether a slot holds a decision for its key, or proposals for its key, and not both. -/
structure Slot.Lawful (v : Slot) (k : SlotKey) : Prop where
  confirmed : ∀ m ∈ v.confirmed, m.state = .confirmed ∧ m.key = k
  candidates : ∀ m ∈ v.candidates, m.state = .candidate ∧ m.key = k
  exclusive : v.confirmed.isSome = true → v.candidates = []

namespace Slot

variable {v w : Slot} {k : SlotKey} {m p : Mapping} {mode : ConfirmMode} {c : Confirmation}

theorem lawful_empty (k : SlotKey) : empty.Lawful k where
  confirmed m hm := by cases hm
  candidates m hm := by cases hm
  exclusive _ := rfl

theorem lawful_holding (hstate : m.state = .confirmed) (hkey : m.key = k) : (holding m).Lawful k where
  confirmed n hn := by
    obtain rfl : m = n := Option.some.inj hn
    exact ⟨hstate, hkey⟩
  candidates n hn := by cases hn
  exclusive _ := rfl

theorem successor_state (p m : Mapping) : (successor p m).state = m.state := by
  rw [successor]
  split <;> rfl

theorem successor_key (p m : Mapping) : (successor p m).key = m.key := by
  rw [successor]
  split <;> rfl

/-- Confirming keeps a slot lawful. -/
theorem Lawful.confirms (hv : v.Lawful k) (hm : m.key = k) (h : v.Confirms m mode c w) :
    w.Lawful k := by
  cases h with
  | created _ => exact lawful_holding rfl hm
  | replaced _ _ =>
    exact lawful_holding (successor_state _ _) ((successor_key _ _).trans hm)
  | unchanged _ _ _ => exact hv

theorem Lawful.record (hv : v.Lawful k) {ms : List Mapping} (hms : ∀ m ∈ ms, m.key = k) :
    (v.record ms).2.Lawful k := by
  rw [Slot.record]
  split
  · exact hv
  · next hnone =>
    refine ⟨hv.confirmed, fun n hn => ?_, fun hsome => absurd hsome hnone⟩
    obtain ⟨m, hm, rfl⟩ := List.mem_map.mp hn
    exact ⟨rfl, hms m hm⟩

theorem Lawful.delete (hv : v.Lawful k) : v.delete.2.Lawful k where
  confirmed m hm := by cases hm
  candidates := hv.candidates
  exclusive h := by cases h

end Slot

/-! ### Shelves -/

namespace Shelf

/-- Whether all slots of a shelf are lawful. -/
def Lawful (s : Shelf) : Prop :=
  ∀ k, (s.slot k).Lawful k

variable {s s' : Shelf} {k : SlotKey} {v : Slot} {m : Mapping} {mode : ConfirmMode}

/-- Confirming ends in a conflict, or changes the slot of the mapping in one of the ways of
confirming. -/
theorem confirm_cases (s : Shelf) (m : Mapping) (mode : ConfirmMode) :
    (∃ e, s.confirm m mode = (.error e, s)) ∨
      ∃ c v, (s.slot m.key).Confirms m mode c v ∧ s.confirm m mode = (.ok c, s.putSlot m.key v) := by
  rw [confirm]
  cases h : (s.slot m.key).confirm m mode with
  | error e => exact .inl ⟨e, rfl⟩
  | ok cv => exact .inr ⟨cv.1, cv.2, Slot.confirm_eq_ok_iff.mp h, rfl⟩

/-- Confirming one mapping of a batch changes its slot in one of the ways of confirming. -/
theorem upsert_cases (s : Shelf) (m : Mapping) :
    ∃ c v, (s.slot m.key).Confirms m .overwrite c v ∧ s.upsert m = (c, s.putSlot m.key v) :=
  ⟨_, _, (s.slot m.key).confirms_overwrite m, rfl⟩

theorem lawful_empty : empty.Lawful := fun k => Slot.lawful_empty k

theorem Lawful.sets (h : s.Lawful) (hv : v.Lawful k) (hs : s.Sets k v s') : s'.Lawful := by
  intro j
  rw [hs.slot_eq]
  split
  · next hj => exact hj ▸ hv
  · exact h j

theorem Lawful.confirm (h : s.Lawful) (m : Mapping) (mode : ConfirmMode) :
    (s.confirm m mode).2.Lawful := by
  rcases s.confirm_cases m mode with ⟨e, heq⟩ | ⟨c, v, hc, heq⟩
  · rwa [heq]
  · rw [heq]
    exact h.sets ((h m.key).confirms rfl hc) (s.sets_putSlot m.key v)

theorem Lawful.upsert (h : s.Lawful) (m : Mapping) : (s.upsert m).2.Lawful := by
  obtain ⟨c, v, hc, heq⟩ := s.upsert_cases m
  rw [heq]
  exact h.sets ((h m.key).confirms rfl hc) (s.sets_putSlot m.key v)

theorem Lawful.upsertAll (h : s.Lawful) (ms : List Mapping) : (s.upsertAll ms).2.Lawful := by
  rw [Shelf.upsertAll]
  generalize BatchCount.zero = n
  induction ms generalizing n s with
  | nil => exact h
  | cons m ms ih => exact ih (h.upsert m) (n.add (s.upsert m).1)

theorem Lawful.record (h : s.Lawful) {ms : List Mapping} (hms : ∀ m ∈ ms, m.key = k) :
    (s.record k ms).2.Lawful :=
  h.sets ((h k).record hms) (s.sets_putSlot k _)

theorem Lawful.delete (h : s.Lawful) (k : SlotKey) : (s.delete k).2.Lawful :=
  h.sets (h k).delete (s.delete_spec k).2

/-! ### Listings of lawful shelves -/

/-- Decisions are listed by strictly increasing source tables. -/
theorem Lawful.confirmed_sorted (h : s.Lawful) (hop : Hop) :
    (s.confirmed hop).Pairwise fun m n => compare m.source n.source = .lt := by
  have hentry : ∀ e ∈ s.slots.toList, ∀ m ∈ e.2.confirmed, m.source = e.1.source := by
    rintro ⟨k, v⟩ he m hm
    have hv := slot_of_getElem? (Std.TreeMap.mem_toList_iff_getElem?_eq_some.mp he)
    exact congrArg SlotKey.source ((h k).confirmed m (by rw [hv]; exact hm)).2
  refine List.pairwise_filterMap.mpr (List.pairwise_map.mpr ?_)
  -- slots are kept in the order of their keys, and within a hop that is the order of the tables
  refine (s.slots.ordered_keys_toList.filter _).imp_of_mem fun {d e} hd he hlt m hm n hn => ?_
  obtain ⟨hd, hdhop⟩ := List.mem_filter.mp hd
  obtain ⟨he, hehop⟩ := List.mem_filter.mp he
  rw [hentry d hd m hm, hentry e he n hn]
  exact SlotKey.compare_source hlt ((beq_iff_eq.mp hdhop).trans (beq_iff_eq.mp hehop).symm)

/-- No table has both a decision and a proposal. -/
theorem Lawful.source_ne (h : s.Lawful) {hop : Hop} {c : Mapping} (hm : m ∈ s.confirmed hop)
    (hc : c ∈ s.candidates hop) : m.source ≠ c.source := by
  intro heq
  obtain ⟨t, ht⟩ := mem_confirmed.mp hm
  obtain ⟨u, hu⟩ := mem_candidates.mp hc
  have hmt : m.source = t := congrArg SlotKey.source ((h _).confirmed m ht).2
  have hcu : c.source = u := congrArg SlotKey.source ((h _).candidates c hu).2
  -- both are then in one slot, which holds a decision and so no proposals
  obtain rfl : t = u := hmt.symm.trans (heq.trans hcu)
  rw [(h _).exclusive (by rw [ht]; rfl)] at hu
  cases hu

end Shelf

/-! ### Runs -/

/-- Whether candidates are recorded under their own key. -/
def Operation.Fair : Operation → Prop
  | record k ms => ∀ m ∈ ms, m.key = k
  | _ => True

namespace Shelf

variable {s : Shelf}

theorem Lawful.perform (h : s.Lawful) {op : Operation} (hop : op.Fair) :
    ∃ s', ((Store.memory s).perform op).2 = .memory s' ∧ s'.Lawful := by
  cases op with
  | confirm m mode => exact ⟨_, rfl, h.confirm m mode⟩
  | upsertAll ms => exact ⟨_, rfl, h.upsertAll ms⟩
  | record k ms => exact ⟨_, rfl, h.record hop⟩
  | delete k => exact ⟨_, rfl, h.delete k⟩
  | confirmed? k => exact ⟨s, rfl, h⟩
  | confirmed hop => exact ⟨s, rfl, h⟩
  | candidates hop => exact ⟨s, rfl, h⟩
  -- records are kept apart from slots
  | record? p => exact ⟨s, rfl, h⟩
  | putRecord r => exact ⟨_, rfl, h⟩
  | recordsOf a => exact ⟨s, rfl, h⟩
  | hashesOf a => exact ⟨s, rfl, h⟩
  | deleteRecord p => exact ⟨_, rfl, h⟩

theorem Lawful.after (h : s.Lawful) {ops : List Operation} (hops : ∀ op ∈ ops, op.Fair) :
    ∃ s', (Store.memory s).after ops = .memory s' ∧ s'.Lawful := by
  induction ops generalizing s with
  | nil => exact ⟨s, rfl, h⟩
  | cons op ops ih =>
    obtain ⟨s', hs', h'⟩ := h.perform (hops op (List.mem_cons_self ..))
    rw [Store.after, hs']
    exact ih h' fun op' hop' => hops op' (List.mem_cons_of_mem op hop')

end Shelf

namespace Store

/-- What holds of the mappings of a store. -/
structure Orderly (s : Store) : Prop where
  /-- Every slot can be read and is lawful. -/
  slot_lawful : ∀ k, ∃ v, s.slot k = .ok v ∧ s.confirmed? k = .ok v.confirmed ∧ v.Lawful k
  /-- Decisions are listed by strictly increasing source tables, and are what is found. -/
  confirmed_listed : ∀ hop, ∃ ms, s.confirmed hop = .ok ms ∧
    (ms.Pairwise fun m n => compare m.source n.source = .lt) ∧
      ∀ m, m ∈ ms ↔ ∃ t, s.confirmed? ⟨hop, t⟩ = .ok (some m)
  /-- Proposals are listed, and are what is recorded. -/
  candidates_listed : ∀ hop, ∃ cs, s.candidates hop = .ok cs ∧
    ∀ c, c ∈ cs ↔ ∃ t v, s.slot ⟨hop, t⟩ = .ok v ∧ c ∈ v.candidates
  /-- No table has both a decision and a proposal. -/
  source_ne : ∀ {hop : Hop} {ms cs : List Mapping}, s.confirmed hop = .ok ms →
    s.candidates hop = .ok cs → ∀ m ∈ ms, ∀ c ∈ cs, m.source ≠ c.source

/-- A store that shows a lawful shelf is orderly. -/
theorem Shows.orderly {s : Store} {h : Shelf} (hs : s.Shows h) (hh : h.Lawful) : s.Orderly where
  slot_lawful k := ⟨h.slot k, hs.slot_eq k, hs.confirmed?_eq k, hh k⟩
  confirmed_listed hop := by
    refine ⟨h.confirmed hop, hs.confirmed_eq hop, hh.confirmed_sorted hop, fun m => ?_⟩
    simp only [hs.confirmed?_eq, Except.ok.injEq]
    exact Shelf.mem_confirmed
  candidates_listed hop := by
    refine ⟨h.candidates hop, hs.candidates_eq hop, fun c => ?_⟩
    simp only [hs.slot_eq, Except.ok.injEq, exists_eq_left']
    exact Shelf.mem_candidates
  source_ne hms hcs m hm c hc := by
    rw [hs.confirmed_eq] at hms
    rw [hs.candidates_eq] at hcs
    cases hms
    cases hcs
    exact hh.source_ne hm hc

/-- **Decisions end proposals**: whatever was asked of a store that started empty, it is orderly, if
candidates were recorded under their own keys; a ledger has to be asked what it can keep. -/
theorem orderly_after (b : Backend) {ops : List Operation} (hfair : ∀ op ∈ ops, op.Fair)
    (hledger : b = .ledger → ∀ op ∈ ops, op.Proper) : ((empty b).after ops).Orderly := by
  obtain ⟨h, hh, hshows⟩ := shows_after b hledger
  -- the shelf that is shown is the one that the run in memory leaves
  obtain ⟨h', hh', hlawful⟩ := Shelf.lawful_empty.after hfair
  obtain rfl : h = h' := by
    rw [hh] at hh'
    cases hh'
    rfl
  exact hshows.orderly hlawful

end Store

/-! ### Samples -/

theorem proper_sampleMapping {source target : String} (h : Plain source)
    (hfits : (Ledger.slotKey (sampleMapping source target).key).utf8ByteSize ≤ Ledger.keyLimit) :
    (sampleMapping source target).key.Proper :=
  ⟨plain_sampleTable h, hfits⟩

/-- A proposal that a decision ends, a batch that puts another decision in its place and adds one, a
proposal that comes too late, and a deletion. -/
def sampleHistory : List Operation :=
  [.record (sampleMapping "a" "b").key [sampleMapping "a" "b"],
    .confirm (sampleMapping "a" "b") .ifAbsent,
    .upsertAll [sampleMapping "a" "c", sampleMapping "d" "b"],
    .record (sampleMapping "a" "b").key [sampleMapping "a" "b"],
    .delete (sampleMapping "d" "b").key]

theorem fair_sampleHistory : ∀ op ∈ sampleHistory, op.Fair := by
  simp [sampleHistory, Operation.Fair]

theorem proper_sampleHistory : ∀ op ∈ sampleHistory, op.Proper := by
  have ha : (sampleMapping "a" "b").key.Proper :=
    proper_sampleMapping (by unfold Plain; decide) (by decide)
  have hd : (sampleMapping "d" "b").key.Proper :=
    proper_sampleMapping (by unfold Plain; decide) (by decide)
  have hrecord : (Operation.record (sampleMapping "a" "b").key [sampleMapping "a" "b"]).Proper := by
    refine ⟨ha, fun m hm => ?_⟩
    rw [List.mem_singleton.mp hm]
    exact ⟨legible_sampleMapping "a" "b", rfl⟩
  have hbatch : (Operation.upsertAll [sampleMapping "a" "c", sampleMapping "d" "b"]).Proper := by
    intro m hm
    rcases List.mem_pair.mp hm with rfl | rfl
    · exact ⟨ha, legible_sampleMapping "a" "c"⟩
    · exact ⟨hd, legible_sampleMapping "d" "b"⟩
  intro op hop
  simp only [sampleHistory, List.mem_cons, List.not_mem_nil, or_false] at hop
  rcases hop with rfl | rfl | rfl | rfl | rfl
  · exact hrecord
  · exact ⟨ha, legible_sampleMapping "a" "b"⟩
  · exact hbatch
  · exact hrecord
  · exact hd

theorem Store.orderly_after_sample : (∀ op ∈ sampleHistory, op.Fair) ∧
    (∀ op ∈ sampleHistory, op.Proper) ∧ ((Store.empty .ledger).after sampleHistory).Orderly :=
  ⟨fair_sampleHistory, proper_sampleHistory,
    Store.orderly_after .ledger fair_sampleHistory fun _ => proper_sampleHistory⟩

end TierLineage
