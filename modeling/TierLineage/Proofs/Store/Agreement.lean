import TierLineage.Proofs.Store.Listing

/-!
# The two ways of keeping agree

A shelf and a ledger that mirrors it answer every operation alike, and the ledger mirrors the shelf
afterwards.  So stores that start empty answer every sequence of operations alike, as long as names
of tables are plain, keys are not too long, and what is written is read back.
-/

namespace TierLineage

/-! ### Operations -/

/-- What is asked of a store. -/
inductive Operation where
  | confirm (mapping : Mapping) (mode : ConfirmMode)
  | upsertAll (mappings : List Mapping)
  | confirmed? (key : SlotKey)
  | confirmed (hop : Hop)
  | record (key : SlotKey) (candidates : List Mapping)
  | candidates (hop : Hop)
  | delete (key : SlotKey)
  | record? (procedure : ProcedureId)
  | putRecord (record : Record)
  | recordsOf (connection : Alias)
  | hashesOf (connection : Alias)
  | deleteRecord (procedure : ProcedureId)

/-- What a store answers. -/
inductive Answer where
  | confirmation (result : Outcome Confirmation)
  | count (result : Outcome BatchCount)
  | mapping (result : Outcome (Option Mapping))
  | mappings (result : Outcome (List Mapping))
  | told (result : Outcome Bool)
  | record (result : Outcome (Option Record))
  | done (result : Outcome Unit)
  | records (result : Outcome (List Record))
  | hashes (result : Outcome (List (String × String)))

namespace Store

/-- Do what is asked. -/
def perform (s : Store) : Operation → Answer × Store
  | .confirm m mode => (s.confirm m mode).map .confirmation id
  | .upsertAll ms => (s.upsertAll ms).map .count id
  | .confirmed? k => (.mapping (s.confirmed? k), s)
  | .confirmed hop => (.mappings (s.confirmed hop), s)
  | .record k ms => (s.record k ms).map .told id
  | .candidates hop => (.mappings (s.candidates hop), s)
  | .delete k => (s.delete k).map .told id
  | .record? p => (.record (s.record? p), s)
  | .putRecord r => (s.putRecord r).map .done id
  | .recordsOf a => (.records (s.recordsOf a.name), s)
  | .hashesOf a => (.hashes (s.hashesOf a.name), s)
  | .deleteRecord p => (s.deleteRecord p).map .told id

/-- What is answered to one operation after the other. -/
def answers (s : Store) : List Operation → List Answer
  | [] => []
  | op :: ops => (s.perform op).1 :: (s.perform op).2.answers ops

/-- The store after one operation after the other. -/
def after (s : Store) : List Operation → Store
  | [] => s
  | op :: ops => (s.perform op).2.after ops

end Store

/-- Whether an operation is about slots and records that a ledger can keep. -/
def Operation.Proper : Operation → Prop
  | confirm m _ => m.key.Proper ∧ m.Legible
  | upsertAll ms => ∀ m ∈ ms, m.key.Proper ∧ m.Legible
  | confirmed? k => k.source.Plain
  | record k ms => k.Proper ∧ ∀ m ∈ ms, m.Of k
  | delete k => k.Proper
  | putRecord r => (Ledger.recordKey r.identity).utf8ByteSize ≤ Ledger.keyLimit ∧ r.computedAt.Valid
  | _ => True

/-! ### One operation -/

namespace Ledger.Mirrors

variable {l : Ledger} {s : Shelf} {k : SlotKey} {m : Mapping}

theorem confirm (h : l.Mirrors s) (hk : m.key.Proper) (hm : m.Legible) (mode : ConfirmMode) :
    ∃ l', l.confirm m mode = ((s.confirm m mode).1, l') ∧ l'.Mirrors (s.confirm m mode).2 := by
  rw [Ledger.confirm, Shelf.confirm]
  cases hc : (s.slot m.key).confirm m mode with
  | error e => exact ⟨l, h.update_error hk.plain hc, h⟩
  | ok cv =>
    obtain ⟨c, v⟩ := cv
    have hv : v.Of m.key := (h.slot_of m.key).confirms ⟨hm, rfl⟩ (Slot.confirm_eq_ok_iff.mp hc)
    exact h.update hk hc hv (s.sets_putSlot m.key v)

theorem record (h : l.Mirrors s) (hk : k.Proper) {ms : List Mapping} (hms : ∀ m ∈ ms, m.Of k) :
    ∃ l', l.record k ms = (.ok (s.record k ms).1, l') ∧ l'.Mirrors (s.record k ms).2 :=
  h.update hk rfl ((h.slot_of k).record hms) (s.sets_putSlot k _)

theorem delete (h : l.Mirrors s) (hk : k.Proper) :
    ∃ l', l.delete k = (.ok (s.delete k).1, l') ∧ l'.Mirrors (s.delete k).2 := by
  obtain ⟨hfound, hsets⟩ := s.delete_spec k
  rw [hfound]
  exact h.update hk rfl (h.slot_of k).delete hsets

theorem upsert (h : l.Mirrors s) (hk : m.key.Proper) (hm : m.Legible) :
    ∃ l', l.upsert m = .ok ((s.upsert m).1, l') ∧ l'.Mirrors (s.upsert m).2 := by
  have hv : ((s.slot m.key).overwrite m).2.Of m.key :=
    (h.slot_of m.key).confirms ⟨hm, rfl⟩ ((s.slot m.key).confirms_overwrite m)
  obtain ⟨l', hl', hmirrors⟩ := h.putSlot hk hv (s.sets_putSlot m.key _)
  refine ⟨l', ?_, hmirrors⟩
  simp only [Ledger.upsert, h.slot_eq hk.plain, bind, Except.bind, hl', pure, Except.pure,
    Shelf.upsert]

theorem upsertAll (h : l.Mirrors s) {ms : List Mapping}
    (hms : ∀ m ∈ ms, m.key.Proper ∧ m.Legible) :
    ∃ l', l.upsertAll ms = (.ok (s.upsertAll ms).1, l') ∧ l'.Mirrors (s.upsertAll ms).2 := by
  rw [Ledger.upsertAll, Shelf.upsertAll]
  generalize BatchCount.zero = c
  induction ms generalizing c l s with
  | nil => exact ⟨l, rfl, h⟩
  | cons m ms ih =>
    obtain ⟨hk, hm⟩ := hms m (List.mem_cons_self ..)
    obtain ⟨l', hl', hmirrors⟩ := h.upsert hk hm
    obtain ⟨l'', hl'', hmirrors'⟩ :=
      ih hmirrors (fun n hn => hms n (List.mem_cons_of_mem m hn)) (c.add (s.upsert m).1)
    refine ⟨l'', ?_, hmirrors'⟩
    rw [List.foldlM_cons, hl']
    split at hl''
    · next heq =>
      simp only [bind, Except.bind, pure, Except.pure] at heq ⊢
      rw [heq]
      exact hl''
    · cases hl''

/-- A shelf and its mirror answer every operation alike, and stay a shelf and its mirror. -/
theorem perform (h : l.Mirrors s) {op : Operation} (hop : op.Proper) :
    ∃ a s' l', (Store.memory s).perform op = (a, .memory s') ∧
      (Store.ledger l).perform op = (a, .ledger l') ∧ l'.Mirrors s' := by
  cases op with
  | confirm m mode =>
    obtain ⟨l', hl', hmirrors⟩ := h.confirm hop.1 hop.2 mode
    refine ⟨.confirmation (s.confirm m mode).1, _, l', rfl, ?_, hmirrors⟩
    rw [Store.perform, Store.confirm, hl']
    rfl
  | upsertAll ms =>
    obtain ⟨l', hl', hmirrors⟩ := h.upsertAll hop
    refine ⟨.count (.ok (s.upsertAll ms).1), _, l', rfl, ?_, hmirrors⟩
    rw [Store.perform, Store.upsertAll, hl']
    rfl
  | confirmed? k =>
    refine ⟨.mapping (.ok (s.confirmed? k)), s, l, rfl, ?_, h⟩
    rw [Store.perform, Store.confirmed?, Ledger.confirmed?, h.slot_eq hop]
    rfl
  | confirmed g =>
    refine ⟨.mappings (.ok (s.confirmed g)), s, l, rfl, ?_, h⟩
    rw [Store.perform, Store.confirmed, h.confirmed_eq]
  | record k ms =>
    obtain ⟨l', hl', hmirrors⟩ := h.record hop.1 hop.2
    refine ⟨.told (.ok (s.record k ms).1), _, l', rfl, ?_, hmirrors⟩
    rw [Store.perform, Store.record, hl']
    rfl
  | candidates g =>
    refine ⟨.mappings (.ok (s.candidates g)), s, l, rfl, ?_, h⟩
    rw [Store.perform, Store.candidates, h.candidates_eq]
  | delete k =>
    obtain ⟨l', hl', hmirrors⟩ := h.delete hop
    refine ⟨.told (.ok (s.delete k).1), _, l', rfl, ?_, hmirrors⟩
    rw [Store.perform, Store.delete, hl']
    rfl
  | record? p =>
    refine ⟨.record (.ok (s.record? p)), s, l, rfl, ?_, h⟩
    rw [Store.perform, Store.record?, h.record?_eq]
  | putRecord r =>
    obtain ⟨l', hl', hmirrors⟩ := h.putRecord hop.1 hop.2
    refine ⟨.done (.ok ()), _, l', rfl, ?_, hmirrors⟩
    rw [Store.perform, Store.putRecord, hl']
    rfl
  | recordsOf a =>
    refine ⟨.records (.ok (s.recordsOf a.name)), s, l, rfl, ?_, h⟩
    rw [Store.perform, Store.recordsOf, h.recordsOf_eq]
  | hashesOf a =>
    refine ⟨.hashes (.ok (s.hashesOf a.name)), s, l, rfl, ?_, h⟩
    rw [Store.perform, Store.hashesOf, h.hashesOf_eq]
  | deleteRecord p =>
    obtain ⟨hfound, hmirrors⟩ := h.deleteRecord p
    refine ⟨.told (.ok (s.deleteRecord p).1), _, _, rfl, ?_, hmirrors⟩
    rw [← hfound]
    rfl

/-! ### Runs -/

theorem answers_eq (h : l.Mirrors s) {ops : List Operation} (hops : ∀ op ∈ ops, op.Proper) :
    (Store.memory s).answers ops = (Store.ledger l).answers ops := by
  induction ops generalizing l s with
  | nil => rfl
  | cons op ops ih =>
    obtain ⟨a, s', l', hs', hl', hmirrors⟩ := h.perform (hops op (List.mem_cons_self ..))
    rw [Store.answers, Store.answers, hs', hl',
      ih hmirrors fun op' hop' => hops op' (List.mem_cons_of_mem op hop')]

theorem after (h : l.Mirrors s) {ops : List Operation} (hops : ∀ op ∈ ops, op.Proper) :
    ∃ s' l', (Store.memory s).after ops = .memory s' ∧ (Store.ledger l).after ops = .ledger l' ∧
      l'.Mirrors s' := by
  induction ops generalizing l s with
  | nil => exact ⟨s, l, rfl, rfl, h⟩
  | cons op ops ih =>
    obtain ⟨a, s', l', hs', hl', hmirrors⟩ := h.perform (hops op (List.mem_cons_self ..))
    rw [Store.after, Store.after, hs', hl']
    exact ih hmirrors fun op' hop' => hops op' (List.mem_cons_of_mem op hop')

/-- In a shelf and in its mirror every procedure can be looked up and has a record of its own. -/
theorem sound (h : l.Mirrors s) : (Store.memory s).Sound ∧ (Store.ledger l).Sound := by
  constructor
  · refine ⟨fun p => ⟨_, rfl⟩, fun hr => ?_⟩
    exact (h.record_of (Except.ok.inj hr)).1
  · refine ⟨fun p => ⟨_, h.record?_eq p⟩, fun {p r} hr => ?_⟩
    rw [Store.record?, h.record?_eq p] at hr
    exact (h.record_of (Except.ok.inj hr)).1

end Ledger.Mirrors

/-- A store that started empty is sound, whatever was asked of it. -/
theorem Store.sound_after (b : Backend) {ops : List Operation} (hops : ∀ op ∈ ops, op.Proper) :
    ((Store.empty b).after ops).Sound := by
  obtain ⟨s', l', hs', hl', hmirrors⟩ := Ledger.mirrors_empty.after hops
  cases b with
  | memory =>
    rw [Store.empty, hs']
    exact hmirrors.sound.1
  | ledger =>
    rw [Store.empty, hl']
    exact hmirrors.sound.2

/-- **The two stores agree**: from the start on, a store in memory and a store in a ledger answer
every operation alike, whatever was asked before. -/
theorem Store.answers_agree {ops : List Operation} (hops : ∀ op ∈ ops, op.Proper) :
    (Store.empty .memory).answers ops = (Store.empty .ledger).answers ops :=
  Ledger.mirrors_empty.answers_eq hops

/-! ### Samples -/

/-- A table of the samples. -/
def sampleTable (name : String) : Table :=
  ⟨sampleAlias, "", "s", name⟩

/-- A mapping between two tables of the samples. -/
def sampleMapping (source target : String) : Mapping where
  identifier := ⟨0⟩
  hop := .sourceToStage
  source := sampleTable source
  target := sampleTable target
  confidence := .finite false 0
  provenance := .manual
  state := .confirmed
  createdAt := ⟨0, 0⟩
  notes := none

theorem legible_sampleMapping (source target : String) :
    (sampleMapping source target).Legible := by
  have hconfidence : Json.decode Json.readSingle (Json.compact (Json.single (.finite false 0))) =
      .ok (.finite false 0) := by
    decide +kernel
  exact ⟨Nat.two_pow_pos 128, hconfidence, Instant.valid_zero⟩

theorem plain_sampleTable {name : String} (h : Plain name) : (sampleTable name).Plain where
  database := (by unfold Plain; decide : Plain "")
  schema := (by unfold Plain; decide : Plain "s")
  name := h

/-- A conflict, candidates for another table, listings, and a mapping that is deleted twice. -/
def sampleOperations : List Operation :=
  [.confirm (sampleMapping "a" "b") .ifAbsent, .confirm (sampleMapping "a" "c") .ifAbsent,
    .record (sampleMapping "d" "b").key [sampleMapping "d" "b"], .confirmed .sourceToStage,
    .candidates .sourceToStage, .delete (sampleMapping "a" "b").key,
    .delete (sampleMapping "a" "b").key]

theorem Store.answers_agree_samples :
    (Store.empty .memory).answers sampleOperations =
      (Store.empty .ledger).answers sampleOperations := by
  have ha : (sampleMapping "a" "b").key.Proper :=
    ⟨plain_sampleTable (by unfold Plain; decide), by decide⟩
  have hd : (sampleMapping "d" "b").key.Proper :=
    ⟨plain_sampleTable (by unfold Plain; decide), by decide⟩
  refine Store.answers_agree fun op hop => ?_
  simp only [sampleOperations, List.mem_cons, List.not_mem_nil, or_false] at hop
  rcases hop with rfl | rfl | rfl | rfl | rfl | rfl | rfl
  · exact ⟨ha, legible_sampleMapping "a" "b"⟩
  · exact ⟨ha, legible_sampleMapping "a" "c"⟩
  · refine ⟨hd, fun m hm => ?_⟩
    rw [List.mem_singleton.mp hm]
    exact ⟨legible_sampleMapping "d" "b", rfl⟩
  · trivial
  · trivial
  · exact ha
  · exact ha

end TierLineage
