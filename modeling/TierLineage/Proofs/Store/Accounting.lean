import Mathlib.Algebra.Order.Ring.Nat
import TierLineage.Proofs.Store.Lawful

/-!
# Every decision is accounted for

The answers of a store say how many mappings came to be confirmed and how many ceased to be.  Each
change of a slot moves the number of keys with a decision by what its answer says, so over every run
the listings have as many mappings as were gained and not lost.  Of several decisions on one table
that may not replace anything the first one stands: the others are the same decision or conflicts.
-/

namespace TierLineage

/-! ### Keys with a decision -/

namespace Shelf

variable {s s' : Shelf} {k : SlotKey} {v : Slot}

/-- The keys under which a mapping is confirmed. -/
def decided (s : Shelf) : List SlotKey :=
  (s.slots.toList.filter fun e => e.2.confirmed.isSome).map Prod.fst

theorem mem_decided : k ∈ s.decided ↔ (s.slot k).confirmed.isSome = true := by
  rw [decided, List.mem_map]
  constructor
  · rintro ⟨⟨j, v⟩, he, rfl⟩
    obtain ⟨hmem, hsome⟩ := List.mem_filter.mp he
    rwa [slot_of_getElem? (Std.TreeMap.mem_toList_iff_getElem?_eq_some.mp hmem)]
  · intro hsome
    have hne : s.slot k ≠ Slot.empty := fun h => by rw [h] at hsome; cases hsome
    have hmem := Std.TreeMap.mem_toList_iff_getElem?_eq_some.mpr (getElem?_of_slot_ne hne)
    exact ⟨(k, s.slot k), List.mem_filter.mpr ⟨hmem, hsome⟩, rfl⟩

theorem decided_nodup (s : Shelf) : s.decided.Nodup := by
  refine List.pairwise_map.mpr ((s.slots.ordered_keys_toList.filter _).imp fun {d e} hlt heq => ?_)
  rw [heq] at hlt
  exact Std.OrientedCmp.not_lt_of_lt hlt hlt

theorem length_decided_erase (s : Shelf) (k : SlotKey) :
    s.decided.length = (s.decided.erase k).length + (s.slot k).confirmed.isSome.toNat := by
  by_cases hk : k ∈ s.decided
  · rw [mem_decided.mp hk, (List.perm_cons_erase hk).length_eq]
    rfl
  · rw [Bool.eq_false_iff.mpr fun hsome => hk (mem_decided.mpr hsome), List.erase_of_not_mem hk]
    rfl

/-- A change of one slot moves the number of decisions by what it does in the slot. -/
theorem Sets.length_decided (hs : s.Sets k v s') :
    s'.decided.length + (s.slot k).confirmed.isSome.toNat =
      s.decided.length + v.confirmed.isSome.toNat := by
  have hslot : s'.slot k = v := by rw [hs.slot_eq, if_pos rfl]
  -- under the other keys nothing has changed
  have hrest : (s'.decided.erase k).Perm (s.decided.erase k) := by
    refine (List.perm_ext_iff_of_nodup (s'.decided_nodup.erase k) (s.decided_nodup.erase k)).mpr ?_
    intro j
    rw [s'.decided_nodup.mem_erase_iff, s.decided_nodup.mem_erase_iff, mem_decided, mem_decided]
    refine and_congr_right fun hj => ?_
    rw [hs.slot_eq, if_neg hj]
  have hbefore := s.length_decided_erase k
  have hafter := s'.length_decided_erase k
  rw [hslot, hrest.length_eq] at hafter
  omega

theorem length_confirmed (s : Shelf) (hop : Hop) :
    (s.confirmed hop).length = s.decided.countP fun k => k.hop == hop := by
  rw [confirmed, slotsOf, decided, List.length_filterMap_eq_countP, List.countP_map, List.countP_map,
    List.countP_filter, List.countP_filter]
  congr 1
  funext e
  exact Bool.and_comm _ _

/-- The listings of both hops have one mapping for each key with a decision. -/
theorem length_confirmed_add (s : Shelf) :
    (s.confirmed .sourceToStage).length + (s.confirmed .stageToBronze).length = s.decided.length := by
  rw [length_confirmed, length_confirmed,
    List.length_eq_countP_add_countP fun k : SlotKey => k.hop == .sourceToStage]
  congr 2
  funext k
  cases k.hop <;> rfl

end Shelf

/-! ### What answers say -/

/-- How many mappings came to be confirmed. -/
def Confirmation.gained : Confirmation → Nat
  | created _ => 1
  | _ => 0

/-- How many mappings came to be confirmed: one that was created, or those that a batch inserted. -/
def Answer.gained : Answer → Nat
  | confirmation (.ok c) => c.gained
  | count (.ok n) => n.inserted
  | _ => 0

/-- How many mappings ceased to be confirmed: one that was deleted. -/
def Operation.lost : Operation → Answer → Nat
  | delete _, .told (.ok true) => 1
  | _, _ => 0

theorem Operation.lost_delete (k : SlotKey) (b : Bool) :
    (delete k).lost (.told (.ok b)) = b.toNat := by
  cases b <;> rfl

theorem BatchCount.inserted_add (n : BatchCount) (c : Confirmation) :
    (n.add c).inserted = n.inserted + c.gained := by
  cases c <;> rfl

/-- A slot has a decision afterwards if it had one before or gained one. -/
theorem Slot.Confirms.gained {v w : Slot} {m : Mapping} {mode : ConfirmMode} {c : Confirmation}
    (h : v.Confirms m mode c w) :
    w.confirmed.isSome.toNat = v.confirmed.isSome.toNat + c.gained := by
  cases h with
  | created h => rw [h]; rfl
  | replaced h _ => rw [h]; rfl
  | unchanged h _ _ => rfl

theorem Slot.confirmed_record (v : Slot) (ms : List Mapping) :
    (v.record ms).2.confirmed = v.confirmed := by
  rw [record]
  split <;> rfl

namespace Shelf

variable {s : Shelf}

theorem length_decided_confirm (s : Shelf) (m : Mapping) (mode : ConfirmMode) :
    (s.confirm m mode).2.decided.length =
      s.decided.length + (Answer.confirmation (s.confirm m mode).1).gained := by
  rcases s.confirm_cases m mode with ⟨e, heq⟩ | ⟨c, v, hc, heq⟩
  · rw [heq]
    rfl
  · have hchange := (s.sets_putSlot m.key v).length_decided
    have hgained := hc.gained
    rw [heq]
    simp only [Answer.gained]
    omega

theorem length_decided_upsertAll (s : Shelf) (ms : List Mapping) :
    (s.upsertAll ms).2.decided.length = s.decided.length + (s.upsertAll ms).1.inserted := by
  -- the count goes on from any count of what came before
  have hcount : ∀ n : BatchCount,
      let r := ms.foldl (fun (p : BatchCount × Shelf) m =>
        (p.1.add (p.2.upsert m).1, (p.2.upsert m).2)) (n, s)
      r.2.decided.length + n.inserted = s.decided.length + r.1.inserted := by
    induction ms generalizing s with
    | nil => exact fun n => rfl
    | cons m ms ih =>
      intro n
      obtain ⟨c, v, hc, heq⟩ := s.upsert_cases m
      have hchange := (s.sets_putSlot m.key v).length_decided
      have hgained := hc.gained
      have hrest := ih (s.putSlot m.key v) (n.add c)
      rw [BatchCount.inserted_add] at hrest
      simp only [List.foldl_cons, heq] at hrest ⊢
      omega
  exact hcount .zero

/-- Every operation moves the number of decisions by what its answer says. -/
theorem length_decided_perform (s : Shelf) (op : Operation) :
    ∃ a s', (Store.memory s).perform op = (a, .memory s') ∧
      s'.decided.length + op.lost a = s.decided.length + a.gained := by
  cases op with
  | confirm m mode =>
    refine ⟨.confirmation (s.confirm m mode).1, _, rfl, s.length_decided_confirm m mode⟩
  | upsertAll ms => exact ⟨.count (.ok (s.upsertAll ms).1), _, rfl, s.length_decided_upsertAll ms⟩
  | record k ms =>
    refine ⟨.told (.ok (s.record k ms).1), _, rfl, ?_⟩
    have hchange := (s.sets_putSlot k ((s.slot k).record ms).2).length_decided
    rw [Slot.confirmed_record] at hchange
    exact Nat.add_right_cancel hchange
  | delete k =>
    obtain ⟨hfound, hsets⟩ := s.delete_spec k
    refine ⟨.told (.ok (s.delete k).1), _, rfl, ?_⟩
    rw [Operation.lost_delete, hfound]
    exact hsets.length_decided
  | confirmed? k => exact ⟨_, s, rfl, rfl⟩
  | confirmed hop => exact ⟨_, s, rfl, rfl⟩
  | candidates hop => exact ⟨_, s, rfl, rfl⟩
  | record? p => exact ⟨_, s, rfl, rfl⟩
  | putRecord r => exact ⟨_, _, rfl, rfl⟩
  | recordsOf a => exact ⟨_, s, rfl, rfl⟩
  | hashesOf a => exact ⟨_, s, rfl, rfl⟩
  | deleteRecord p => exact ⟨_, _, rfl, rfl⟩

end Shelf

/-! ### Runs -/

namespace Store

/-- How many mappings came to be confirmed in a run, as the answers say. -/
def gains (s : Store) (ops : List Operation) : Nat :=
  ((s.answers ops).map Answer.gained).sum

/-- How many mappings ceased to be confirmed in a run, as the answers say. -/
def losses (s : Store) (ops : List Operation) : Nat :=
  (List.zipWith Operation.lost ops (s.answers ops)).sum

theorem gains_cons (s : Store) (op : Operation) (ops : List Operation) :
    s.gains (op :: ops) = (s.perform op).1.gained + (s.perform op).2.gains ops := by
  rw [gains, answers, List.map_cons, List.sum_cons, gains]

theorem losses_cons (s : Store) (op : Operation) (ops : List Operation) :
    s.losses (op :: ops) = op.lost (s.perform op).1 + (s.perform op).2.losses ops := by
  rw [losses, answers, List.zipWith_cons_cons, List.sum_cons, losses]

/-- Over a run the number of decisions moves by what was gained and lost. -/
theorem length_decided_after (h : Shelf) (ops : List Operation) :
    ∃ h', (memory h).after ops = .memory h' ∧
      h'.decided.length + (memory h).losses ops = h.decided.length + (memory h).gains ops := by
  induction ops generalizing h with
  | nil => exact ⟨h, rfl, rfl⟩
  | cons op ops ih =>
    obtain ⟨a, h₁, hperform, hstep⟩ := h.length_decided_perform op
    obtain ⟨h₂, hafter, hrun⟩ := ih h₁
    refine ⟨h₂, by rw [after, hperform, hafter], ?_⟩
    rw [gains_cons, losses_cons, hperform]
    dsimp only
    omega

/-- What was gained and not lost is what is listed. -/
theorem gains_eq (b : Backend) {ops : List Operation}
    (hledger : b = .ledger → ∀ op ∈ ops, op.Proper) :
    ∃ ms ns, ((empty b).after ops).confirmed .sourceToStage = .ok ms ∧
      ((empty b).after ops).confirmed .stageToBronze = .ok ns ∧
        (empty b).gains ops = (empty b).losses ops + (ms.length + ns.length) := by
  obtain ⟨h, hh, hshows⟩ := shows_after b hledger
  obtain ⟨h', hh', hrun⟩ := length_decided_after .empty ops
  obtain rfl : h = h' := by
    rw [hh] at hh'
    cases hh'
    rfl
  -- a ledger answers as memory does, so what is counted on the shelf counts for both
  have hanswers : (empty b).answers ops = (memory .empty).answers ops := by
    cases b with
    | memory => rfl
    | ledger => exact (Ledger.mirrors_empty.answers_eq (hledger rfl)).symm
  refine ⟨_, _, hshows.confirmed_eq _, hshows.confirmed_eq _, ?_⟩
  rw [h.length_confirmed_add, gains, losses, hanswers, ← gains, ← losses]
  have hnone : Shelf.empty.decided.length = 0 := rfl
  omega

/-! ### The first decision stands -/

variable {s s' : Store} {m n : Mapping} {mode : ConfirmMode} {v w : Slot} {k : SlotKey}

/-- Whether a slot can be written to a store and be read back. -/
def Keeps (s : Store) (k : SlotKey) (v : Slot) : Prop :=
  s.backend = .ledger → (Ledger.slotKey k).utf8ByteSize ≤ Ledger.keyLimit ∧ v.Legible

theorem confirm_of_error {e : Failure} (hv : s.slot m.key = .ok v)
    (he : v.confirm m mode = .error e) : s.confirm m mode = (.error e, s) := by
  cases s with
  | memory h =>
    cases hv
    rw [confirm, Shelf.confirm, he]
    rfl
  | ledger l =>
    rw [confirm, Ledger.confirm, Ledger.update_of_error hv he]
    rfl

/-- Confirming changes the slot of a mapping, and the slot is found as it was changed. -/
theorem confirm_of_ok {c : Confirmation} (hv : s.slot m.key = .ok v)
    (hc : v.confirm m mode = .ok (c, w)) (hw : s.Keeps m.key w) :
    ∃ s', s.confirm m mode = (.ok c, s') ∧ s'.backend = s.backend ∧ s'.slot m.key = .ok w := by
  cases s with
  | memory h =>
    cases hv
    refine ⟨memory (h.putSlot m.key w), ?_, rfl, ?_⟩
    · rw [confirm, Shelf.confirm, hc]
      rfl
    · rw [slot, h.slot_putSlot, if_pos rfl]
  | ledger l =>
    obtain ⟨hfits, hlegible⟩ := hw rfl
    obtain ⟨l', hl'⟩ := l.putSlot_of_fits hfits w
    refine ⟨ledger l', ?_, rfl, ?_⟩
    · rw [confirm, Ledger.confirm, Ledger.update_of_ok hv hc hl']
      rfl
    · refine Ledger.slot_of_text? ?_ hlegible
      rw [Ledger.entries_putSlot hl', if_pos rfl]

/-- What is answered to a decision that may not replace the one that stands. -/
def verdict (p n : Mapping) : Outcome Confirmation :=
  if p.target = n.target then .ok (.unchanged p) else .error (Slot.conflictWith p)

/-- A decision that stands is not touched by one that may not replace it. -/
theorem confirm_holding {p : Mapping} (hv : s.slot n.key = .ok (Slot.holding p))
    (hkeeps : s.Keeps n.key (Slot.holding p)) :
    ∃ s', s.confirm n .ifAbsent = (verdict p n, s') ∧ s'.backend = s.backend ∧
      s'.slot n.key = .ok (Slot.holding p) := by
  rw [verdict]
  by_cases ht : p.target = n.target
  · rw [if_pos ht]
    refine confirm_of_ok hv (Slot.confirm_eq_ok_iff.mpr ?_) hkeeps
    exact .unchanged rfl rfl fun _ => ht
  · rw [if_neg ht]
    exact ⟨s, confirm_of_error hv (Slot.confirm_eq_error_iff.mpr ⟨rfl, p, rfl, ht, rfl⟩), rfl, hv⟩

/-- Confirm one mapping after the other without replacing anything. -/
def decisions (ms : List Mapping) : List Operation :=
  ms.map fun m => .confirm m .ifAbsent

/-- A decision stands in a run of those that may not replace it. -/
theorem answers_holding {p : Mapping} {ms : List Mapping} (hms : ∀ n ∈ ms, n.key = k)
    (hv : s.slot k = .ok (Slot.holding p)) (hkeeps : s.Keeps k (Slot.holding p)) :
    s.answers (decisions ms) = ms.map (fun n => .confirmation (verdict p n)) ∧
      (s.after (decisions ms)).slot k = .ok (Slot.holding p) := by
  induction ms generalizing s with
  | nil => exact ⟨rfl, hv⟩
  | cons n ms ih =>
    obtain rfl : n.key = k := hms n (List.mem_cons_self ..)
    obtain ⟨s', hs', hbackend, hv'⟩ := confirm_holding hv hkeeps
    have hkeeps' : s'.Keeps n.key (Slot.holding p) := fun hb => hkeeps (hbackend ▸ hb)
    obtain ⟨hanswers, hafter⟩ := ih (fun n hn => hms n (List.mem_cons_of_mem _ hn)) hv' hkeeps'
    have hperform : s.perform (.confirm n .ifAbsent) = (.confirmation (verdict p n), s') := by
      rw [perform, hs']
      rfl
    rw [decisions, List.map_cons, answers, after, hperform]
    exact ⟨congrArg (_ :: ·) hanswers, hafter⟩

/-- The first decision on a table stands: it is created, and the others are the same decision or
conflicts. -/
theorem answers_first {ms : List Mapping} (hnone : s.confirmed? m.key = .ok none)
    (hledger : s.backend = .ledger →
      (Ledger.slotKey m.key).utf8ByteSize ≤ Ledger.keyLimit ∧ m.Legible)
    (hms : ∀ n ∈ ms, n.key = m.key) :
    s.answers (decisions (m :: ms)) = .confirmation (.ok (.created (Slot.asConfirmed m))) ::
        ms.map (fun n => .confirmation (verdict (Slot.asConfirmed m) n)) ∧
      (s.after (decisions (m :: ms))).confirmed? m.key = .ok (some (Slot.asConfirmed m)) := by
  -- the slot may hold proposals, which the first decision ends
  obtain ⟨v, hv, hfree⟩ : ∃ v, s.slot m.key = .ok v ∧ v.confirmed = none := by
    rw [confirmed?_eq] at hnone
    cases hslot : s.slot m.key with
    | error e => rw [hslot] at hnone; cases hnone
    | ok v => rw [hslot] at hnone; exact ⟨v, rfl, Except.ok.inj hnone⟩
  have hkeeps : s.Keeps m.key (Slot.holding (Slot.asConfirmed m)) := by
    intro hb
    obtain ⟨hfits, hlegible⟩ := hledger hb
    exact ⟨hfits, (Slot.of_holding (k := m.key) ⟨hlegible.asConfirmed, rfl⟩).legible⟩
  obtain ⟨s', hs', hbackend, hv'⟩ := confirm_of_ok hv (Slot.confirm_of_none hfree) hkeeps
  -- from here on the slot holds the first decision, and the others meet it
  obtain ⟨hanswers, hafter⟩ := answers_holding hms hv' fun hb => hkeeps (hbackend ▸ hb)
  have hperform : s.perform (.confirm m .ifAbsent) =
      (.confirmation (.ok (.created (Slot.asConfirmed m))), s') := by
    rw [perform, hs']
    rfl
  have hrest : (s.after (decisions (m :: ms))).slot m.key =
      .ok (Slot.holding (Slot.asConfirmed m)) := by
    rw [decisions, List.map_cons, after, hperform]
    exact hafter
  refine ⟨?_, by rw [confirmed?_eq, hrest]; rfl⟩
  rw [decisions, List.map_cons, answers, hperform]
  exact congrArg (_ :: ·) hanswers

/-- **Every decision is accounted for**.  Whatever was asked of a store that started empty, the
mappings that were created or inserted, less those that were deleted, are the mappings that it lists
for both hops.  And of decisions on one table with nothing confirmed that may not replace anything,
in whatever order they come, the first one is created and stands: those to its target find it
unchanged, and the others are conflicts. -/
theorem decisions_accounted :
    (∀ (b : Backend) {ops : List Operation}, (b = .ledger → ∀ op ∈ ops, op.Proper) →
      ∃ ms ns, ((empty b).after ops).confirmed .sourceToStage = .ok ms ∧
        ((empty b).after ops).confirmed .stageToBronze = .ok ns ∧
          (empty b).gains ops = (empty b).losses ops + (ms.length + ns.length)) ∧
    ∀ {s : Store} {m : Mapping} {ms : List Mapping}, s.confirmed? m.key = .ok none →
      (s.backend = .ledger →
        (Ledger.slotKey m.key).utf8ByteSize ≤ Ledger.keyLimit ∧ m.Legible) →
      (∀ n ∈ ms, n.key = m.key) →
      s.answers (decisions (m :: ms)) = .confirmation (.ok (.created (Slot.asConfirmed m))) ::
          ms.map (fun n => .confirmation (verdict (Slot.asConfirmed m) n)) ∧
        (s.after (decisions (m :: ms))).confirmed? m.key = .ok (some (Slot.asConfirmed m)) :=
  ⟨fun b _ hledger => gains_eq b hledger,
    fun hnone hledger hms => answers_first hnone hledger hms⟩

theorem decisions_accounted_samples :
    (∃ ms ns, ((empty .ledger).after sampleHistory).confirmed .sourceToStage = .ok ms ∧
      ((empty .ledger).after sampleHistory).confirmed .stageToBronze = .ok ns ∧
        (empty .ledger).gains sampleHistory =
          (empty .ledger).losses sampleHistory + (ms.length + ns.length)) ∧
    (empty .ledger).answers (decisions [sampleMapping "a" "b", sampleMapping "a" "c",
        sampleMapping "a" "b"]) =
      [.confirmation (.ok (.created (sampleMapping "a" "b"))),
        .confirmation (.error (Slot.conflictWith (sampleMapping "a" "b"))),
        .confirmation (.ok (.unchanged (sampleMapping "a" "b")))] := by
  have hkey : (sampleMapping "a" "b").key.Proper := proper_sampleMapping (by unfold Plain; decide)
    (by decide)
  refine ⟨decisions_accounted.1 .ledger fun _ => proper_sampleHistory, ?_⟩
  refine (decisions_accounted.2 rfl (fun _ => ⟨hkey.fits, legible_sampleMapping "a" "b"⟩) ?_).1
  simp [sampleMapping, Mapping.key]

end Store

end TierLineage
