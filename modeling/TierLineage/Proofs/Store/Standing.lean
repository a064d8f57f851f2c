import TierLineage.Proofs.Store.Accounting
import TierLineage.Proofs.Store.Following

/-!
# Decisions that stand

An operation decides on a key if it confirms a mapping there whatever is confirmed, or deletes one.
Where nobody decides, the confirmed mapping stands: it keeps its target and its identity, and what a
person decided stays as it is.  Under keys that an operation does not touch nothing changes at all.
-/

namespace TierLineage

/-! ### Keys of operations -/

namespace Operation

/-- Whether an operation may put another mapping in place of one that is confirmed under a key, or
delete it. -/
def Decides : Operation → SlotKey → Prop
  | confirm m .overwrite, k => m.key = k
  | upsertAll ms, k => ∃ m ∈ ms, m.key = k
  | delete j, k => j = k
  | _, _ => False

/-- Whether an operation may change the slot of a key. -/
def Touches : Operation → SlotKey → Prop
  | confirm m _, k => m.key = k
  | upsertAll ms, k => ∃ m ∈ ms, m.key = k
  | record j _, k => j = k
  | delete j, k => j = k
  | _, _ => False

end Operation

/-! ### Slots -/

/-- Whether a mapping has the target and the identity of one before it, and is the same one if a
person decided on it. -/
structure Mapping.Stands (p q : Mapping) : Prop where
  target_eq : q.target = p.target
  identifier_eq : q.identifier = p.identifier
  eq_of_userOwned : p.provenance.userOwned = true → q = p

theorem Mapping.stands_refl (p : Mapping) : p.Stands p := ⟨rfl, rfl, fun _ => rfl⟩

theorem Mapping.Stands.trans {p q r : Mapping} (h : p.Stands q) (h' : q.Stands r) : p.Stands r where
  target_eq := h'.target_eq.trans h.target_eq
  identifier_eq := h'.identifier_eq.trans h.identifier_eq
  eq_of_userOwned hp := by
    obtain rfl := h.eq_of_userOwned hp
    exact h'.eq_of_userOwned hp

namespace Slot

variable {v w : Slot} {m p : Mapping} {mode : ConfirmMode} {c : Confirmation}

/-- Refreshing concerns automatic mappings to one target only. -/
theorem refreshes_spec (h : refreshes p m = true) : p.provenance = .auto ∧ p.target = m.target := by
  simp only [refreshes, Bool.and_eq_true, beq_iff_eq] at h
  exact ⟨h.1.1.1, h.1.2⟩

/-- A confirmed mapping stands unless it is overwritten. -/
theorem Confirms.stands (h : v.Confirms m mode c w) (hmode : mode ≠ .overwrite)
    (hp : v.confirmed = some p) : ∃ q, w.confirmed = some q ∧ p.Stands q := by
  cases h with
  | created hnone => rw [hnone] at hp; cases hp
  | @replaced p' hp' hreplaces =>
    obtain rfl : p' = p := Option.some.inj (hp'.symm.trans hp)
    -- of the other two modes only the one that refreshes replaces anything
    cases mode with
    | ifAbsent => cases hreplaces
    | overwrite => exact absurd rfl hmode
    | refreshAuto =>
      obtain ⟨hauto, htarget⟩ := refreshes_spec hreplaces
      refine ⟨_, rfl, (successor_target _ _).trans htarget.symm, ?_, fun howned => ?_⟩
      · rw [successor_identifier, if_pos htarget.symm]
      · rw [hauto] at howned
        cases howned
  | unchanged _ _ _ => exact ⟨p, hp, p.stands_refl⟩

end Slot

/-! ### Shelves -/

namespace Shelf

variable {h h' : Shelf} {op : Operation} {k : SlotKey} {a : Answer} {p : Mapping}

/-- Confirming a batch leaves the slots of keys that none of its mappings has. -/
theorem slot_upsertAll {ms : List Mapping} (hms : ∀ m ∈ ms, m.key ≠ k) :
    (h.upsertAll ms).2.slot k = h.slot k := by
  rw [Shelf.upsertAll]
  generalize BatchCount.zero = n
  induction ms generalizing n h with
  | nil => rfl
  | cons m ms ih =>
    have hrest := ih (h := (h.upsert m).2) (fun m' hm' => hms m' (List.mem_cons_of_mem m hm'))
      (n.add (h.upsert m).1)
    obtain ⟨c, v, -, heq⟩ := h.upsert_cases m
    refine hrest.trans ?_
    rw [heq, h.slot_putSlot, if_neg fun hk => hms m (List.mem_cons_self ..) hk.symm]

/-- An operation leaves the slots that it does not touch. -/
theorem slot_of_not_touches (hperform : (Store.memory h).perform op = (a, .memory h'))
    (hop : ¬ op.Touches k) : h'.slot k = h.slot k := by
  cases op with
  | confirm m mode =>
    obtain rfl : (h.confirm m mode).2 = h' := Store.memory.inj (congrArg Prod.snd hperform)
    rcases h.confirm_cases m mode with ⟨e, heq⟩ | ⟨c, v, -, heq⟩
    · rw [heq]
    · rw [heq, h.slot_putSlot, if_neg fun hk => hop hk.symm]
  | upsertAll ms =>
    cases hperform
    exact slot_upsertAll fun m hm hk => hop ⟨m, hm, hk⟩
  | record j ms =>
    cases hperform
    exact (h.slot_putSlot j k _).trans (if_neg fun hk => hop hk.symm)
  | delete j =>
    obtain rfl : (h.delete j).2 = h' := Store.memory.inj (congrArg Prod.snd hperform)
    rw [(h.delete_spec j).2.slot_eq, if_neg fun hk => hop hk.symm]
  | confirmed? j => cases hperform; rfl
  | confirmed hop' => cases hperform; rfl
  | candidates hop' => cases hperform; rfl
  | record? q => cases hperform; rfl
  | putRecord r => cases hperform; rfl
  | recordsOf b => cases hperform; rfl
  | hashesOf b => cases hperform; rfl
  | deleteRecord q => cases hperform; rfl

/-- A confirmed mapping stands where an operation does not decide. -/
theorem stands_of_not_decides (hperform : (Store.memory h).perform op = (a, .memory h'))
    (hop : ¬ op.Decides k) (hp : (h.slot k).confirmed = some p) :
    ∃ q, (h'.slot k).confirmed = some q ∧ p.Stands q := by
  by_cases htouch : op.Touches k
  · -- what touches a key without deciding on it confirms without overwriting, or records
    cases op with
    | confirm m mode =>
      obtain rfl : (h.confirm m mode).2 = h' := Store.memory.inj (congrArg Prod.snd hperform)
      obtain rfl : m.key = k := htouch
      rcases h.confirm_cases m mode with ⟨e, heq⟩ | ⟨c, v, hc, heq⟩
      · rw [heq]
        exact ⟨p, hp, p.stands_refl⟩
      · rw [heq, h.slot_putSlot, if_pos rfl]
        exact hc.stands (fun hmode => hop (by rw [hmode]; rfl)) hp
    | record j ms =>
      cases hperform
      obtain rfl : j = k := htouch
      refine ⟨p, ?_, p.stands_refl⟩
      have hslot : (h.record j ms).2.slot j = ((h.slot j).record ms).2 :=
        (h.slot_putSlot j j _).trans (if_pos rfl)
      exact (congrArg Slot.confirmed hslot).trans ((Slot.confirmed_record _ ms).trans hp)
    | upsertAll ms => exact absurd htouch hop
    | delete j => exact absurd htouch hop
    | _ => exact htouch.elim
  · rw [slot_of_not_touches hperform htouch]
    exact ⟨p, hp, p.stands_refl⟩

end Shelf

/-! ### Stores -/

namespace Store

variable {s : Store} {h : Shelf} {ops : List Operation} {k : SlotKey} {p : Mapping}

/-- A run leaves the slots that none of its operations touches. -/
theorem Follows.slot_after (hs : s.Follows h) (htakes : ∀ op ∈ ops, s.Takes op)
    (hops : ∀ op ∈ ops, ¬ op.Touches k) : (s.after ops).slot k = s.slot k := by
  induction ops generalizing s h with
  | nil => rfl
  | cons op ops ih =>
    obtain ⟨a, h', s', hh', hs', hfollows, hbackend⟩ :=
      hs.perform (htakes op (List.mem_cons_self ..))
    rw [Store.after, hs', ih hfollows
      (fun op' hop' hb => htakes op' (List.mem_cons_of_mem op hop') (hbackend ▸ hb))
      (fun op' hop' => hops op' (List.mem_cons_of_mem op hop')),
      hfollows.shows.slot_eq, hs.shows.slot_eq,
      Shelf.slot_of_not_touches hh' (hops op (List.mem_cons_self ..))]

/-- A confirmed mapping stands over a run in which nothing decides on its key. -/
theorem Follows.stands_after (hs : s.Follows h) (htakes : ∀ op ∈ ops, s.Takes op)
    (hops : ∀ op ∈ ops, ¬ op.Decides k) (hp : s.confirmed? k = .ok (some p)) :
    ∃ q, (s.after ops).confirmed? k = .ok (some q) ∧ p.Stands q := by
  induction ops generalizing s h p with
  | nil => exact ⟨p, hp, p.stands_refl⟩
  | cons op ops ih =>
    obtain ⟨a, h', s', hh', hs', hfollows, hbackend⟩ :=
      hs.perform (htakes op (List.mem_cons_self ..))
    rw [hs.shows.confirmed?_eq] at hp
    obtain ⟨q, hq, hpq⟩ :=
      Shelf.stands_of_not_decides hh' (hops op (List.mem_cons_self ..)) (Except.ok.inj hp)
    obtain ⟨r, hr, hqr⟩ := ih hfollows
      (fun op' hop' hb => htakes op' (List.mem_cons_of_mem op hop') (hbackend ▸ hb))
      (fun op' hop' => hops op' (List.mem_cons_of_mem op hop'))
      ((hfollows.shows.confirmed?_eq k).trans (congrArg _ hq))
    rw [Store.after, hs']
    exact ⟨r, hr, hpq.trans hqr⟩

end Store

end TierLineage
