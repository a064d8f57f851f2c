import TierLineage.Proofs.Store.Removal
import TierLineage.Proofs.Store.Renaming

/-!
# Stores that are settled on a batch

A store is settled on a mapping if what is written in its slot is a decision with the content of the
mapping.  Confirming a mapping settles a store on it, whatever was known before, and the store stays
so until a mapping that shares the slot is confirmed.  In a store that is settled on all mappings of a
batch each of them is left alone, and what is written over the slots is what was there.  So one
confirmation of a batch is as good as two, unless two of its mappings share a slot: then the second
time one of them is news again.
-/

namespace TierLineage

/-! ### Slots -/

/-- Whether the decision of a slot has the content of a mapping. -/
def Slot.Settled (v : Slot) (m : Mapping) : Prop :=
  ∃ p, v.confirmed = some p ∧ p.sameContent (asConfirmed m) = true

namespace Mapping

variable {m p : Mapping}

/-- Mappings of one content are of one source table, one hop on. -/
theorem key_eq_of_sameContent (h : p.sameContent m = true) : p.key = m.key := by
  simp only [sameContent, Bool.and_eq_true, beq_iff_eq] at h
  obtain ⟨⟨⟨⟨⟨hhop, hsource⟩, -⟩, -⟩, -⟩, -⟩ := h
  rw [key, key, hhop, hsource]

theorem target_eq_of_sameContent (h : p.sameContent m = true) : p.target = m.target := by
  simp only [sameContent, Bool.and_eq_true, beq_iff_eq] at h
  exact h.1.1.1.2

end Mapping

namespace Slot

variable {v : Slot} {m n : Mapping}

/-- Whether a slot is settled on a mapping is not a matter of the marks of the mapping. -/
theorem Settled.congr (h : v.Settled m) (hmn : m.unmarked = n.unmarked) : v.Settled n := by
  obtain ⟨p, hp, hcontent⟩ := h
  have hconfirmed : (asConfirmed m).unmarked = (asConfirmed n).unmarked :=
    congrArg asConfirmed hmn
  refine ⟨p, hp, ?_⟩
  rwa [← Mapping.sameContent_unmarked, ← hconfirmed, Mapping.sameContent_unmarked]

/-- A slot that is settled on two mappings has them under one key. -/
theorem Settled.key_eq (hm : v.Settled m) (hn : v.Settled n) : m.key = n.key := by
  obtain ⟨p, hp, hpm⟩ := hm
  obtain ⟨q, hq, hqn⟩ := hn
  obtain rfl := Option.some.inj (hp.symm.trans hq)
  have hkey : p.key = (asConfirmed m).key := Mapping.key_eq_of_sameContent hpm
  exact hkey.symm.trans (Mapping.key_eq_of_sameContent hqn)

/-- Confirming settles a slot: a mapping has its own content, and what is left alone has it too. -/
theorem settled_overwrite (v : Slot) (hm : m.confidence.InUnit) : (v.overwrite m).2.Settled m := by
  obtain ⟨negative, units, hconfidence⟩ := hm.exists_finite
  have hown : ∀ q : Mapping, q.unmarked = (asConfirmed m).unmarked →
      q.sameContent (asConfirmed m) = true := fun q hq => by
    have hq' : q.confidence = m.confidence := (congrArg Mapping.confidence hq :)
    exact Mapping.sameContent_of_unmarked hq (hq'.trans hconfidence)
  have h := v.confirms_overwrite m
  generalize (v.overwrite m).1 = c, (v.overwrite m).2 = w at h
  cases h with
  | created _ => exact ⟨_, rfl, hown _ rfl⟩
  | replaced _ _ => exact ⟨_, rfl, hown _ (Mapping.successor_unmarked _ _)⟩
  | unchanged hp hkeeps _ =>
    rw [ConfirmMode.replaces, Bool.not_eq_false'] at hkeeps
    exact ⟨_, hp, hkeeps⟩

/-- A settled slot is left alone. -/
theorem Settled.overwrite_eq (h : v.Settled m) : ∃ p, v.overwrite m = (.unchanged p, v) := by
  obtain ⟨p, hp, hcontent⟩ := h
  have hkeeps : ConfirmMode.overwrite.replaces p (asConfirmed m) = false := by
    rw [ConfirmMode.replaces, hcontent, Bool.not_true]
  have hconfirm := confirm_eq_ok_iff.mpr (.unchanged hp hkeeps fun hmode => by cases hmode)
  exact ⟨p, Except.ok.inj ((v.confirm_overwrite m).symm.trans hconfirm)⟩

/-- A slot that is left alone is settled. -/
theorem settled_of_isUnchanged (h : (v.overwrite m).1.isUnchanged = true) :
    v.Settled m ∧ (v.overwrite m).2 = v := by
  have hconfirms := v.confirms_overwrite m
  generalize (v.overwrite m).1 = c, (v.overwrite m).2 = w at h hconfirms
  cases hconfirms with
  | created _ => cases h
  | replaced _ _ => cases h
  | unchanged hp hkeeps _ =>
    rw [ConfirmMode.replaces, Bool.not_eq_false'] at hkeeps
    exact ⟨⟨_, hp, hkeeps⟩, rfl⟩

end Slot

/-! ### Entries -/

/-- Maps with the same entries list them alike. -/
theorem toList_congr {α β : Type} [Ord α] [Std.TransOrd α] [Std.LawfulEqOrd α]
    {m m' : Std.TreeMap α β} (h : ∀ k : α, m[k]? = m'[k]?) : m.toList = m'.toList := by
  refine eq_of_sorted m.ordered_keys_toList m'.ordered_keys_toList fun e => ?_
  rw [Std.TreeMap.mem_toList_iff_getElem?_eq_some, Std.TreeMap.mem_toList_iff_getElem?_eq_some, h]

namespace Store

/-- Whether a slot is written under a key. -/
def Written (s : Store) (k : SlotKey) (v : Slot) : Prop :=
  match s with
  | memory h => h.slots[k]? = some v
  | ledger l => l.entries[Ledger.slotKey k]? = v.text?

/-- Whether two stores of one kind have the same written under a key. -/
inductive AgreesAt (k : SlotKey) : Store → Store → Prop
  | memory {h h' : Shelf} (hslot : h.slots[k]? = h'.slots[k]?) :
    AgreesAt k (memory h) (memory h')
  | ledger {l l' : Ledger}
    (hentry : l.entries[Ledger.slotKey k]? = l'.entries[Ledger.slotKey k]?) :
    AgreesAt k (ledger l) (ledger l')

/-- Whether two stores of one kind hold the same: shelves the same slots, ledgers the same texts. -/
inductive Matches : Store → Store → Prop
  | memory {h h' : Shelf} (hslots : ∀ k : SlotKey, h.slots[k]? = h'.slots[k]?) :
    Matches (memory h) (memory h')
  | ledger {l l' : Ledger} (hentries : ∀ key : String, l.entries[key]? = l'.entries[key]?) :
    Matches (ledger l) (ledger l')

/-- Whether a store tells of mappings what another one tells. -/
structure TellsAs (s t : Store) : Prop where
  confirmed?_eq : ∀ k, s.confirmed? k = t.confirmed? k
  confirmed_eq : ∀ hop, s.confirmed hop = t.confirmed hop
  candidates_eq : ∀ hop, s.candidates hop = t.candidates hop

variable {s s' t : Store} {k : SlotKey} {v : Slot} {m n : Mapping} {c : Confirmation}

/-- What is written is read back. -/
theorem slot_of_written (hv : s.Keeps k v) (h : s.Written k v) : s.slot k = .ok v := by
  cases s with
  | memory shelf => exact congrArg Except.ok (Shelf.slot_of_getElem? h)
  | ledger l => exact Ledger.slot_of_text? h (hv rfl).2

namespace AgreesAt

theorem written (h : AgreesAt k s s') (hv : s.Written k v) : s'.Written k v := by
  cases h with
  | memory hslot => exact hslot.symm.trans hv
  | ledger hentry => exact hentry.symm.trans hv

theorem slot_eq (h : AgreesAt k s s') : s'.slot k = s.slot k := by
  cases h with
  | @memory shelf shelf' hslot =>
    change Except.ok (shelf'.slot k) = .ok (shelf.slot k)
    rw [Shelf.slot, Shelf.slot, hslot]
  | ledger hentry => exact Ledger.slot_congr hentry.symm

end AgreesAt

namespace Matches

theorem refl (s : Store) : s.Matches s := by
  cases s with
  | memory h => exact .memory fun _ => rfl
  | ledger l => exact .ledger fun _ => rfl

theorem trans (h : s.Matches s') (h' : s'.Matches t) : s.Matches t := by
  cases h with
  | memory hslots =>
    cases h' with
    | memory hslots' => exact .memory fun k => (hslots k).trans (hslots' k)
  | ledger hentries =>
    cases h' with
    | ledger hentries' => exact .ledger fun key => (hentries key).trans (hentries' key)

theorem symm (h : s.Matches s') : s'.Matches s := by
  cases h with
  | memory hslots => exact .memory fun k => (hslots k).symm
  | ledger hentries => exact .ledger fun key => (hentries key).symm

theorem backend_eq (h : s.Matches s') : s.backend = s'.backend := by
  cases h <;> rfl

theorem agreesAt (h : s.Matches s') (k : SlotKey) : AgreesAt k s s' := by
  cases h with
  | memory hslots => exact .memory (hslots k)
  | ledger hentries => exact .ledger (hentries _)

theorem slotsOf_eq (h : s.Matches s') (hop : Hop) : s.slotsOf hop = s'.slotsOf hop := by
  cases h with
  | @memory shelf shelf' hslots =>
    change Except.ok (shelf.slotsOf hop) = .ok (shelf'.slotsOf hop)
    rw [Shelf.slotsOf, Shelf.slotsOf, toList_congr hslots]
  | @ledger l l' hentries =>
    change l.slotsOf hop = l'.slotsOf hop
    rw [Ledger.slotsOf, Ledger.slotsOf, Ledger.scan, Ledger.scan, toList_congr hentries]

/-- Stores with the same slots tell the same. -/
theorem tellsAs (h : s.Matches s') : s.TellsAs s' where
  confirmed?_eq k := by rw [confirmed?_eq, confirmed?_eq, (h.agreesAt k).slot_eq]
  confirmed_eq hop := by rw [confirmed_eq, confirmed_eq, h.slotsOf_eq]
  candidates_eq hop := by rw [candidates_eq, candidates_eq, h.slotsOf_eq]

end Matches

/-! ### One mapping -/

/-- What becomes of a store in which a mapping is confirmed in place of whatever its slot holds. -/
structure Overwritten (s : Store) (m : Mapping) (v : Slot) (s' : Store) : Prop where
  slot_eq : s.slot m.key = .ok v
  backend_eq : s'.backend = s.backend
  fits : s.backend = .ledger → (Ledger.slotKey m.key).utf8ByteSize ≤ Ledger.keyLimit
  written : s'.Written m.key (v.overwrite m).2
  other : ∀ {k}, ¬ s.backend.Shares k m.key → AgreesAt k s s'

/-- Confirming writes the slot of a mapping, and no other. -/
theorem exists_overwritten (h : s.confirm m .overwrite = (.ok c, s')) :
    ∃ v, (v.overwrite m).1 = c ∧ s.Overwritten m v s' := by
  cases s with
  | memory shelf =>
    rw [confirm, Shelf.confirm_overwrite] at h
    cases h
    refine ⟨shelf.slot m.key, rfl, rfl, rfl, fun hb => (by cases hb), ?_, fun hk => .memory ?_⟩
    · exact (getElem?_insert_eq _ _ _ _).trans (if_pos rfl)
    · exact ((getElem?_insert_eq _ _ _ _).trans (if_neg hk)).symm
  | ledger l =>
    obtain ⟨hok, rfl⟩ := Prod.mk.inj h
    obtain ⟨v, hv, hput, hc⟩ := Ledger.upsert_eq_ok.mp (Ledger.upsert_of_confirm (Prod.ext hok rfl))
    refine ⟨v, hc, hv, rfl, fun _ => Ledger.fits_of_putSlot (v.isEmpty_overwrite m) hput, ?_,
      fun hk => .ledger ?_⟩
    · exact (Ledger.entries_putSlot hput _).trans (if_pos rfl)
    · exact ((Ledger.entries_putSlot hput _).trans (if_neg hk)).symm

/-- Whether the slot of a mapping was written with a decision that has its content. -/
def SettledOn (s : Store) (m : Mapping) : Prop :=
  ∃ v, s.Keeps m.key v ∧ s.Written m.key v ∧ v.Settled m

theorem SettledOn.congr (h : s.SettledOn m) (hmn : m.unmarked = n.unmarked) : s.SettledOn n := by
  obtain ⟨v, hkeeps, hwritten, hv⟩ := h
  have hkey : m.key = n.key := (congrArg Mapping.key hmn :)
  exact ⟨v, hkey ▸ hkeeps, hkey ▸ hwritten, hv.congr hmn⟩

/-- A store that is settled on a mapping tells of a decision with its content. -/
theorem SettledOn.exists_confirmed? (h : s.SettledOn m) :
    ∃ p, s.confirmed? m.key = .ok (some p) ∧ p.sameContent (Slot.asConfirmed m) = true := by
  obtain ⟨v, hkeeps, hwritten, p, hp, hcontent⟩ := h
  refine ⟨p, ?_, hcontent⟩
  rw [confirmed?_eq, slot_of_written hkeeps hwritten, ← hp]
  rfl

theorem SettledOn.of_matches (h : s.SettledOn m) (hs : s'.Matches s) : s'.SettledOn m := by
  obtain ⟨v, hkeeps, hwritten, hv⟩ := h
  exact ⟨v, fun hb => hkeeps (hs.backend_eq ▸ hb), (hs.symm.agreesAt _).written hwritten, hv⟩

theorem Readable.legible (hs : s.Readable) (hb : s.backend = .ledger) (hv : s.slot k = .ok v) :
    v.Legible := by
  cases s with
  | memory shelf => cases hb
  | ledger l =>
    obtain ⟨w, hw, hlegible⟩ := hs k
    exact Except.ok.inj (hw.symm.trans hv) ▸ hlegible

theorem Readable.of_slots (hs : s.Readable) (hb : s'.backend = s.backend)
    (h : ∀ k, s'.slot k = s.slot k) : s'.Readable := by
  cases s' with
  | memory shelf' => trivial
  | ledger l' =>
    cases s with
    | memory shelf => cases hb
    | ledger l =>
      intro k
      obtain ⟨v, hv, hlegible⟩ := hs k
      exact ⟨v, (h k).trans hv, hlegible⟩

namespace Overwritten

variable (h : s.Overwritten m v s')

include h

theorem keeps (hs : s.Readable) (hm : s.backend = .ledger → m.Legible) :
    s'.Keeps m.key (v.overwrite m).2 := by
  intro hb
  rw [h.backend_eq] at hb
  exact ⟨h.fits hb, (hs.legible hb h.slot_eq).confirms (hm hb) (v.confirms_overwrite m)⟩

/-- A store stays settled where a mapping with another slot is confirmed. -/
theorem settledOn (hn : s.SettledOn n) (hnm : ¬ s.backend.Shares n.key m.key) :
    s'.SettledOn n := by
  obtain ⟨w, hkeeps, hwritten, hw⟩ := hn
  exact ⟨w, fun hb => hkeeps (h.backend_eq ▸ hb), (h.other hnm).written hwritten, hw⟩

/-- Where a mapping is left alone all slots stay as they are. -/
theorem slot_eq_of_unchanged (hs : s.Readable) (hv : (v.overwrite m).2 = v) (k : SlotKey) :
    s'.slot k = s.slot k := by
  by_cases hk : s.backend.Shares k m.key
  · have hkeeps : s'.Keeps m.key v := fun hb =>
      have hb := h.backend_eq ▸ hb
      ⟨h.fits hb, hs.legible hb h.slot_eq⟩
    have hslot : s'.slot m.key = .ok v := slot_of_written hkeeps (hv ▸ h.written)
    rw [slot_of_shares (h.backend_eq.symm ▸ hk), hslot, slot_of_shares hk, h.slot_eq]
  · exact (h.other hk).slot_eq

end Overwritten

/-- Confirming a mapping leaves a store that can be read and is settled on the mapping. -/
theorem Readable.confirm_settles (hs : s.Readable) (hm : s.backend = .ledger → m.Legible)
    (hunit : m.confidence.InUnit) (h : s.confirm m .overwrite = (.ok c, s')) :
    s'.Readable ∧ s'.SettledOn m := by
  obtain ⟨v, -, hv⟩ := exists_overwritten h
  refine ⟨?_, _, hv.keeps hs hm, hv.written, v.settled_overwrite hunit⟩
  cases s with
  | memory shelf =>
    rw [confirm, Shelf.confirm_overwrite] at h
    cases h
    trivial
  | ledger l =>
    have hop : (Operation.confirm m .overwrite).Legible := hm rfl
    have hs' : ((ledger l).perform (.confirm m .overwrite)).2 = s' := congrArg Prod.snd h
    exact hs' ▸ hs.perform hop

/-- A store that is settled on a mapping leaves it alone, and writes what was written before. -/
theorem SettledOn.exists_confirm (hm : s.SettledOn m) : ∃ p s',
    s.confirm m .overwrite = (.ok (.unchanged p), s') ∧ s'.Matches s := by
  obtain ⟨v, hkeeps, hwritten, hv⟩ := hm
  obtain ⟨p, hp⟩ := hv.overwrite_eq
  have hslot := slot_of_written hkeeps hwritten
  cases s with
  | memory shelf =>
    obtain rfl : shelf.slot m.key = v := Except.ok.inj hslot
    refine ⟨p, memory (shelf.putSlot m.key (shelf.slot m.key)), ?_, .memory fun k => ?_⟩
    · rw [confirm, Shelf.confirm_overwrite, Shelf.upsert, hp]
      rfl
    · refine (getElem?_insert_eq _ _ _ _).trans ?_
      split
      · next hk => exact hk ▸ hwritten.symm
      · rfl
  | ledger l =>
    obtain ⟨l', hput⟩ := l.putSlot_of_fits (hkeeps rfl).1 v
    refine ⟨p, ledger l', ?_, .ledger fun key => ?_⟩
    · rw [confirm, Ledger.confirm, Ledger.update_of_ok hslot
        ((v.confirm_overwrite m).trans (congrArg Except.ok hp)) hput]
      rfl
    · rw [Ledger.entries_putSlot hput]
      split
      · next hk => exact hk ▸ hwritten.symm
      · rfl

end Store

/-! ### Batches -/

/-- Whether no two of several keys share a slot. -/
def Backend.Apart (b : Backend) (ks : List SlotKey) : Prop :=
  ks.Pairwise fun j k => ¬ b.Shares j k

namespace Backend

variable {b : Backend} {ks : List SlotKey}

/-- In memory each key has a slot of its own. -/
theorem apart_memory (h : ks.Nodup) : memory.Apart ks := h

/-- Keys of tables whose database and schema hold no null character have slots of their own. -/
theorem apart_of_separable (h : ks.Nodup) (hks : ∀ k ∈ ks, k.source.Separable) : b.Apart ks := by
  cases b with
  | memory => exact apart_memory h
  | ledger =>
    refine h.imp_of_mem fun hj hk hne hshares => hne ?_
    exact Ledger.slotKey_inj_of_separable (hks _ hj) (hks _ hk) hshares

end Backend

namespace Store

variable {s s' : Store} {n : Mapping} {ms ns : List Mapping} {cs : List Confirmation}

namespace Overwrites

theorem length_eq (h : s.Overwrites ms cs s') : cs.length = ms.length := by
  induction h with
  | nil => rfl
  | cons _ _ ih => rw [List.length_cons, List.length_cons, ih]

/-- A store stays settled on a mapping while mappings with other slots are confirmed. -/
theorem settledOn (h : s.Overwrites ms cs s') (hn : s.SettledOn n)
    (hms : ∀ m ∈ ms, ¬ s.backend.Shares n.key m.key) : s'.SettledOn n := by
  induction h with
  | nil => exact hn
  | cons hconfirm _ ih =>
    obtain ⟨hm, hms⟩ := List.forall_mem_cons.mp hms
    obtain ⟨v, -, hv⟩ := exists_overwritten hconfirm
    exact ih (hv.settledOn hn hm) (hv.backend_eq ▸ hms)

/-- Confirming mappings with slots of their own settles a store on each of them. -/
theorem settles (h : s.Overwrites ms cs s') (hs : s.Readable)
    (hms : ∀ m ∈ ms, (s.backend = .ledger → m.Legible) ∧ m.confidence.InUnit) :
    s'.Readable ∧ s'.backend = s.backend ∧
      (s.backend.Apart (ms.map Mapping.key) → ∀ m ∈ ms, s'.SettledOn m) := by
  induction h with
  | nil => exact ⟨hs, rfl, fun _ m hm => by cases hm⟩
  | @cons s s₁ s' m ms c cs hconfirm hrest ih =>
    obtain ⟨⟨hlegible, hunit⟩, hms⟩ := List.forall_mem_cons.mp hms
    obtain ⟨hs₁, hm⟩ := hs.confirm_settles hlegible hunit hconfirm
    obtain ⟨v, -, hv⟩ := exists_overwritten hconfirm
    obtain ⟨hreadable, hbackend, hsettled⟩ := ih hs₁ (hv.backend_eq ▸ hms)
    refine ⟨hreadable, hbackend.trans hv.backend_eq, fun hapart => ?_⟩
    obtain ⟨hother, hapart⟩ := List.pairwise_cons.mp hapart
    rw [hv.backend_eq] at hsettled
    refine List.forall_mem_cons.mpr ⟨hrest.settledOn hm fun n hn => ?_, hsettled hapart⟩
    rw [hv.backend_eq]
    exact hother n.key (List.mem_map_of_mem hn)

/-- If all mappings are left alone, then their slots had been settled on them. -/
theorem settled_of_unchanged (h : s.Overwrites ms cs s') (hs : s.Readable)
    (hcs : ∀ c ∈ cs, c.isUnchanged = true) : ∀ m ∈ ms, ∃ v, s.slot m.key = .ok v ∧ v.Settled m := by
  induction h with
  | nil => exact fun m hm => by cases hm
  | @cons s s₁ s' m ms c cs hconfirm hrest ih =>
    obtain ⟨v, rfl, hv⟩ := exists_overwritten hconfirm
    obtain ⟨hc, hcs⟩ := List.forall_mem_cons.mp hcs
    obtain ⟨hsettled, hsame⟩ := v.settled_of_isUnchanged hc
    -- what is left alone leaves all slots to the mappings after it as they are
    have hslot := hv.slot_eq_of_unchanged hs hsame
    refine List.forall_mem_cons.mpr ⟨⟨v, hv.slot_eq, hsettled⟩, fun n hn => ?_⟩
    obtain ⟨w, hw, hwsettled⟩ := ih (hs.of_slots hv.backend_eq hslot) hcs n hn
    exact ⟨w, (hslot _).symm.trans hw, hwsettled⟩

end Overwrites

/-- A store that is settled on mappings leaves all of them alone, and writes what was written. -/
theorem exists_overwrites_of_settled (hms : ∀ m ∈ ms, s.SettledOn m) : ∃ cs s',
    s.Overwrites ms cs s' ∧ (∀ c ∈ cs, c.isUnchanged = true) ∧ s'.Matches s := by
  induction ms generalizing s with
  | nil => exact ⟨[], s, .nil s, fun c hc => (by cases hc), .refl s⟩
  | cons m ms ih =>
    obtain ⟨hm, hms⟩ := List.forall_mem_cons.mp hms
    obtain ⟨p, s₁, hconfirm, hmatches⟩ := hm.exists_confirm
    obtain ⟨cs, s', hrest, hcs, hmatches'⟩ := ih fun n hn => (hms n hn).of_matches hmatches
    exact ⟨_, s', .cons hconfirm hrest, List.forall_mem_cons.mpr ⟨rfl, hcs⟩,
      hmatches'.trans hmatches⟩

/-- Mappings that are all settled in their slots, and have different keys, share no slot. -/
theorem apart_of_settled (hms : ∀ m ∈ ms, ∃ v, s.slot m.key = .ok v ∧ v.Settled m)
    (hdistinct : (ms.map Mapping.key).Nodup) : s.backend.Apart (ms.map Mapping.key) := by
  refine hdistinct.imp_of_mem fun hj hk hne hshares => hne ?_
  obtain ⟨m, hm, rfl⟩ := List.mem_map.mp hj
  obtain ⟨n, hn, rfl⟩ := List.mem_map.mp hk
  obtain ⟨v, hv, hmsettled⟩ := hms m hm
  obtain ⟨w, hw, hnsettled⟩ := hms n hn
  obtain rfl := Except.ok.inj (hv.symm.trans ((slot_of_shares hshares).trans hw))
  exact hmsettled.key_eq hnsettled

section Batches

variable {count : BatchCount} (hs : s.Readable)
  (hms : ∀ m ∈ ms, (s.backend = .ledger → m.Legible) ∧ m.confidence.InUnit)
  (h : s.upsertAll ms = (.ok count, s'))

include hs hms h

/-- A batch that is confirmed settles a store on each of its mappings, if no two of them share a
slot. -/
theorem settledOn_of_upsertAll (hapart : s.backend.Apart (ms.map Mapping.key)) :
    ∀ m ∈ ms, s'.SettledOn m := by
  obtain ⟨cs, hoverwrites, -⟩ := overwrites_of_upsertAll h
  exact (hoverwrites.settles hs hms).2.2 hapart

variable (hns : ns.map Mapping.unmarked = ms.map Mapping.unmarked)

include hns

/-- **A batch that is confirmed again changes nothing**, whatever its mappings are marked with, if no
two of them share a slot. -/
theorem upsertAll_again (hapart : s.backend.Apart (ms.map Mapping.key)) :
    ∃ s'', s'.upsertAll ns = (.ok ⟨0, 0, ns.length⟩, s'') ∧ s''.Matches s' := by
  have hsettled : ∀ n ∈ ns, s'.SettledOn n := fun n hn => by
    obtain ⟨m, hm, hmn⟩ := List.mem_map.mp (hns ▸ List.mem_map_of_mem hn)
    exact (settledOn_of_upsertAll hs hms h hapart m hm).congr hmn
  obtain ⟨ds, s'', hagain, hds, hmatches⟩ := exists_overwrites_of_settled hsettled
  refine ⟨s'', ?_, hmatches⟩
  rw [upsertAll_of_overwrites hagain, BatchCount.foldl_add_of_unchanged hds, hagain.length_eq]

/-- A batch of different keys that is found unchanged when it is confirmed again has no two mappings
that share a slot. -/
theorem apart_of_upsertAll_again (hdistinct : (ms.map Mapping.key).Nodup) {s'' : Store}
    (hagain : s'.upsertAll ns = (.ok ⟨0, 0, ns.length⟩, s'')) :
    s.backend.Apart (ms.map Mapping.key) := by
  obtain ⟨cs, hoverwrites, -⟩ := overwrites_of_upsertAll h
  obtain ⟨hreadable, hbackend, -⟩ := hoverwrites.settles hs hms
  obtain ⟨ds, hoverwrites', hcount⟩ := overwrites_of_upsertAll hagain
  have hkeys : ns.map Mapping.key = ms.map Mapping.key := by
    have hunmarked := congrArg (List.map Mapping.key) hns
    rwa [List.map_map, List.map_map] at hunmarked
  have hds : ∀ d ∈ ds, d.isUnchanged = true := by
    rw [← List.countP_eq_length, ← hcount.unchanged_eq, hoverwrites'.length_eq]
  have hapart := apart_of_settled (hoverwrites'.settled_of_unchanged hreadable hds)
    (hkeys ▸ hdistinct)
  rwa [hkeys, hbackend] at hapart

end Batches

end Store

end TierLineage
