import TierLineage.Proofs.Mapping.Renaming
import TierLineage.Proofs.Store.Keyed
import TierLineage.Proofs.Store.Sequence

/-!
# Stores up to fresh marks

Two stores are renamings of each other if they hold slots under the same keys, and those that they
hold are renamings of each other.  Confirming renamings of one mapping in place of whatever is
confirmed answers the same in both, and leaves renamings; so does a sequence of such mappings.
Stores that are renamings of each other tell the same of what is confirmed, and the same candidates.
-/

namespace TierLineage

open TierLineage.Text

/-! ### Lists with the same keys -/

section Keys

variable {κ α β : Type} {R S : α → β → Prop}

/-- What is related two by two may be related otherwise by where it is from. -/
theorem forall₂_imp_of_mem {as : List α} {bs : List β} (h : List.Forall₂ R as bs)
    (hS : ∀ a ∈ as, ∀ b ∈ bs, R a b → S a b) : List.Forall₂ S as bs := by
  induction h with
  | nil => exact .nil
  | cons hab _ ih =>
    refine .cons (hS _ (List.mem_cons_self ..) _ (List.mem_cons_self ..) hab) (ih fun a ha b hb => ?_)
    exact hS a (List.mem_cons_of_mem _ ha) b (List.mem_cons_of_mem _ hb)

/-- Entries in the order of the same keys are related if those under one key are. -/
theorem forall₂_of_keys [Ord κ] [Std.TransOrd κ] {es : List (κ × α)} {fs : List (κ × β)}
    (he : es.Pairwise fun d e => compare d.1 e.1 = .lt)
    (hf : fs.Pairwise fun d e => compare d.1 e.1 = .lt)
    (hkeys : ∀ k, (∃ v, (k, v) ∈ es) ↔ ∃ w, (k, w) ∈ fs)
    (h : ∀ k v w, (k, v) ∈ es → (k, w) ∈ fs → R v w) :
    List.Forall₂ (fun d e => R d.2 e.2) es fs := by
  have hmem : ∀ e : κ × Unit, e ∈ es.map (fun e => (e.1, ())) ↔ e ∈ fs.map fun e => (e.1, ()) := by
    rintro ⟨k, -⟩
    have hk := hkeys k
    simpa [List.mem_map] using hk
  have hmap : es.map (fun e => (e.1, ())) = fs.map fun e => (e.1, ()) :=
    eq_of_sorted (List.pairwise_map.mpr he) (List.pairwise_map.mpr hf) hmem
  have hsame := List.forall₂_eq_eq_eq.symm ▸ hmap
  rw [List.forall₂_map_left_iff, List.forall₂_map_right_iff] at hsame
  refine forall₂_imp_of_mem hsame fun d hd e he heq => ?_
  have hkey : d.1 = e.1 := congrArg Prod.fst heq
  exact h d.1 d.2 e.2 hd (hkey ▸ he)

end Keys

/-- Slots that are renamings of each other two by two are so when they are sorted. -/
theorem Ledger.forall₂_mergeSort {σ : Renaming} {vs ws : List Slot}
    (h : List.Forall₂ (Slot.Renamed σ) vs ws) :
    List.Forall₂ (Slot.Renamed σ) (vs.mergeSort slotLE) (ws.mergeSort slotLE) := by
  -- both are the sides of one list of pairs, which either of its sides sorts
  obtain ⟨ps, hps, rfl, rfl⟩ : ∃ ps : List (Slot × Slot), (∀ p ∈ ps, p.1.Renamed σ p.2) ∧
      ps.map Prod.fst = vs ∧ ps.map Prod.snd = ws := by
    refine ⟨vs.zip ws, fun p hp => (List.forall₂_iff_zip.mp h).2 hp, ?_, ?_⟩
    · exact List.map_fst_zip (Nat.le_of_eq h.length_eq)
    · exact List.map_snd_zip (Nat.le_of_eq h.length_eq.symm)
  have hle : ∀ p ∈ ps, ∀ q ∈ ps, slotLE p.1 q.1 = slotLE p.2 q.2 := fun p hp q hq => by
    rw [slotLE, slotLE, (hps p hp).source?_eq, (hps q hq).source?_eq]
  rw [← List.map_mergeSort (r := fun p q => slotLE p.1 q.1) (fun _ _ _ _ => rfl),
    ← List.map_mergeSort (r := fun p q => slotLE p.1 q.1) hle, List.forall₂_map_left_iff,
    List.forall₂_map_right_iff]
  exact List.forall₂_same.mpr fun p hp => hps p (List.mem_mergeSort.mp hp)

namespace Ledger

variable {l l' : Ledger} {k : SlotKey} {v : Slot}

/-- A slot in which something is known was written under a key that is not too long. -/
theorem fits_of_putSlot (hv : v.isEmpty = false) (hput : l.putSlot k v = .ok l') :
    (slotKey k).utf8ByteSize ≤ keyLimit := by
  rw [Ledger.putSlot, if_neg (by simp [hv]), put] at hput
  split at hput
  · cases hput
  · next hfits => exact Nat.not_lt.mp hfits

end Ledger

/-! ### Shelves and ledgers -/

/-- Whether two shelves hold slots that differ in fresh marks only. -/
def Shelf.Renamed (σ : Renaming) (h h' : Shelf) : Prop :=
  ∀ k, (h.slot k).Renamed σ (h'.slot k)

/-- Whether two ledgers hold slots that differ in fresh marks only, under the same keys. -/
structure Ledger.Renamed (σ : Renaming) (l l' : Ledger) : Prop where
  slot : ∀ k, ∃ v w, l.slot k = .ok v ∧ l'.slot k = .ok w ∧ v.Legible ∧ w.Legible ∧ v.Renamed σ w
  isSome_eq : ∀ key : String, l'.entries[key]?.isSome = l.entries[key]?.isSome
  keyed : l.Keyed

namespace Shelf

variable {σ : Renaming} {h h' : Shelf} {m n : Mapping}

/-- Confirming renamings of one mapping answers the same, and leaves renamings. -/
theorem Renamed.confirm (hh : h.Renamed σ h') (hmn : m.Renamed σ n) :
    (h.upsert m).1.Renamed σ (h'.upsert n).1 ∧ (h.upsert m).2.Renamed σ (h'.upsert n).2 := by
  obtain ⟨hanswer, hslot⟩ := (hh m.key).overwrite hmn
  rw [upsert, upsert, ← hmn.key_eq]
  refine ⟨hanswer, fun k => ?_⟩
  rw [slot_putSlot, slot_putSlot]
  split
  · exact hslot
  · exact hh k

/-- Shelves that are renamings of each other know something of the same keys. -/
theorem Renamed.known (hh : h.Renamed σ h') (hop : Hop) :
    List.Forall₂ (fun d e => d.2.Renamed σ e.2) (h.known hop) (h'.known hop) := by
  refine forall₂_of_keys (h.known_sorted hop) (h'.known_sorted hop) (fun k => ?_) ?_
  · simp only [mem_known, exists_eq_left', (hh k).isEmpty_eq]
  · intro k v w hv hw
    rw [← (mem_known.mp hv).1, ← (mem_known.mp hw).1]
    exact hh k

theorem Renamed.listings (hh : h.Renamed σ h') (hop : Hop) :
    List.Forall₂ (Mapping.Renamed σ) (h.confirmed hop) (h'.confirmed hop) ∧
      h.candidates hop = h'.candidates hop := by
  have hslots := hh.known hop
  rw [h.confirmed_eq_known, h'.confirmed_eq_known, h.candidates_eq_known, h'.candidates_eq_known]
  constructor
  · exact List.rel_filterMap (fun _ _ hvw => hvw.confirmed) hslots
  · rw [← List.forall₂_eq_eq_eq]
    exact List.rel_flatMap hslots fun _ _ hvw => List.forall₂_eq_eq_eq ▸ hvw.candidates_eq

end Shelf

namespace Ledger

variable {σ : Renaming} {l l' l₁ l₁' : Ledger} {k : SlotKey} {v w : Slot} {m n : Mapping}

theorem renamed_refl (σ : Renaming) (hreadable : l.Readable) (hkeyed : l.Keyed) :
    l.Renamed σ l where
  slot k := by
    obtain ⟨v, hv, hlegible⟩ := hreadable k
    exact ⟨v, v, hv, hv, hlegible, hlegible, v.renamed_refl σ⟩
  isSome_eq _ := rfl
  keyed := hkeyed

/-- Writing slots that are renamings of each other leaves renamings. -/
theorem Renamed.putSlot (hl : l.Renamed σ l') (hvw : v.Renamed σ w) (hv : v.Legible)
    (hw : w.Legible) (hput : l.putSlot k v = .ok l₁) (hput' : l'.putSlot k w = .ok l₁') :
    l₁.Renamed σ l₁' where
  slot j := by
    by_cases hj : slotKey j = slotKey k
    · refine ⟨v, w, slot_of_text? ?_ hv, slot_of_text? ?_ hw, hv, hw, hvw⟩
      · rw [entries_putSlot hput, if_pos hj]
      · rw [entries_putSlot hput', if_pos hj]
    · obtain ⟨v', w', hv', hw', hrest⟩ := hl.slot j
      refine ⟨v', w', ?_, ?_, hrest⟩
      · rw [Ledger.slot, get?, entries_putSlot hput, if_neg hj]
        exact hv'
      · rw [Ledger.slot, get?, entries_putSlot hput', if_neg hj]
        exact hw'
  isSome_eq key := by
    rw [entries_putSlot hput, entries_putSlot hput']
    split
    · rw [Slot.text?, Slot.text?, hvw.isEmpty_eq]
      split <;> rfl
    · exact hl.isSome_eq key
  keyed := hl.keyed.putSlot hput

/-- Confirming renamings of one mapping answers the same, and leaves renamings. -/
theorem Renamed.confirm (hl : l.Renamed σ l') (hmn : m.Renamed σ n) (hm : m.Legible)
    (hn : n.Legible) {c : Confirmation} (h : l.confirm m .overwrite = (.ok c, l₁)) :
    ∃ c' l₁', l'.confirm n .overwrite = (.ok c', l₁') ∧ c.Renamed σ c' ∧ l₁.Renamed σ l₁' := by
  obtain ⟨v, w, hv, hw, hlegible, hlegible', hvw⟩ := hl.slot m.key
  obtain ⟨hanswer, hslot⟩ := hvw.overwrite hmn
  -- whether a slot is written depends on its key only, which both ledgers have in common
  cases hput : l.putSlot m.key (v.overwrite m).2 with
  | error e =>
    simp only [Ledger.confirm, update, hv, Slot.confirm_overwrite, hput, bind, Except.bind] at h
    cases h
  | ok l₂ =>
    have hfits := fits_of_putSlot (v.isEmpty_overwrite m) hput
    obtain ⟨l₂', hput'⟩ := l'.putSlot_of_fits hfits (w.overwrite n).2
    rw [Ledger.confirm, update_of_ok hv (v.confirm_overwrite m) hput] at h
    cases h
    refine ⟨_, l₂', ?_, hanswer, ?_⟩
    · rw [Ledger.confirm, ← hmn.key_eq]
      exact update_of_ok hw (w.confirm_overwrite n) hput'
    · exact hl.putSlot hslot (hlegible.confirms hm (v.confirms_overwrite m))
        (hlegible'.confirms hn (w.confirms_overwrite n)) hput hput'

theorem Renamed.keyed_right (hl : l.Renamed σ l') : l'.Keyed := by
  intro key text hkey
  have hsome := hl.isSome_eq key
  rw [hkey] at hsome
  obtain ⟨text', htext'⟩ := Option.isSome_iff_exists.mp hsome.symm
  exact hl.keyed key text' htext'

/-- Ledgers that are renamings of each other find the same slots of a hop. -/
theorem Renamed.slotsOf (hl : l.Renamed σ l') (hop : Hop) : ∃ vs ws,
    l.slotsOf hop = .ok vs ∧ l'.slotsOf hop = .ok ws ∧ List.Forall₂ (Slot.Renamed σ) vs ws := by
  have hentries : List.Forall₂ (fun d e => ∃ v w, decode Slot.read d.2 = .ok v ∧
      decode Slot.read e.2 = .ok w ∧ v.Renamed σ w) (l.starting (hopStart hop))
      (l'.starting (hopStart hop)) := by
    refine forall₂_of_keys (R := fun text text' => ∃ v w, decode Slot.read text = .ok v ∧
      decode Slot.read text' = .ok w ∧ v.Renamed σ w) (l.starting_sorted _) (l'.starting_sorted _)
      (fun key => ?_) ?_
    · simp only [mem_starting, exists_and_right, ← Option.isSome_iff_exists, hl.isSome_eq]
    · intro key text text' h h'
      obtain ⟨k, rfl, hslot⟩ := hl.keyed.slot_of_starting h
      obtain ⟨j, hj, hslot'⟩ := hl.keyed_right.slot_of_starting h'
      obtain ⟨v, w, hv, hw, -, -, hvw⟩ := hl.slot k
      -- the keys of two slots may agree where their parts do not
      have hsame : l'.slot j = l'.slot k := by
        rw [Ledger.slot, Ledger.slot, hj]
      exact ⟨v, w, hslot.symm.trans hv, hslot'.symm.trans (hsame.trans hw), hvw⟩
  obtain ⟨vs, ws, hvs, hws, hrenamed⟩ := exists_mapM_forall₂ hentries
  have hscan : l.scan Slot.read (hopStart hop) = .ok vs := hvs
  have hscan' : l'.scan Slot.read (hopStart hop) = .ok ws := hws
  refine ⟨_, _, ?_, ?_, forall₂_mergeSort hrenamed⟩
  · rw [Ledger.slotsOf, hscan]
    rfl
  · rw [Ledger.slotsOf, hscan']
    rfl

end Ledger

/-! ### Stores -/

namespace Store

/-- Whether two stores of one kind hold slots that differ in fresh marks only. -/
inductive Renamed (σ : Renaming) : Store → Store → Prop
  | memory {h h' : Shelf} (hh : h.Renamed σ h') : Renamed σ (memory h) (memory h')
  | ledger {l l' : Ledger} (hl : l.Renamed σ l') : Renamed σ (ledger l) (ledger l')

/-- Whether two stores tell the same of what is confirmed, up to fresh marks, and the same
candidates. -/
structure TellsAlike (σ : Renaming) (s t : Store) : Prop where
  confirmed? : ∀ k, ∃ o o', s.confirmed? k = .ok o ∧ t.confirmed? k = .ok o' ∧
    Option.Rel (Mapping.Renamed σ) o o'
  confirmed : ∀ hop, ∃ ms ns, s.confirmed hop = .ok ms ∧ t.confirmed hop = .ok ns ∧
    List.Forall₂ (Mapping.Renamed σ) ms ns
  candidates : ∀ hop, ∃ ms, s.candidates hop = .ok ms ∧ t.candidates hop = .ok ms

variable {σ : Renaming} {s s' t : Store} {m n : Mapping}

theorem renamed_refl (σ : Renaming) (hreadable : s.Readable) (hkeyed : s.Keyed) :
    s.Renamed σ s := by
  cases s with
  | memory h => exact .memory fun k => (h.slot k).renamed_refl σ
  | ledger l => exact .ledger (Ledger.renamed_refl σ hreadable hkeyed)

/-- Confirming renamings of one mapping, which can be read back from a ledger, answers the same and
leaves renamings. -/
theorem Renamed.confirm (hs : s.Renamed σ t) (hmn : m.Renamed σ n)
    (hlegible : s.backend = .ledger → m.Legible ∧ n.Legible) {c : Confirmation}
    (h : s.confirm m .overwrite = (.ok c, s')) :
    ∃ c' t', t.confirm n .overwrite = (.ok c', t') ∧ c.Renamed σ c' ∧ s'.Renamed σ t' ∧
      s'.backend = s.backend := by
  cases hs with
  | @memory shelf shelf' hh =>
    obtain ⟨hanswer, hrenamed⟩ := hh.confirm hmn
    rw [Store.confirm, Shelf.confirm_overwrite] at h
    cases h
    refine ⟨_, .memory (shelf'.upsert n).2, ?_, hanswer, .memory hrenamed, rfl⟩
    rw [Store.confirm, Shelf.confirm_overwrite]
    rfl
  | @ledger l l' hl =>
    obtain ⟨hm, hn⟩ := hlegible rfl
    obtain ⟨hok, rfl⟩ := Prod.mk.inj h
    obtain ⟨c', l₁', hconfirm, hanswer, hrenamed⟩ := hl.confirm hmn hm hn (Prod.ext hok rfl)
    refine ⟨c', .ledger l₁', ?_, hanswer, .ledger hrenamed, rfl⟩
    rw [Store.confirm, hconfirm]
    rfl

/-- Confirming one after the other renamings of the same mappings answers the same and leaves
renamings. -/
theorem Renamed.overwrites (hs : s.Renamed σ t) {ms ns : List Mapping} {cs : List Confirmation}
    (hmns : List.Forall₂ (fun m n => m.Renamed σ n ∧
      (s.backend = .ledger → m.Legible ∧ n.Legible)) ms ns) (h : s.Overwrites ms cs s') :
    ∃ cs' t', t.Overwrites ns cs' t' ∧ List.Forall₂ (Confirmation.Renamed σ) cs cs' ∧
      s'.Renamed σ t' := by
  induction h generalizing t ns with
  | nil =>
    cases hmns
    exact ⟨[], t, .nil t, .nil, hs⟩
  | cons hconfirm _ ih =>
    cases hmns with
    | cons hmn hmns =>
      obtain ⟨c', t₁, hconfirm', hanswer, hrenamed, hbackend⟩ := hs.confirm hmn.1 hmn.2 hconfirm
      obtain ⟨cs', t', hrest, hanswers, hrenamed'⟩ := ih hrenamed (hbackend ▸ hmns)
      exact ⟨c' :: cs', t', .cons hconfirm' hrest, .cons hanswer hanswers, hrenamed'⟩

/-- **Stores that differ in fresh marks only tell the same** of what is confirmed, and the same
candidates. -/
theorem Renamed.tellsAlike (hs : s.Renamed σ t) : s.TellsAlike σ t := by
  cases hs with
  | memory hh =>
    exact {
      confirmed? := fun k => ⟨_, _, rfl, rfl, (hh k).confirmed⟩
      confirmed := fun hop => ⟨_, _, rfl, rfl, (hh.listings hop).1⟩
      candidates := fun hop => ⟨_, rfl, congrArg Except.ok (hh.listings hop).2.symm⟩ }
  | @ledger l l' hl =>
    refine ⟨fun k => ?_, fun hop => ?_, fun hop => ?_⟩
    · obtain ⟨v, w, hv, hw, -, -, hvw⟩ := hl.slot k
      refine ⟨v.confirmed, w.confirmed, ?_, ?_, hvw.confirmed⟩
      · rw [Store.confirmed?, Ledger.confirmed?, hv]
        rfl
      · rw [Store.confirmed?, Ledger.confirmed?, hw]
        rfl
    · obtain ⟨vs, ws, hvs, hws, hvws⟩ := hl.slotsOf hop
      refine ⟨_, _, ?_, ?_, List.rel_filterMap (fun _ _ hvw => hvw.confirmed) hvws⟩
      · rw [Store.confirmed, Ledger.confirmed, hvs]
        rfl
      · rw [Store.confirmed, Ledger.confirmed, hws]
        rfl
    · obtain ⟨vs, ws, hvs, hws, hvws⟩ := hl.slotsOf hop
      have hcandidates : vs.flatMap (·.candidates) = ws.flatMap (·.candidates) := by
        rw [← List.forall₂_eq_eq_eq]
        exact List.rel_flatMap hvws fun _ _ hvw => List.forall₂_eq_eq_eq ▸ hvw.candidates_eq
      refine ⟨vs.flatMap (·.candidates), ?_, ?_⟩
      · rw [Store.candidates, Ledger.candidates, hvs]
        rfl
      · rw [Store.candidates, Ledger.candidates, hws, hcandidates]
        rfl

end Store

end TierLineage
