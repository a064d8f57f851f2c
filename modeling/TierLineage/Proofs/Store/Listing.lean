import Mathlib.Data.List.Perm.Basic
import TierLineage.Proofs.Store.Mirror

/-!
# Listings of a mirror

What a ledger lists is what the shelf lists that it mirrors.  The ledger finds the slots of a hop in
the order of their keys and sorts them by their source tables, which are different ones; the records
of a connection have the order of their procedures already, since their keys have a common start.
-/

namespace TierLineage

open TierLineage.Text

/-! ### Sorting -/

namespace Ledger

theorem slotLE_total (v w : Slot) : (slotLE v w || slotLE w v) = true := by
  rw [slotLE, slotLE]
  cases v.source? with
  | none => rfl
  | some t =>
    cases w.source? with
    | none => rfl
    | some u =>
      simp only [Bool.or_eq_true]
      cases h : compare t u with
      | lt => exact .inl rfl
      | eq => exact .inl rfl
      | gt =>
        rw [Std.OrientedCmp.gt_iff_lt.mp h]
        exact .inr rfl

theorem slotLE_trans (v w x : Slot) (h : slotLE v w = true) (h' : slotLE w x = true) :
    slotLE v x = true := by
  rw [slotLE] at h h' ⊢
  cases hv : v.source? with
  | none => rfl
  | some t =>
    rw [hv] at h
    cases hw : w.source? with
    | none =>
      rw [hw] at h
      cases h
    | some u =>
      rw [hw] at h h'
      cases hx : x.source? with
      | none =>
        rw [hx] at h'
        cases h'
      | some y =>
        rw [hx] at h'
        exact Std.TransCmp.isLE_trans h h'

/-- Whether slots come one after the other by different source tables. -/
def SourceLT (v w : Slot) : Prop :=
  ∃ t u, v.source? = some t ∧ w.source? = some u ∧ compare t u = .lt

/-- Slots of different source tables have one order only. -/
theorem mergeSort_slotLE {vs ws : List Slot} (hp : vs.Perm ws) (hw : ws.Pairwise SourceLT) :
    vs.mergeSort slotLE = ws := by
  have hle : ws.Pairwise fun v w => slotLE v w = true := by
    refine hw.imp fun {v w} ⟨t, u, ht, hu, hlt⟩ => ?_
    rw [slotLE, ht, hu]
    simp only [hlt]
    rfl
  have hne : ∀ {v w : Slot}, SourceLT v w → slotLE w v = false := by
    rintro v w ⟨t, u, ht, hu, hlt⟩
    rw [slotLE, ht, hu]
    simp only [Std.OrientedCmp.gt_iff_lt.mpr hlt]
    rfl
  have hanti : ∀ v ∈ ws, ∀ w ∈ ws, v = w ∨ SourceLT v w ∨ SourceLT w v := by
    refine List.Pairwise.forall_of_forall_of_flip (fun _ _ => .inl rfl) ?_ ?_
    · exact hw.imp fun hlt => .inr (.inl hlt)
    · exact hw.imp fun hlt => .inr (.inr hlt)
  refine List.Perm.eq_of_pairwise (fun v w hv hw' => ?_) (List.pairwise_mergeSort slotLE_trans
    slotLE_total vs) hle ((List.mergeSort_perm vs slotLE).trans hp)
  rcases hanti v (hp.subset (List.mem_mergeSort.mp hv)) w hw' with heq | hlt | hlt
  · exact fun _ _ => heq
  · exact fun _ hle' => by simp [hne hlt] at hle'
  · exact fun hle' _ => by simp [hne hlt] at hle'

end Ledger

/-! ### Entries -/

/-- Keys in their order are different. -/
theorem nodup_of_sorted {α β : Type} [Ord α] [Std.TransOrd α] {es : List (α × β)}
    (h : es.Pairwise fun d e => compare d.1 e.1 = .lt) : es.Nodup := by
  refine h.imp fun {d e} hlt heq => ?_
  rw [heq] at hlt
  exact Std.OrientedCmp.not_lt_of_lt hlt hlt

/-- Entries in the order of their keys are determined by what is among them. -/
theorem eq_of_sorted {α β : Type} [Ord α] [Std.TransOrd α] {es fs : List (α × β)}
    (he : es.Pairwise fun d e => compare d.1 e.1 = .lt)
    (hf : fs.Pairwise fun d e => compare d.1 e.1 = .lt) (h : ∀ e, e ∈ es ↔ e ∈ fs) : es = fs := by
  refine List.Perm.eq_of_pairwise (fun d e _ _ hlt hlt' => ?_) he hf ?_
  · exact absurd hlt' (Std.OrientedCmp.not_lt_of_lt hlt)
  · exact (List.perm_ext_iff_of_nodup (nodup_of_sorted he) (nodup_of_sorted hf)).mpr h

namespace Ledger

variable {l : Ledger} {s : Shelf} {start : String}

/-- The entries whose keys have a common start. -/
def starting (l : Ledger) (start : String) : List (String × String) :=
  l.entries.toList.filter fun e => startsWith e.1.toList start.toList

theorem starting_sorted (l : Ledger) (start : String) :
    (l.starting start).Pairwise fun d e => compare d.1 e.1 = .lt :=
  l.entries.ordered_keys_toList.filter _

theorem mem_starting {key text : String} : (key, text) ∈ l.starting start ↔
    l.entries[key]? = some text ∧ startsWith key.toList start.toList = true := by
  rw [starting, List.mem_filter, Std.TreeMap.mem_toList_iff_getElem?_eq_some]

/-- Values are read from the texts that they were written to. -/
theorem scan_eq {κ α : Type} {read : Json.Reader α} {key : κ → String} {write : α → Json}
    {es : List (κ × α)}
    (hes : l.starting start = es.map fun e => (key e.1, Json.compact (write e.2)))
    (hread : ∀ e ∈ es, decode read (Json.compact (write e.2)) = .ok e.2) :
    l.scan read start = .ok (es.map Prod.snd) := by
  have hscan : l.scan read start = (l.starting start).mapM fun e => decode read e.2 := rfl
  rw [hscan, hes, List.mapM_map]
  exact mapM_eq_ok hread

end Ledger

/-! ### Slots of a hop -/

namespace Shelf

/-- The slots of a hop in which something is known, with their keys. -/
def known (s : Shelf) (hop : Hop) : List (SlotKey × Slot) :=
  s.slots.toList.filter fun e => e.1.hop == hop && !e.2.isEmpty

variable {s : Shelf} {hop : Hop} {k : SlotKey} {v : Slot}

theorem mem_known : (k, v) ∈ s.known hop ↔ s.slot k = v ∧ k.hop = hop ∧ v.isEmpty = false := by
  rw [known, List.mem_filter, Std.TreeMap.mem_toList_iff_getElem?_eq_some, slot]
  constructor
  · rintro ⟨hk, h⟩
    rw [hk]
    simpa using h
  · rintro ⟨hv, rfl, hempty⟩
    cases hk : s.slots[k]? with
    | none =>
      rw [hk] at hv
      cases hv
      cases hempty
    | some w =>
      rw [hk] at hv
      cases hv
      simpa using hempty

theorem known_sorted (s : Shelf) (hop : Hop) :
    (s.known hop).Pairwise fun d e => compare d.1 e.1 = .lt :=
  s.slots.ordered_keys_toList.filter _

/-- Slots in which nothing is known make no difference. -/
theorem filter_slotsOf (s : Shelf) (hop : Hop) :
    (s.slotsOf hop).filter (fun v => !v.isEmpty) = (s.known hop).map Prod.snd := by
  rw [slotsOf, List.filter_map, List.filter_filter, known]
  congr 2
  funext e
  exact Bool.and_comm _ _

end Shelf

/-- What is known in a slot is known of its source table. -/
theorem Slot.Of.source?_eq {v : Slot} {k : SlotKey} (h : v.Of k) (hv : v.isEmpty = false) :
    v.source? = some k.source := by
  obtain ⟨confirmed, candidates⟩ := v
  cases confirmed with
  | some m =>
    have hm := (h.confirmed m rfl).key_eq
    rw [← hm]
    rfl
  | none =>
    cases candidates with
    | nil => cases hv
    | cons m ms =>
      have hm := (h.candidates m (List.mem_cons_self ..)).key_eq
      rw [← hm]
      rfl

/-- Keys of one hop have the order of their source tables. -/
theorem SlotKey.compare_source {k j : SlotKey} (h : compare k j = .lt) (hhop : k.hop = j.hop) :
    compare k.source j.source = .lt := by
  have hlex : compare k j = (compare k.hop j.hop).then (compare k.source j.source) := rfl
  rwa [hlex, hhop, Std.ReflOrd.compare_self (α := Hop), Ordering.then] at h

namespace Ledger.Mirrors

variable {l : Ledger} {s : Shelf}

/-- A mirror has the texts of the slots of a hop under the keys with the start of the hop. -/
theorem starting_hopStart (h : l.Mirrors s) (hop : Hop) :
    (l.starting (hopStart hop)).Perm
      ((s.known hop).map fun e => (slotKey e.1, Json.compact e.2.toJson)) := by
  have hplain : ∀ e ∈ s.known hop, e.1.source.Plain := by
    rintro ⟨k, v⟩ he
    obtain ⟨rfl, -, hv⟩ := Shelf.mem_known.mp he
    exact h.plain hv
  refine (List.perm_ext_iff_of_nodup (nodup_of_sorted (l.starting_sorted _)) ?_).mpr ?_
  · refine List.pairwise_map.mpr ((s.known_sorted hop).imp_of_mem fun {d e} hd he hlt heq => ?_)
    rw [slotKey_inj (hplain d hd) (hplain e he) (Prod.mk.inj heq).1] at hlt
    exact Std.OrientedCmp.not_lt_of_lt hlt hlt
  · rintro ⟨key, text⟩
    rw [mem_starting, List.mem_map]
    constructor
    · rintro ⟨hkey, hstart⟩
      rcases h.key_cases hkey with ⟨k, hk, rfl⟩ | ⟨p, rfl⟩
      · rw [h.slotText hk, Slot.text?] at hkey
        split at hkey
        · cases hkey
        · next hempty =>
          refine ⟨(k, s.slot k), Shelf.mem_known.mpr ⟨rfl, (startsWith_slotKey k hop).mp hstart, ?_⟩,
            ?_⟩
          · simpa using hempty
          · rw [Option.some.inj hkey]
      · rw [not_startsWith_recordKey] at hstart
        cases hstart
    · rintro ⟨⟨k, v⟩, he, heq⟩
      obtain ⟨rfl, hhop, hv⟩ := Shelf.mem_known.mp he
      cases heq
      refine ⟨?_, (startsWith_slotKey k hop).mpr hhop⟩
      rw [h.slotText (h.plain hv), Slot.text?, hv]
      rfl

/-- A mirror lists the slots of a hop in which something is known. -/
theorem slotsOf_eq (h : l.Mirrors s) (hop : Hop) :
    l.slotsOf hop = .ok ((s.slotsOf hop).filter fun v => !v.isEmpty) := by
  have hknown : ∀ e ∈ s.known hop, e.2.Of e.1 ∧ e.1.hop = hop ∧ e.2.isEmpty = false := by
    rintro ⟨k, v⟩ he
    obtain ⟨rfl, hhop, hv⟩ := Shelf.mem_known.mp he
    exact ⟨h.slot_of k, hhop, hv⟩
  obtain ⟨es, hes, hp⟩ := (congrFun₂ (List.eq_map_comp_perm _) _ _).mpr (h.starting_hopStart hop)
  have hscan : l.scan Slot.read (hopStart hop) = .ok (es.map Prod.snd) := by
    refine scan_eq hes fun e he => ?_
    have hlegible := (hknown e (hp.subset he)).1.legible
    exact decode_compact (Slot.clean_toJson hlegible) (Slot.read_toJson hlegible)
  have hsource : ((s.known hop).map Prod.snd).Pairwise SourceLT := by
    refine List.pairwise_map.mpr ((s.known_sorted hop).imp_of_mem fun {d e} hd he hlt => ?_)
    obtain ⟨hd, hhop, hdv⟩ := hknown d hd
    obtain ⟨he, hhop', hev⟩ := hknown e he
    exact ⟨_, _, hd.source?_eq hdv, he.source?_eq hev,
      SlotKey.compare_source hlt (hhop.trans hhop'.symm)⟩
  rw [slotsOf, hscan, Shelf.filter_slotsOf]
  exact congrArg Except.ok (mergeSort_slotLE (hp.map Prod.snd) hsource)

theorem confirmed_eq (h : l.Mirrors s) (hop : Hop) : l.confirmed hop = .ok (s.confirmed hop) := by
  rw [Ledger.confirmed, h.slotsOf_eq, Shelf.confirmed]
  refine congrArg Except.ok (List.filterMap_filter.trans ?_)
  congr 1
  funext v
  cases hv : v.isEmpty with
  | false => rfl
  | true =>
    rw [Slot.isEmpty_iff.mp hv]
    rfl

theorem candidates_eq (h : l.Mirrors s) (hop : Hop) :
    l.candidates hop = .ok (s.candidates hop) := by
  rw [Ledger.candidates, h.slotsOf_eq, Shelf.candidates]
  refine congrArg Except.ok ?_
  induction s.slotsOf hop with
  | nil => rfl
  | cons v vs ih =>
    cases hv : v.isEmpty with
    | false => simp [hv, ih]
    | true =>
      rw [List.filter_cons_of_neg (by simp [hv]), ih, Slot.isEmpty_iff.mp hv]
      rfl

end Ledger.Mirrors

/-! ### Records of a connection -/

/-- Texts in their order keep it behind a common start. -/
theorem compare_append_left {a b c d : String} {start : List Char}
    (hb : b.toList = start ++ a.toList) (hd : d.toList = start ++ c.toList)
    (h : compare a c = .lt) : compare b d = .lt := by
  have hlt : a < c := compareOfLessAndEq_eq_lt.mp h
  refine compareOfLessAndEq_eq_lt.mpr ?_
  rw [String.lt_iff, hb, hd]
  exact List.append_left_lt (String.lt_iff.mp hlt)

/-- Keys of records of one connection have the order of the procedures. -/
theorem Ledger.compare_recordKey {p q : ProcedureId} (h : compare p q = .lt)
    (hname : p.connection.name = q.connection.name) :
    compare (recordKey p) (recordKey q) = .lt := by
  have hlex : compare p q =
    (compare p.connection.name q.connection.name).then (compare p.name q.name) := rfl
  rw [hlex, hname, Std.ReflOrd.compare_self (α := String), Ordering.then] at h
  have hkey : ∀ {p : ProcedureId}, p.connection.name = q.connection.name →
      (recordKey p).toList = (connectionStart q.connection.name).toList ++ p.name.toList := by
    intro p hp
    simp [recordKey, connectionStart, joinKey, hp]
  exact compare_append_left (hkey hname) (hkey rfl) h

namespace Shelf

variable {s : Shelf}

/-- The records of a connection, with their procedures. -/
def written (s : Shelf) (connection : String) : List (ProcedureId × Record) :=
  s.records.toList.filter fun e => e.1.connection.name == connection

theorem mem_written {connection : String} {p : ProcedureId} {r : Record} :
    (p, r) ∈ s.written connection ↔ s.record? p = some r ∧ p.connection.name = connection := by
  rw [written, List.mem_filter, Std.TreeMap.mem_toList_iff_getElem?_eq_some, record?, beq_iff_eq]

theorem written_sorted (s : Shelf) (connection : String) :
    (s.written connection).Pairwise fun d e => compare d.1 e.1 = .lt :=
  s.records.ordered_keys_toList.filter _

end Shelf

namespace Ledger.Mirrors

variable {l : Ledger} {s : Shelf}

/-- A mirror has the texts of the records of a connection under the keys with the start of the
connection, and in the same order. -/
theorem starting_connectionStart (h : l.Mirrors s) (a : Alias) :
    l.starting (connectionStart a.name) =
      (s.written a.name).map fun e => (recordKey e.1, Json.compact e.2.toJson) := by
  refine eq_of_sorted (l.starting_sorted _) ?_ ?_
  · refine List.pairwise_map.mpr ((s.written_sorted _).imp_of_mem fun {d e} hd he hlt => ?_)
    have hd' := (Shelf.mem_written.mp hd).2
    have he' := (Shelf.mem_written.mp he).2
    exact compare_recordKey hlt (hd'.trans he'.symm)
  · rintro ⟨key, text⟩
    rw [mem_starting, List.mem_map]
    constructor
    · rintro ⟨hkey, hstart⟩
      rcases h.key_cases hkey with ⟨k, hk, rfl⟩ | ⟨p, rfl⟩
      · rw [not_startsWith_slotKey] at hstart
        cases hstart
      · rw [h.recordText] at hkey
        obtain ⟨r, hr, rfl⟩ := Option.map_eq_some_iff.mp hkey
        exact ⟨(p, r), Shelf.mem_written.mpr ⟨hr, (startsWith_recordKey p a.plain_name).mp hstart⟩, rfl⟩
    · rintro ⟨⟨p, r⟩, he, heq⟩
      obtain ⟨hr, hname⟩ := Shelf.mem_written.mp he
      cases heq
      refine ⟨?_, (startsWith_recordKey p a.plain_name).mpr hname⟩
      rw [h.recordText, hr]
      rfl

theorem recordsOf_eq (h : l.Mirrors s) (a : Alias) :
    l.recordsOf a.name = .ok (s.recordsOf a.name) := by
  refine scan_eq (h.starting_connectionStart a) fun e he => ?_
  obtain ⟨hr, -⟩ := Shelf.mem_written.mp he
  exact decode_compact e.2.clean_toJson (Record.read_toJson (h.record_of hr).2)

/-- A mirror names the procedures of a connection by what their records say, and the shelf by where
it keeps them. -/
theorem hashesOf_eq (h : l.Mirrors s) (a : Alias) :
    l.hashesOf a.name = .ok (s.hashesOf a.name) := by
  rw [Ledger.hashesOf, h.recordsOf_eq, Shelf.recordsOf]
  refine congrArg Except.ok (List.map_map.trans (List.map_congr_left fun e he => ?_))
  obtain ⟨hr, -⟩ := Shelf.mem_written.mp he
  obtain ⟨hid, -⟩ := h.record_of hr
  rw [Function.comp_apply, hid]

end Ledger.Mirrors

end TierLineage
