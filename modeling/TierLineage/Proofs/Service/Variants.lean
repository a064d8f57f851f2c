import Mathlib.Data.String.Basic
import TierLineage.Proofs.Service.Checks
import TierLineage.Proofs.Store.Key

/-!
# Tables up to letter case

A listing may have tables that differ in the case of ASCII letters only.  A table that is listed
means the first of its variants in the listing, which is in order; so it means itself exactly if no
variant of it comes before it.  Variants have keys of one length.
-/

namespace TierLineage

open TierLineage.Mappings

/-! ### Lengths -/

theorem utf8Size_of_ascii {c : Char} (h : c.val ≤ 127) : c.utf8Size = 1 := by
  rw [Char.utf8Size]
  exact if_pos h

theorem utf8Size_toLower (c : Char) : c.toLower.utf8Size = c.utf8Size := by
  by_cases h : c.val ≥ 'A'.val ∧ c.val ≤ 'Z'.val
  · have hupper : c.val.toNat ≤ 90 := h.2
    have hlower : c.toLower = ⟨c.val + ('a'.val - 'A'.val), _⟩ := dif_pos h
    rw [hlower, utf8Size_of_ascii, utf8Size_of_ascii]
    · exact UInt32.le_iff_toNat_le.mpr (Nat.le_trans hupper (by decide))
    · refine UInt32.le_iff_toNat_le.mpr ?_
      change (c.val.toNat + 32) % 2 ^ 32 ≤ 127
      omega
  · have hsame : c.toLower = c := dif_neg h
    rw [hsame]

/-- Texts that are equal up to letter case have one length. -/
theorem Text.utf8ByteSize_eq {a b : String} (h : sameStringIgnoringCase a b = true) :
    a.utf8ByteSize = b.utf8ByteSize := by
  have hlower : ∀ cs : List Char, String.utf8Len (cs.map Char.toLower) = String.utf8Len cs := by
    intro cs
    induction cs with
    | nil => rfl
    | cons c cs ih =>
      rw [List.map_cons, String.utf8Len_cons, String.utf8Len_cons, ih, utf8Size_toLower]
  rw [← String.utf8Len_toList, ← String.utf8Len_toList, ← hlower, eq_of_beq h, hlower]

theorem Text.sameStringIgnoringCase_refl (a : String) : sameStringIgnoringCase a a = true :=
  beq_self_eq_true _

/-! ### Variants -/

/-- No text comes before the empty one. -/
theorem eq_empty_of_compare {s : String} (h : compare s "" ≠ .gt) : s = "" := by
  cases hs : compare s "" with
  | lt =>
    have hlt : s.toList < "".toList := String.lt_iff_toList_lt.mp (compareOfLessAndEq_eq_lt.mp hs)
    exact absurd hlt (List.not_lt_nil _)
  | eq => exact Std.LawfulEqOrd.eq_of_compare hs
  | gt => exact absurd hs h

namespace Table

variable {t u : Table}

/-- Whether a table differs from another one in letter case at most. -/
structure Variant (t u : Table) : Prop where
  connection_eq : u.connection = t.connection
  database : Text.sameStringIgnoringCase u.database t.database = true
  schema : Text.sameStringIgnoringCase u.schema t.schema = true
  name : Text.sameStringIgnoringCase u.name t.name = true

theorem variant_refl (t : Table) : t.Variant t :=
  ⟨rfl, Text.sameStringIgnoringCase_refl _, Text.sameStringIgnoringCase_refl _,
    Text.sameStringIgnoringCase_refl _⟩

/-- A variant in a listing is one that may be meant. -/
theorem Variant.means (h : t.Variant u) : t.means u = true := by
  rw [Table.means, sameObject, h.schema, h.name, h.database, Bool.or_true]
  rfl

/-- What a listed table means is a variant of it, if it is not behind it: no database comes before
the one that is not given. -/
theorem variant_of_means (hconnection : u.connection = t.connection) (h : t.means u = true)
    (hle : compare u t ≠ .gt) : t.Variant u := by
  rw [Table.means, sameObject, Bool.and_eq_true, Bool.and_eq_true, Bool.or_eq_true] at h
  obtain ⟨⟨hschema, hname⟩, hdatabase⟩ := h
  refine ⟨hconnection, hdatabase.elim (fun hempty => ?_) id, hschema, hname⟩
  have hnil : t.database = "" := String.isEmpty_iff.mp hempty
  have hu : u.database = t.database := by
    rw [hnil]
    refine eq_empty_of_compare fun hgt => hle ?_
    have hcompare : compare u t = (compare u.connection t.connection).then
        ((compare u.database t.database).then ((compare u.schema t.schema).then
          (compare u.name t.name))) := rfl
    rw [hcompare, hconnection, Std.ReflOrd.compare_self, hnil, hgt]
    rfl
  rw [hu]
  exact Text.sameStringIgnoringCase_refl _

end Table

/-- Slots of variants have keys of one length. -/
theorem Ledger.utf8ByteSize_slotKey {t u : Table} (h : t.Variant u) (hop : Hop) :
    (slotKey ⟨hop, u⟩).utf8ByteSize = (slotKey ⟨hop, t⟩).utf8ByteSize := by
  simp only [slotKey, joinKey, String.utf8ByteSize_append, h.connection_eq,
    Text.utf8ByteSize_eq h.database, Text.utf8ByteSize_eq h.schema, Text.utf8ByteSize_eq h.name]

/-! ### What a listed table means -/

/-- A table in a listing that is in order means the first of its variants. -/
theorem Mappings.exists_listed_of_mem {ts : List Table} {t : Table}
    (hsorted : ts.Pairwise (compare · · = .lt)) (hown : ∀ u ∈ ts, u.connection = t.connection)
    (ht : t ∈ ts) : ∃ u ∈ ts, listed ts t = .ok u ∧ t.Variant u ∧
      ∀ v ∈ ts, t.Variant v → v = u ∨ compare u v = .lt := by
  rw [listed_eq]
  cases hfind : ts.find? t.means with
  | none => exact absurd t.variant_refl.means (List.find?_eq_none.mp hfind t ht)
  | some u =>
    have hu := List.mem_of_find?_eq_some hfind
    obtain ⟨hmeans, before, behind, rfl, hbefore⟩ := List.find?_eq_some_iff_append.mp hfind
    -- nothing before the first hit is a hit, and what is behind it comes later in the order
    have hfirst : ∀ v ∈ before ++ u :: behind, t.Variant v → v = u ∨ compare u v = .lt := by
      intro v hv hvariant
      rcases List.mem_append.mp hv with hv | hv
      · have hnot := hbefore v hv
        rw [hvariant.means] at hnot
        cases hnot
      · refine (List.mem_cons.mp hv).imp_right fun hv => ?_
        exact (List.pairwise_cons.mp (List.pairwise_append.mp hsorted).2.1).1 v hv
    refine ⟨u, hu, rfl, Table.variant_of_means (hown u hu) hmeans ?_, hfirst⟩
    rcases hfirst t ht t.variant_refl with heq | hlt
    · rw [heq, Std.ReflOrd.compare_self]
      exact Ordering.noConfusion
    · rw [hlt]
      exact Ordering.noConfusion

/-- Whether a table is the first of the variants of a table that the connections of a tier list. -/
structure World.First (w : World) (tier : Tier) (t u : Table) : Prop where
  variant : t.Variant u
  lists : w.Lists tier u
  least : ∀ v, w.Lists tier v → t.Variant v → v = u ∨ compare u v = .lt

namespace World

variable {w : World} {tier : Tier} {t u : Table}

/-- A listed table is the first of its variants exactly if none of them comes before it. -/
theorem First.eq_iff (h : w.First tier t u) (ht : w.Lists tier t) :
    u = t ↔ ∀ v, w.Lists tier v → t.Variant v → compare v t ≠ .lt := by
  constructor
  · rintro rfl v hv hvariant hlt
    rcases h.least v hv hvariant with rfl | hgt
    · exact Std.OrientedCmp.not_lt_of_lt hlt hlt
    · exact Std.OrientedCmp.not_lt_of_lt hlt hgt
  · intro hnone
    exact ((h.least t ht t.variant_refl).resolve_right (hnone u h.lists h.variant)).symm

/-- A listed table means the first of its variants, where tables are looked up. -/
theorem Regular.exists_meant (hw : w.Regular) (hverify : w.engine.verifyConfirmedTables = true)
    (ht : w.Lists tier t) :
    ∃ u, meant w.engine w.surroundings t = .ok u ∧ w.First tier t u := by
  obtain ⟨htier, ts, hts, hmem⟩ := ht
  obtain ⟨hsorted, hown⟩ := Catalog.All.tables hw.catalog.placed (tables_of_listTables hts)
  obtain ⟨u, hu, hlisted, hvariant, hleast⟩ := exists_listed_of_mem hsorted hown hmem
  refine ⟨u, ?_, hvariant, ?_, ?_⟩
  · rw [meant, if_pos hverify, hts]
    exact hlisted
  · exact ⟨hvariant.connection_eq ▸ htier, ts, hvariant.connection_eq ▸ hts, hu⟩
  · -- the variants of a table are in the listing of its connection
    rintro v ⟨-, vs, hvs, hv⟩ hvariant'
    rw [hvariant'.connection_eq, hts] at hvs
    exact hleast v (Except.ok.inj hvs ▸ hv) hvariant'

/-- Listed tables of both sides of a hop are valid on their connections. -/
theorem Regular.checkPair_eq_ok (hw : w.Regular) (hchecked : w.surroundings.catalog.Checked)
    {hop : Hop} {source target : Table} (hs : w.Lists hop.start source)
    (ht : w.Lists hop.target target) : checkPair w.registry hop source target = .ok () := by
  have hvalid : ∀ {tier : Tier} {t : Table}, w.Lists tier t → t.validate = .ok () := by
    rintro tier t ⟨-, ts, hts, hmem⟩
    exact (Catalog.All.tables hchecked (tables_of_listTables hts)).2 t hmem
  have htier : ∀ {tier : Tier} {t : Table}, w.Lists tier t →
      ∃ c, w.registry.requireTier t.connection.name tier = .ok c := by
    rintro tier t ⟨halias, -⟩
    obtain ⟨c, hc, htier⟩ := (Registry.mem_aliasesOf hw.named).mp halias
    refine ⟨c, ?_⟩
    rw [Registry.requireTier, hc]
    exact if_pos htier
  obtain ⟨c, hc⟩ := htier hs
  obtain ⟨d, hd⟩ := htier ht
  rw [checkPair, hvalid hs, hvalid ht, hc, hd]
  rfl

end World

end TierLineage
