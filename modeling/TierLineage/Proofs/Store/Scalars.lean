import TierLineage.Proofs.Json.Fields
import TierLineage.Mapping.Slot
import TierLineage.Lineage.Record

/-!
# Names, identifiers and confidences are read back

What is written for an alias, a value of an enumeration or an identifier of 128 bits is read back as
it was.  A confidence that is read back has a numeral that a text can hold.
-/

namespace TierLineage

open TierLineage.Text TierLineage.Digest TierLineage.Number

/-! ### Names -/

theorem trim_eq_self {cs : List Char} (h : ∀ c ∈ cs, isBlank c = false) : trim cs = cs := by
  have hstart : ∀ {ds : List Char}, (∀ c ∈ ds, isBlank c = false) → ds.dropWhile isBlank = ds := by
    intro ds hds
    cases ds with
    | nil => rfl
    | cons d ds => rw [List.dropWhile_cons_of_neg (by simp [hds d])]
  rw [trim, trimBy, trimStartBy, hstart h, trimEndBy, hstart (fun c hc => h c (List.mem_reverse.mp hc)),
    List.reverse_reverse]

theorem Alias.parse_name (a : Alias) : Alias.parse a.name = .ok a := by
  have hvalid := a.valid
  simp only [isAliasName, Bool.and_eq_true, List.all_eq_true, Bool.not_eq_true', bne_iff_ne] at hvalid
  have htrim : trimString a.name = a.name := by
    rw [trimString, trim_eq_self fun c hc => (hvalid.2 c hc).1, String.ofList_toList]
  have hne : a.name.isEmpty = false := by
    rw [String.isEmpty_eq_false_iff]
    intro hempty
    rw [hempty] at hvalid
    exact absurd hvalid.1 (by decide)
  rw [parse, htrim, hne, dif_pos a.valid]
  rfl

theorem Alias.read_toJson (a : Alias) : Alias.read a.toJson = .ok a := by
  simp [Alias.read, Alias.toJson, a.parse_name]
  rfl

theorem Hop.read_toJson (a : Hop) : Named.read (Named.toJson a) = .ok a := by
  cases a <;> rfl

theorem Provenance.read_toJson (a : Provenance) : Named.read (Named.toJson a) = .ok a := by
  cases a <;> rfl

theorem MappingState.read_toJson (a : MappingState) : Named.read (Named.toJson a) = .ok a := by
  cases a <;> rfl

theorem Transformation.read_toJson (a : Transformation) : Named.read (Named.toJson a) = .ok a := by
  cases a <;> rfl

/-! ### Identifiers -/

theorem length_hexDigits (width n : Nat) : (hexDigits width n).length = width := by
  induction width generalizing n with
  | zero => rfl
  | succ w ih => rw [hexDigits, List.length_append, ih, List.length_singleton]

/-- Five groups of digits spell what the digits spell without hyphens. -/
theorem Identifier.ofGroups?_groups {a b c d e : List Char} (ha : a.length = 8) (hb : b.length = 4)
    (hc : c.length = 4) (hd : d.length = 4) (he : e.length = 12) :
    ofGroups? (a ++ '-' :: b ++ '-' :: c ++ '-' :: d ++ '-' :: e) =
      hexNumber? (a ++ b ++ c ++ d ++ e) := by
  simp [ofGroups?, List.getElem?_append, List.drop_append, List.drop_of_length_le, ha, hb, hc, hd, he]

/-- An identifier of 128 bits is read back from its text. -/
theorem Identifier.parse?_text {i : Identifier} (h : i.value < Nat.pow 2 128) :
    Identifier.parse? i.text = some i := by
  have hlen := length_hexDigits 32 i.value
  have hnumber := hexNumber?_hexDigits 32 (n := i.value) h
  rw [Identifier.parse?, Identifier.text, String.toList_ofList]
  generalize hexDigits 32 i.value = ds at hlen hnumber
  have hsplit : ds.take 8 ++ (ds.drop 8).take 4 ++ (ds.drop 12).take 4 ++ (ds.drop 16).take 4 ++
      ds.drop 20 = ds := by
    rw [← List.take_add, ← List.take_add, ← List.take_add, List.take_append_drop]
  have hgroups : ofGroups? (ds.take 8 ++ '-' :: (ds.drop 8).take 4 ++ '-' :: (ds.drop 12).take 4 ++
      '-' :: (ds.drop 16).take 4 ++ '-' :: ds.drop 20) = some i.value := by
    rw [ofGroups?_groups (by simp [hlen]) (by simp [hlen]) (by simp [hlen]) (by simp [hlen])
      (by simp [hlen]), hsplit, hnumber]
  have htext : (ds.take 8 ++ '-' :: (ds.drop 8).take 4 ++ '-' :: (ds.drop 12).take 4 ++
      '-' :: (ds.drop 16).take 4 ++ '-' :: ds.drop 20).length = 36 := by
    simp [hlen]
  generalize ds.take 8 ++ '-' :: (ds.drop 8).take 4 ++ '-' :: (ds.drop 12).take 4 ++
    '-' :: (ds.drop 16).take 4 ++ '-' :: ds.drop 20 = cs at hgroups htext ⊢
  simp [htext, hgroups]

/-! ### Confidences -/

theorem isDigit_of_mem_digitsOf {n : Nat} {c : Char} (h : c ∈ digitsOf n) : c.isDigit = true :=
  Nat.isDigit_of_mem_toDigits (by decide) (by decide) h

theorem digitsOf_ne_nil (n : Nat) : digitsOf n ≠ [] :=
  Nat.toDigits_ne_nil

theorem isDigit_of_mem_placed {cs : List Char} (hcs : ∀ c ∈ cs, c.isDigit = true) (place : Int) :
    (∀ c ∈ (Binary.placed cs place).1, c.isDigit = true) ∧
      ∀ c ∈ (Binary.placed cs place).2, c.isDigit = true := by
  have hzero : ∀ {n : Nat} {c : Char}, c ∈ List.replicate n '0' → c.isDigit = true := by
    intro n c hc
    rw [List.eq_of_mem_replicate hc]
    rfl
  rw [Binary.placed]
  split
  · refine ⟨fun c hc => by rw [List.mem_singleton.mp hc]; rfl, fun c hc => ?_⟩
    exact (List.mem_append.mp hc).elim hzero (hcs c)
  · refine ⟨fun c hc => ?_, fun c hc => hcs c (List.mem_of_mem_drop hc)⟩
    exact (List.mem_append.mp hc).elim (fun h => hcs c (List.mem_of_mem_take h)) hzero

theorem placed_ne_nil {cs : List Char} (hcs : cs ≠ []) (place : Int) :
    (Binary.placed cs place).1 ≠ [] := by
  rw [Binary.placed]
  split
  · exact List.cons_ne_nil _ _
  · simp [hcs]
    omega

/-- The numeral of a decimal is made of digits. -/
theorem Json.Numeral.isDigit_of_mem_whole {s : Bool} {d : Decimal} {c : Char}
    (h : c ∈ (ofDecimal s d).whole) : c.isDigit = true := by
  have hcs : ∀ c ∈ digitsOf d.digits, c.isDigit = true := fun c hc => isDigit_of_mem_digitsOf hc
  rw [ofDecimal] at h
  split at h
  · exact (isDigit_of_mem_placed hcs _).1 c h
  · exact hcs c (List.mem_of_mem_take h)

/-- The numeral of a decimal is clean unless its digits start with a superfluous zero. -/
theorem Json.Numeral.clean_ofDecimal {s : Bool} {d : Decimal}
    (hzero : (ofDecimal s d).whole.head? = some '0' → (ofDecimal s d).whole = ['0']) :
    (ofDecimal s d).Clean := by
  have hcs : ∀ c ∈ digitsOf d.digits, c.isDigit = true := fun c hc => isDigit_of_mem_digitsOf hc
  have hne := digitsOf_ne_nil d.digits
  refine ⟨fun c hc => isDigit_of_mem_whole hc, ?_, hzero, fun c hc => ?_, ?_⟩
  · rw [ofDecimal]
    split
    · exact placed_ne_nil hne _
    · simp [hne]
  · rw [ofDecimal] at hc
    split at hc
    · simp only at hc
      split at hc
      · rw [List.mem_singleton.mp hc]
        rfl
      · exact (isDigit_of_mem_placed hcs _).2 c hc
    · exact hcs c (List.mem_of_mem_drop hc)
  · intro below ds hds
    rw [ofDecimal] at hds
    split at hds
    · cases hds
    · cases hds
      exact ⟨digitsOf_ne_nil _, fun c hc => isDigit_of_mem_digitsOf hc⟩

/-- A text with a superfluous zero is not a number. -/
theorem Json.parse_number_eq_broken {n : Numeral} {c : Char} {cs : List Char}
    (hw : n.whole = '0' :: c :: cs) (hc : c.isDigit = true) :
    (parse (compact (.number n))).root = .broken := by
  cases hneg : n.negative <;>
    simp [parse, compact, print, Numeral.text, hneg, hw, Parser.skip, Parser.isSpace, Parser.value,
      Parser.numeral?, Parser.whole?, hc]

/-- A number that is read back from its text has a clean numeral. -/
theorem Json.clean_single {x : Single}
    (h : decode readSingle (compact (Json.single x)) = .ok x) :
    (Json.single x).Clean ∧ readSingle (Json.single x) = .ok x := by
  suffices hclean : (Json.single x).Clean by
    rw [decode_compact readSingle hclean] at h
    exact ⟨hclean, h⟩
  cases x with
  | finite s u =>
    rw [Json.single, Numeral.ofSingle?] at h ⊢
    by_cases hu : u = 0
    · rw [if_pos hu]
      exact .number ⟨by simp, by simp, by simp, by simp, by simp⟩
    · rw [if_neg hu] at h ⊢
      generalize Binary.trimmed (Binary.shortest Number.single u) = d at h ⊢
      refine .number (Numeral.clean_ofDecimal fun hhead => ?_)
      by_contra hne
      obtain ⟨c, cs, hw⟩ : ∃ c cs, (Numeral.ofDecimal s d).whole = '0' :: c :: cs := by
        generalize (Numeral.ofDecimal s d).whole = whole at hhead hne
        rcases whole with _ | ⟨z, _ | ⟨c, cs⟩⟩ <;> simp_all
      have hc : c.isDigit = true := Numeral.isDigit_of_mem_whole (s := s) (d := d) (by simp [hw])
      simp only [decode, Document.read, parse_number_eq_broken hw hc] at h
      cases h
  | infinite s => exact .null
  | nan => exact .null

end TierLineage
