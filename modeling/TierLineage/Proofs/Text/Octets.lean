import TierLineage.Text.Utf8
import Mathlib.Data.List.Basic

/-!
# Texts and their octets

The octets of a text are read as its characters, without a gap.
-/

namespace TierLineage.Text

variable {b n low high : Nat} {l : Lead} {fs bs : List Nat}

theorem followers_cons (hlow : low ≤ b) (hhigh : b ≤ high) :
    followers (n + 1) low high (b :: bs) = b :: followers n 0x80 0xBF bs := by
  rw [followers, if_pos ⟨hlow, hhigh⟩]

/-- A lead with all its followers is a character. -/
theorem characters_lead (hb : 0x80 ≤ b) (hlead : lead? b = some l)
    (hfollow : followers l.following l.low l.high (fs ++ bs) = fs)
    (hlength : fs.length = l.following) :
    characters (b :: (fs ++ bs)) = some (Char.ofNat (codePoint l.bits fs)) :: characters bs := by
  rw [characters, if_neg (Nat.not_lt.mpr hb), hlead]
  simp only [hfollow, hlength, if_true]
  rw [← hlength, List.drop_left]

/-- What the leads of characters of two, three and four octets tell. -/
theorem lead?_two (h : 2 ≤ n) (h' : n < 0x20) : lead? (0xC0 + n) = some ⟨n, 1, 0x80, 0xBF⟩ := by
  rw [lead?, if_pos (by omega), Nat.add_sub_cancel_left]

theorem lead?_three (h : n < 0x10) : lead? (0xE0 + n) =
    some ⟨n, 2, if n = 0 then 0xA0 else 0x80, if n = 0xD then 0x9F else 0xBF⟩ := by
  decide +revert

theorem lead?_four (h : n < 5) : lead? (0xF0 + n) =
    some ⟨n, 3, if n = 0 then 0x90 else 0x80, if n = 4 then 0x8F else 0xBF⟩ := by
  decide +revert

theorem characters_octetsOfNat (c : Char) (bs : List Nat) :
    characters (octetsOfNat c.toNat ++ bs) = some c :: characters bs := by
  have hvalid : c.toNat < 0xD800 ∨ 0xDFFF < c.toNat ∧ c.toNat < 0x110000 := c.valid
  have hchar : Char.ofNat c.toNat = c := Char.ofNat_toNat c
  generalize c.toNat = n at hvalid hchar
  rw [octetsOfNat]
  split
  · next h => rw [List.singleton_append, characters, if_pos h, hchar]
  · split
    · have hlead := lead?_two (n := n / 0x40) (by omega) (by omega)
      have hcode : codePoint (n / 0x40) [0x80 + n % 0x40] = n := by
        simp only [codePoint, List.foldl_cons, List.foldl_nil]
        omega
      have hfollow : followers 1 0x80 0xBF ([0x80 + n % 0x40] ++ bs) = [0x80 + n % 0x40] :=
        followers_cons (n := 0) (by omega) (by omega)
      have hread := characters_lead (by omega) hlead hfollow rfl
      rw [hcode, hchar] at hread
      exact hread
    · split
      · -- the bounds of the first follower keep out surrogates and what is too short
        have hlead := lead?_three (n := n / 0x1000) (by omega)
        have hcode : codePoint (n / 0x1000) [0x80 + n / 0x40 % 0x40, 0x80 + n % 0x40] = n := by
          simp only [codePoint, List.foldl_cons, List.foldl_nil]
          omega
        have hfollow : followers 2 (if n / 0x1000 = 0 then 0xA0 else 0x80)
            (if n / 0x1000 = 0xD then 0x9F else 0xBF)
            ([0x80 + n / 0x40 % 0x40, 0x80 + n % 0x40] ++ bs) =
              [0x80 + n / 0x40 % 0x40, 0x80 + n % 0x40] := by
          refine (followers_cons (by split <;> omega) (by split <;> omega)).trans ?_
          exact congrArg _ (followers_cons (n := 0) (by omega) (by omega))
        have hread := characters_lead (by omega) hlead hfollow rfl
        rw [hcode, hchar] at hread
        exact hread
      · have hlead := lead?_four (n := n / 0x40000) (by omega)
        have hcode : codePoint (n / 0x40000)
            [0x80 + n / 0x1000 % 0x40, 0x80 + n / 0x40 % 0x40, 0x80 + n % 0x40] = n := by
          simp only [codePoint, List.foldl_cons, List.foldl_nil]
          omega
        have hfollow : followers 3 (if n / 0x40000 = 0 then 0x90 else 0x80)
            (if n / 0x40000 = 4 then 0x8F else 0xBF)
            ([0x80 + n / 0x1000 % 0x40, 0x80 + n / 0x40 % 0x40, 0x80 + n % 0x40] ++ bs) =
              [0x80 + n / 0x1000 % 0x40, 0x80 + n / 0x40 % 0x40, 0x80 + n % 0x40] := by
          refine (followers_cons (by split <;> omega) (by split <;> omega)).trans ?_
          refine congrArg _ ((followers_cons (by omega) (by omega)).trans ?_)
          exact congrArg _ (followers_cons (n := 0) (by omega) (by omega))
        have hread := characters_lead (by omega) hlead hfollow rfl
        rw [hcode, hchar] at hread
        exact hread

/-- The octets of a text are those of its characters. -/
theorem characters_octets (cs : List Char) : characters (octets cs) = cs.map some := by
  induction cs with
  | nil => rw [octets, List.flatMap_nil, characters, List.map_nil]
  | cons c cs ih =>
    rw [octets, List.flatMap_cons, characters_octetsOfNat, List.map_cons]
    exact congrArg _ ih

end TierLineage.Text
