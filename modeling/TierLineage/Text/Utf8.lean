/-!
# UTF-8

Texts as octets.  The first octet of a character tells how many follow and between which bounds the
next one lies; all later ones lie between `0x80` and `0xBF`.  Octets that form no character are
refused, or read as the replacement character, where the longest start of a character counts as
one.
-/

namespace TierLineage.Text

/-! ### Encoding -/

/-- The octets of a code point. -/
def octetsOfNat (n : Nat) : List Nat :=
  if n < 0x80 then [n]
  else if n < 0x800 then [0xC0 + n / 0x40, 0x80 + n % 0x40]
  else if n < 0x10000 then [0xE0 + n / 0x1000, 0x80 + n / 0x40 % 0x40, 0x80 + n % 0x40]
  else [0xF0 + n / 0x40000, 0x80 + n / 0x1000 % 0x40, 0x80 + n / 0x40 % 0x40, 0x80 + n % 0x40]

/-- The octets of a text. -/
def octets (cs : List Char) : List Nat :=
  cs.flatMap fun c => octetsOfNat c.toNat

/-! ### Decoding -/

/-- What the first octet of a longer character tells: its own bits, how many octets follow, and the
bounds of the next one. -/
structure Lead where
  bits : Nat
  following : Nat
  low : Nat
  high : Nat
  deriving Repr, DecidableEq

/-- Read the first octet of a longer character. -/
def lead? (b : Nat) : Option Lead :=
  if 0xC2 ≤ b ∧ b ≤ 0xDF then some ⟨b - 0xC0, 1, 0x80, 0xBF⟩
  else if b = 0xE0 then some ⟨0, 2, 0xA0, 0xBF⟩
  else if b = 0xED then some ⟨0xD, 2, 0x80, 0x9F⟩
  else if 0xE1 ≤ b ∧ b ≤ 0xEF then some ⟨b - 0xE0, 2, 0x80, 0xBF⟩
  else if b = 0xF0 then some ⟨0, 3, 0x90, 0xBF⟩
  else if b = 0xF4 then some ⟨4, 3, 0x80, 0x8F⟩
  else if 0xF1 ≤ b ∧ b ≤ 0xF3 then some ⟨b - 0xF0, 3, 0x80, 0xBF⟩
  else none

/-- The octets that may follow: at most a number of them, the first one between bounds. -/
def followers : Nat → Nat → Nat → List Nat → List Nat
  | n + 1, low, high, b :: bs =>
    if low ≤ b ∧ b ≤ high then b :: followers n 0x80 0xBF bs else []
  | _, _, _, _ => []

/-- The code point of a lead and its followers. -/
def codePoint (bits : Nat) (bs : List Nat) : Nat :=
  bs.foldl (fun n b => n * 0x40 + (b - 0x80)) bits

/-- The characters of octets, with a gap in place of octets that form none. -/
def characters : List Nat → List (Option Char)
  | [] => []
  | b :: bs =>
    if b < 0x80 then some (Char.ofNat b) :: characters bs
    else match lead? b with
      | none => none :: characters bs
      | some l =>
        let fs := followers l.following l.low l.high bs
        let c := if fs.length = l.following then some (Char.ofNat (codePoint l.bits fs)) else none
        c :: characters (bs.drop fs.length)
termination_by bs => bs.length
decreasing_by all_goals simp; try omega

/-- The text of octets, if all of them form characters. -/
def decode? (bs : List Nat) : Option (List Char) :=
  (characters bs).mapM id

/-- The text of octets, with the replacement character in place of gaps. -/
def decodeLossy (bs : List Nat) : List Char :=
  (characters bs).map fun c => c.getD '\uFFFD'

end TierLineage.Text
