import TierLineage.Text.Run

/-!
# White space

The Unicode property `White_Space` and the removal of white space at the ends of a text.
-/

namespace TierLineage.Text

/-- White-space code points from `0x80` on. -/
def blankRuns : List Run := [
  ⟨0x85, 0x85, 1⟩, ⟨0xA0, 0xA0, 1⟩, ⟨0x1680, 0x1680, 1⟩, ⟨0x2000, 0x200A, 1⟩,
  ⟨0x2028, 0x2029, 1⟩, ⟨0x202F, 0x202F, 1⟩, ⟨0x205F, 0x205F, 1⟩, ⟨0x3000, 0x3000, 1⟩]

/-- White space below `0x80`: tab, line feed, the two vertical feeds, carriage return, space. -/
def isAsciiBlank (c : Char) : Bool :=
  c == ' ' || (decide (9 ≤ c.toNat) && decide (c.toNat ≤ 13))

/-- Whether a character is white space. -/
def isBlank (c : Char) : Bool :=
  byTable isAsciiBlank blankRuns c

/-- Drop leading characters of a class. -/
def trimStartBy (p : Char → Bool) (cs : List Char) : List Char :=
  cs.dropWhile p

/-- Drop trailing characters of a class. -/
def trimEndBy (p : Char → Bool) (cs : List Char) : List Char :=
  (cs.reverse.dropWhile p).reverse

/-- Drop the characters of a class at both ends. -/
def trimBy (p : Char → Bool) (cs : List Char) : List Char :=
  trimEndBy p (trimStartBy p cs)

/-- Drop white space at both ends. -/
def trim (cs : List Char) : List Char :=
  trimBy isBlank cs

/-- Drop white space at both ends of a string. -/
def trimString (s : String) : String :=
  String.ofList (trim s.toList)

/-- Whether a string holds nothing but white space. -/
def isBlankString (s : String) : Bool :=
  s.toList.all isBlank

end TierLineage.Text
