import TierLineage.Text.Utf8

/-!
# Data with gaps

Octets may be read as data although not all of them form characters.  Those that do not spoil the
string in which they stand, as unpaired surrogates do, and are no data outside of strings.
-/

namespace TierLineage.Text

/-- Escapes that spell no character, and leave no other one with half of a character. -/
def unspelled : List Char := "\\udfff\\udfff".toList

/-- Characters with gaps as a text of data.  A string with a gap spells nothing then; right behind a
backslash a gap is no escape, and everywhere else it is no data.  The flag tells whether an escape has
just begun. -/
def withoutGaps : Bool → List (Option Char) → List Char
  | _, [] => []
  | escaping, some c :: cs => c :: withoutGaps (!escaping && c == '\\') cs
  | true, none :: cs => '\x00' :: withoutGaps false cs
  | false, none :: cs => unspelled ++ withoutGaps false cs

/-- The text of octets as data. -/
def dataText (bs : List Nat) : String :=
  String.ofList (withoutGaps false (characters bs))

end TierLineage.Text
