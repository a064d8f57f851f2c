import TierLineage.Lineage.Record
import TierLineage.Text.WordChar

/-!
# How a column comes about

The transformation of a column is told from its expression: nothing or a star is a copy, a literal
is a constant, a call of an aggregate or a conversion makes it one, a plain column name is a copy
or a renaming, and everything else is an expression.
-/

namespace TierLineage.Answer

open TierLineage.Text

/-! ### Literals -/

/-- One or more decimal digits and nothing else. -/
def allDigits (cs : List Char) : Bool :=
  !cs.isEmpty && cs.all isDecimalDigit

/-- A number: digits, perhaps with a sign, a point and more digits. -/
def isNumber (cs : List Char) : Bool :=
  let unsigned := match cs with
    | '-' :: r => r
    | '+' :: r => r
    | r => r
  match unsigned.dropWhile isDecimalDigit with
  | [] => allDigits unsigned
  | '.' :: fraction => allDigits (unsigned.takeWhile isDecimalDigit) && allDigits fraction
  | _ => false

/-- Whether an expression starts like a string and ends like one. -/
def isQuoted (cs : List Char) : Bool :=
  (startsWith cs ['\x27'] || startsWith cs ['N', '\x27']) && cs.getLast? == some '\x27'

/-- Whether an expression is taken for a literal. -/
def isLiteral (cs : List Char) : Bool :=
  isQuoted cs || isNumber cs || sameIgnoringCase cs "null".toList

/-! ### Calls -/

/-- Whether a character is a given lower-case letter in some case; the long s is an s. -/
def isLetter (lower c : Char) : Bool :=
  c.toLower == lower || (lower == 's' && c.toNat == 0x17F) || (lower == 'k' && c.toNat == 0x212A)

/-- What follows a name, in any letter case, at the start of a text. -/
def afterName? : List Char → List Char → Option (List Char)
  | cs, [] => some cs
  | [], _ :: _ => none
  | c :: cs, n :: ns => if isLetter n c then afterName? cs ns else none

/-- Whether a text starts with a name and an opening parenthesis. -/
def startsCall (names : List (List Char)) (cs : List Char) : Bool :=
  names.any fun name =>
    match afterName? cs name with
    | some rest => (trimStartBy isBlank rest).head? == some '('
    | none => false

/-- Whether one of the names is called somewhere in a text; `inWord` tells whether the character in
front belongs to a word. -/
def calls (names : List (List Char)) : Bool → List Char → Bool
  | _, [] => false
  | inWord, c :: cs => (!inWord && startsCall names (c :: cs)) || calls names (isWordChar c) cs

/-- The aggregate functions. -/
def aggregateNames : List (List Char) :=
  ["sum", "count", "count_big", "avg", "min", "max", "string_agg", "stdev", "var"].map
    String.toList

/-- The conversion functions. -/
def castNames : List (List Char) :=
  ["cast", "try_cast", "convert", "try_convert", "to_date", "to_char", "to_number"].map
    String.toList

/-! ### Columns -/

/-- Whether a character may stand in a column name. -/
def isNameChar (c : Char) : Bool :=
  Table.isQuote c || isWordChar c

/-- Whether an expression is a column name with at most three qualifiers. -/
def isColumnName (cs : List Char) : Bool :=
  let parts := pieces '.' cs
  decide (parts.length ≤ 4) && parts.all fun p => !p.isEmpty && p.all isNameChar

/-- The last part of a dotted name. -/
def lastPart (cs : List Char) : List Char :=
  (pieces '.' cs).getLastD []

/-- A name without the quotes around it. -/
def bare (cs : List Char) : List Char :=
  trimBy Table.isQuote cs

/-- How a target column comes about from an expression. -/
def infer (expression target : List Char) : Transformation :=
  let e := trim expression
  if e.isEmpty ∨ e = ['*'] then .direct
  else if isLiteral e then .constant
  else if calls aggregateNames false e then .aggregate
  else if calls castNames false e then .cast
  else if isColumnName e then
    if sameIgnoringCase (bare (lastPart e)) (bare target) then .direct else .rename
  else .expression

end TierLineage.Answer
