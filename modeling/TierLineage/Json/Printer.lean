import TierLineage.Json.Value
import TierLineage.Digest.Hex

/-!
# Writing data text

The compact text of a value: no white space, entries in their order, and in strings only the
quote, the backslash and control characters escaped.
-/

namespace TierLineage.Json

open TierLineage.Digest

/-- A character inside a string literal. -/
def escaped (c : Char) : List Char :=
  if c = '"' then ['\\', '"']
  else if c = '\\' then ['\\', '\\']
  else if c = '\n' then ['\\', 'n']
  else if c = '\r' then ['\\', 'r']
  else if c = '\t' then ['\\', 't']
  else if c = '\x08' then ['\\', 'b']
  else if c = '\x0c' then ['\\', 'f']
  else if c.toNat < 0x20 then '\\' :: 'u' :: hexDigits 4 c.toNat
  else [c]

/-- A string literal. -/
def quoted (s : String) : List Char :=
  '"' :: (s.toList.flatMap escaped ++ ['"'])

mutual

/-- The text of a value; what no finished text of this format gives rise to is written as
`null`. -/
def print : Json → List Char
  | .null => "null".toList
  | .bool b => (if b then "true" else "false").toList
  | .number n => n.text
  | .measured _ => "null".toList
  | .text (some s) => quoted s
  | .text none => "null".toList
  | .list items _ => '[' :: (printItems items ++ [']'])
  | .record entries _ => '\x7b' :: (printEntries entries ++ ['\x7d'])
  | .broken => "null".toList

/-- The items of a list with commas between them. -/
def printItems : List Json → List Char
  | [] => []
  | [v] => print v
  | v :: w :: vs => print v ++ ',' :: printItems (w :: vs)

/-- The entries of a record with commas between them. -/
def printEntries : List (Option String × Json) → List Char
  | [] => []
  | [(k, v)] => quoted (k.getD "") ++ ':' :: print v
  | (k, v) :: e :: es => quoted (k.getD "") ++ ':' :: print v ++ ',' :: printEntries (e :: es)

end

/-- The compact text of a value. -/
def compact (v : Json) : String :=
  String.ofList (print v)

end TierLineage.Json
