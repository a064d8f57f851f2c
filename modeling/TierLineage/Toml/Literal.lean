import TierLineage.Digest.Hex

/-!
# Strings of settings files

A string stands between single or double quotes; between double quotes there may be escapes.  Three
quotes at either end let the string run over several lines: a line break right after the opening
quotes does not count, up to two quotes may stand anywhere inside, and an escaped line break is
dropped together with all white space after it.  Line breaks are line feeds here.
-/

namespace TierLineage.Toml

open TierLineage.Digest

/-- A text that was read, and what follows it. -/
abbrev Read := Option (List Char × List Char)

/-- Characters of a line: all but controls, of which only the tabulator may stand there. -/
def isLineChar (c : Char) : Bool :=
  c == '\t' || (decide (0x20 ≤ c.toNat) && c.toNat != 0x7F)

/-- White space within a line. -/
def isSpace (c : Char) : Bool :=
  c == ' ' || c == '\t'

/-- What stands after a line break, if there is one. -/
def afterBreak? : List Char → Option (List Char)
  | '\n' :: cs => some cs
  | _ => none

/-- Drop white space and line breaks. -/
def dropSpaceAndBreaks (cs : List Char) : List Char :=
  cs.dropWhile fun c => isSpace c || c == '\n'

/-! ### Escapes -/

/-- The character with a number given by hexadecimal digits. -/
def numbered? (digits : List Char) : Option Char :=
  (hexNumber? digits).bind fun n => if n.isValidChar then some (Char.ofNat n) else none

/-- The character of an escape from after its backslash, and what follows it. -/
def escape? : List Char → Option (Char × List Char)
  | 'b' :: cs => some ('\x08', cs)
  | 'f' :: cs => some ('\x0c', cs)
  | 'n' :: cs => some ('\n', cs)
  | 'r' :: cs => some ('\r', cs)
  | 't' :: cs => some ('\t', cs)
  | '"' :: cs => some ('"', cs)
  | '\\' :: cs => some ('\\', cs)
  | 'u' :: a :: b :: c :: d :: cs => (numbered? [a, b, c, d]).map (·, cs)
  | 'U' :: a :: b :: c :: d :: e :: f :: g :: h :: cs =>
    (numbered? [a, b, c, d, e, f, g, h]).map (·, cs)
  | _ => none

/-! ### One line -/

/-- A string from after its opening quote, without escapes. -/
def plain? : List Char → Read
  | [] => none
  | c :: cs =>
    if c = '\x27' then some ([], cs)
    else if isLineChar c then (plain? cs).map fun (t, rest) => (c :: t, rest)
    else none

/-- A string from after its opening quote, with escapes.  The number bounds its length. -/
def escaped? : Nat → List Char → Read
  | 0, _ => none
  | _, [] => none
  | _, '"' :: cs => some ([], cs)
  | bound + 1, '\\' :: cs => do
    let (c, rest) ← escape? cs
    let (t, rest) ← escaped? bound rest
    return (c :: t, rest)
  | bound + 1, c :: cs =>
    if isLineChar c then (escaped? bound cs).map fun (t, rest) => (c :: t, rest) else none

/-! ### Several lines -/

/-- The quotes inside the string before the three at its end, and what follows those. -/
def closing? (quote : Char) (cs : List Char) : Read :=
  let count := (cs.takeWhile (· == quote)).length
  if count < 3 then none
  else
    let inside := min (count - 3) 2
    some (List.replicate inside quote, cs.drop (inside + 3))

/-- What stands after an escaped line break, from after its backslash. -/
def afterEscapedBreak? (cs : List Char) : Option (List Char) :=
  (afterBreak? (cs.dropWhile isSpace)).map dropSpaceAndBreaks

/-- A string over several lines from after its opening quotes.  The number bounds its length. -/
def lines? (quote : Char) (escapes : Bool) : Nat → List Char → Read
  | 0, _ => none
  | bound + 1, cs =>
    match closing? quote cs, cs with
    | some (t, rest), _ => some (t, rest)
    | none, [] => none
    | none, c :: rest =>
      if escapes && c == '\\' then
        match afterEscapedBreak? rest with
        | some rest => lines? quote escapes bound rest
        | none => do
          let (c, rest) ← escape? rest
          let (t, rest) ← lines? quote escapes bound rest
          return (c :: t, rest)
      else
        match afterBreak? cs with
        | some rest => (lines? quote escapes bound rest).map fun (t, rest) => ('\n' :: t, rest)
        | none =>
          if isLineChar c then
            (lines? quote escapes bound rest).map fun (t, rest) => (c :: t, rest)
          else none

/-! ### Strings -/

/-- A string over several lines from after its opening quotes and the line break behind them. -/
def linesOf (quote : Char) (escapes : Bool) (cs : List Char) : Read :=
  let cs := (afterBreak? cs).getD cs
  lines? quote escapes (cs.length + 1) cs

/-- A string on one line. -/
def short? : List Char → Read
  | '"' :: cs => escaped? (cs.length + 1) cs
  | '\x27' :: cs => plain? cs
  | _ => none

/-- A string. -/
def string? : List Char → Read
  | '"' :: '"' :: '"' :: cs => linesOf '"' true cs
  | '\x27' :: '\x27' :: '\x27' :: cs => linesOf '\x27' false cs
  | cs => short? cs

end TierLineage.Toml
