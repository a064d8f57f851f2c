import TierLineage.Json.Value
import TierLineage.Digest.Hex

/-!
# Reading data text

A strict reader of JSON text: white space is space, tab, carriage return and line feed, strings
hold no raw control characters, numbers have no leading zeros, and nothing follows the value but
white space.  It always answers with a tree, in which the first fault of the text is marked.
-/

namespace TierLineage.Json.Parser

open TierLineage.Digest

/-! ### Leaves -/

/-- White space between the parts of a value. -/
def isSpace (c : Char) : Bool :=
  c == ' ' || c == '\t' || c == '\n' || c == '\r'

/-- Drop leading white space. -/
def skip (cs : List Char) : List Char :=
  cs.dropWhile isSpace

/-- A unit of a string literal: a character, or half of a surrogate pair. -/
inductive Piece where
  | char (c : Char)
  | unit (n : Nat)
  deriving Repr, DecidableEq

/-- The character of a single-letter escape. -/
def shortEscape? : Char → Option Char
  | '"' => some '"'
  | '\\' => some '\\'
  | '/' => some '/'
  | 'b' => some '\x08'
  | 'f' => some '\x0c'
  | 'n' => some '\n'
  | 'r' => some '\r'
  | 't' => some '\t'
  | _ => none

/-- What a four-digit escape stands for. -/
def unitPiece (n : Nat) : Piece :=
  if 0xD800 ≤ n ∧ n < 0xE000 then .unit n else .char (Char.ofNat n)

/-- The pieces of a string literal after its opening quote, and what follows its closing quote. -/
def pieces : List Char → Option (List Piece × List Char)
  | [] => none
  | '"' :: cs => some ([], cs)
  | '\\' :: 'u' :: a :: b :: c :: d :: cs => do
    let n ← hexNumber? [a, b, c, d]
    let (ps, rest) ← pieces cs
    return (unitPiece n :: ps, rest)
  | '\\' :: e :: cs => do
    let c ← shortEscape? e
    let (ps, rest) ← pieces cs
    return (.char c :: ps, rest)
  | c :: cs =>
    if c.toNat < 0x20 ∨ c = '\\' then none
    else do
      let (ps, rest) ← pieces cs
      return (.char c :: ps, rest)

/-- The character of a surrogate pair. -/
def pairChar? (high low : Nat) : Option Char :=
  if high < 0xDC00 ∧ 0xDC00 ≤ low then
    some (Char.ofNat (0x10000 + (high - 0xD800) * 0x400 + (low - 0xDC00)))
  else none

/-- The text of the pieces, if every surrogate is paired. -/
def spelled : List Piece → Option (List Char)
  | [] => some []
  | .char c :: ps => (spelled ps).map (c :: ·)
  | .unit a :: .unit b :: ps => do
    let c ← pairChar? a b
    (spelled ps).map (c :: ·)
  | .unit _ :: _ => none

/-- A string literal after its opening quote. -/
def literal? (cs : List Char) : Option (Option String × List Char) :=
  (pieces cs).map fun (ps, rest) => ((spelled ps).map String.ofList, rest)

/-- One or more digits. -/
def digits? (cs : List Char) : Option (List Char × List Char) :=
  let ds := cs.takeWhile Char.isDigit
  if ds.isEmpty then none else some (ds, cs.dropWhile Char.isDigit)

/-- The digits before the point: a lone zero, or digits that start with another one. -/
def whole? : List Char → Option (List Char × List Char)
  | '0' :: cs =>
    match cs with
    | c :: _ => if c.isDigit then none else some (['0'], cs)
    | [] => some (['0'], [])
  | cs => digits? cs

/-- The digits behind a point, where one stands. -/
def fraction? : List Char → Option (List Char × List Char)
  | '.' :: cs => digits? cs
  | cs => some ([], cs)

/-- The sign and the digits of an exponent, where one stands. -/
def exponent? : List Char → Option (Option (Bool × List Char) × List Char)
  | c :: cs =>
    if c = 'e' ∨ c = 'E' then
      let (below, cs) := match cs with
        | '-' :: r => (true, r)
        | '+' :: r => (false, r)
        | r => (false, r)
      (digits? cs).map fun (ds, rest) => (some (below, ds), rest)
    else some (none, c :: cs)
  | [] => some (none, [])

/-- A number. -/
def numeral? (cs : List Char) : Option (Numeral × List Char) := do
  let (negative, cs) := match cs with
    | '-' :: r => (true, r)
    | r => (false, r)
  let (whole, cs) ← whole? cs
  let (fraction, cs) ← fraction? cs
  let (exponent, cs) ← exponent? cs
  return (⟨negative, whole, fraction, exponent⟩, cs)

/-! ### Trees -/

mutual

/-- A value, and what follows it.  The number bounds the depth of the recursion. -/
def value : Nat → List Char → Json × List Char
  | 0, _ => (.broken, [])
  | bound + 1, cs =>
    match cs with
    | 'n' :: 'u' :: 'l' :: 'l' :: rest => (.null, rest)
    | 't' :: 'r' :: 'u' :: 'e' :: rest => (.bool true, rest)
    | 'f' :: 'a' :: 'l' :: 's' :: 'e' :: rest => (.bool false, rest)
    | '"' :: rest =>
      match literal? rest with
      | some (s, rest) => (.text s, rest)
      | none => (.broken, [])
    | '[' :: rest =>
      match skip rest with
      | ']' :: rest => (.list [] .closed, rest)
      | rest =>
        let (vs, ending, rest) := items bound rest
        (.list vs ending, rest)
    | '{' :: rest =>
      match skip rest with
      | '}' :: rest => (.record [] .closed, rest)
      | rest =>
        let (es, ending, rest) := entries bound rest
        (.record es ending, rest)
    | cs =>
      match numeral? cs with
      | some (n, rest) => (.number n, rest)
      | none => (.broken, [])

/-- The items of a list from the next one on. -/
def items : Nat → List Char → List Json × Ending × List Char
  | 0, _ => ([], .unfinished, [])
  | bound + 1, cs =>
    let (v, rest) := value bound cs
    if !v.finished then ([v], .unfinished, [])
    else match skip rest with
      | ',' :: rest =>
        let (vs, ending, rest) := items bound (skip rest)
        (v :: vs, ending, rest)
      | ']' :: rest => ([v], .closed, rest)
      | _ => ([v], .unfinished, [])

/-- The entries of a record from the next one on. -/
def entries : Nat → List Char → List (Option String × Json) × Ending × List Char
  | 0, _ => ([], .unfinished, [])
  | bound + 1, cs =>
    match cs with
    | '"' :: rest =>
      match literal? rest with
      | none => ([], .unfinished, [])
      | some (k, rest) =>
        match skip rest with
        | ':' :: rest =>
          let (v, rest) := value bound (skip rest)
          if !v.finished then ([(k, v)], .unfinished, [])
          else match skip rest with
            | ',' :: rest =>
              let (es, ending, rest) := entries bound (skip rest)
              ((k, v) :: es, ending, rest)
            | '}' :: rest => ([(k, v)], .closed, rest)
            | _ => ([(k, v)], .unfinished, [])
        | _ => ([(k, .broken)], .unfinished, [])
    | _ => ([], .unfinished, [])

end

end Parser

/-- The tree of a text, and whether nothing but white space follows it. -/
structure Document where
  root : Json
  complete : Bool

/-- Read a text. -/
def parse (text : String) : Document :=
  let cs := text.toList
  let (v, rest) := Parser.value (cs.length + 1) (Parser.skip cs)
  ⟨v, (Parser.skip rest).isEmpty⟩

end TierLineage.Json
