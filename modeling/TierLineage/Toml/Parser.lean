import TierLineage.Toml.Literal
import TierLineage.Toml.Number
import TierLineage.Toml.Tree

/-!
# Reading settings files

A settings file consists of lines: keys with their values, headers of tables, and comments.  The
result is the tree of all tables as data, or nothing if there is a fault anywhere.  Dates are not
read, as no setting is one.
-/

namespace TierLineage.Toml

/-! ### Between the parts -/

/-- Drop white space within the line. -/
def dropSpace (cs : List Char) : List Char :=
  cs.dropWhile isSpace

/-- Drop white space, line breaks and comments. -/
def dropBetween : Bool → List Char → List Char
  | _, [] => []
  | true, c :: cs =>
    if c = '\n' then dropBetween false cs
    else if isLineChar c then dropBetween true cs
    else c :: cs
  | false, c :: cs =>
    if isSpace c || c == '\n' then dropBetween false cs
    else if c = '#' then dropBetween true cs
    else c :: cs

/-- A text whose line breaks are single characters.  A carriage return that is not part of a line
break stays. -/
def withPlainBreaks : List Char → List Char
  | '\r' :: '\n' :: cs => '\n' :: withPlainBreaks cs
  | c :: cs => c :: withPlainBreaks cs
  | [] => []

/-- What follows the end of a line, before which there may be a comment. -/
def afterLine? (cs : List Char) : Option (List Char) :=
  let cs := match dropSpace cs with
    | '#' :: cs => cs.dropWhile isLineChar
    | cs => cs
  match cs with
  | [] => some []
  | '\n' :: cs => some cs
  | _ => none

/-! ### Keys -/

/-- Characters of names without quotes. -/
def isNameChar (c : Char) : Bool :=
  c.isAlphanum || c == '_' || c == '-'

/-- A name. -/
def name? (cs : List Char) : Option (String × List Char) :=
  match cs with
  | '"' :: _ => (short? cs).map fun (t, rest) => (String.ofList t, rest)
  | '\x27' :: _ => (short? cs).map fun (t, rest) => (String.ofList t, rest)
  | _ =>
    let t := cs.takeWhile isNameChar
    if t.isEmpty then none else some (String.ofList t, cs.dropWhile isNameChar)

/-- Names with dots between them: all but the last one, the last one, and what follows.  The number
bounds how many. -/
def key? : Nat → List Char → Option (List String × String × List Char)
  | 0, _ => none
  | bound + 1, cs => do
    let (name, rest) ← name? (dropSpace cs)
    match dropSpace rest with
    | '.' :: rest =>
      let (path, last, rest) ← key? bound rest
      return (name :: path, last, rest)
    | rest => return ([], name, rest)

/-! ### Values -/

mutual

/-- A value, and what follows it.  The number bounds the depth of the recursion. -/
def value? : Nat → List Char → Option (Json × List Char)
  | 0, _ => none
  | bound + 1, cs =>
    match cs with
    | '[' :: rest => do
      let (vs, rest) ← items? bound (dropBetween false rest)
      return (.list vs .lax, rest)
    | '{' :: rest =>
      match dropSpace rest with
      | '}' :: rest => some (Tree.dataOf [], rest)
      | rest => do
        let (es, rest) ← entries? bound [] rest
        return (Tree.dataOf es, rest)
    | '"' :: _ => (string? cs).map fun (t, rest) => (Json.str (String.ofList t), rest)
    | '\x27' :: _ => (string? cs).map fun (t, rest) => (Json.str (String.ofList t), rest)
    | _ => (word? (cs.takeWhile isWordChar)).map (·, cs.dropWhile isWordChar)

/-- The items of a list from the next one on; a comma may stand after the last one. -/
def items? : Nat → List Char → Option (List Json × List Char)
  | 0, _ => none
  | bound + 1, cs =>
    match cs with
    | ']' :: rest => some ([], rest)
    | cs => do
      let (v, rest) ← value? bound cs
      match dropBetween false rest with
      | ',' :: rest =>
        let (vs, rest) ← items? bound (dropBetween false rest)
        return (v :: vs, rest)
      | ']' :: rest => return ([v], rest)
      | _ => none

/-- The entries of a table in braces, put into those before. -/
def entries? : Nat → Tree.Entries → List Char → Option (Tree.Entries × List Char)
  | 0, _, _ => none
  | bound + 1, es, cs => do
    let (path, name, rest) ← key? (cs.length + 1) cs
    match rest with
    | '=' :: rest =>
      let (v, rest) ← value? bound (dropSpace rest)
      let es ← Tree.putValue path name v .header es
      match dropSpace rest with
      | ',' :: rest => entries? bound es rest
      | '}' :: rest => return (es, rest)
      | _ => none
    | _ => none

end

/-! ### Files -/

/-- The tree so far, and the header of the table that is being filled. -/
structure Progress where
  root : Tree.Entries
  header : List String

namespace Progress

/-- Nothing was read. -/
def start : Progress := ⟨[], []⟩

/-- Put a value where a key leads from the last header. -/
def putValue (p : Progress) (path : List String) (name : String) (v : Json) : Option Progress := do
  let root ← Tree.within false (Tree.putValue path name v) p.header .header p.root
  return { p with root := root }

/-- Begin a table. -/
def openTable (p : Progress) (path : List String) (name : String) : Option Progress := do
  return ⟨← Tree.within false (Tree.openTable name) path .header p.root, path ++ [name]⟩

/-- Begin one more of several tables. -/
def openItem (p : Progress) (path : List String) (name : String) : Option Progress := do
  return ⟨← Tree.within false (Tree.openItem name) path .header p.root, path ++ [name]⟩

end Progress

/-- Read a statement from its first character on, and what follows its line. -/
def statement? (p : Progress) (cs : List Char) : Option (Progress × List Char) := do
  match cs with
  | '[' :: '[' :: rest =>
    let (path, name, rest) ← key? (rest.length + 1) rest
    match rest with
    | ']' :: ']' :: rest => return (← p.openItem path name, ← afterLine? rest)
    | _ => none
  | '[' :: rest =>
    let (path, name, rest) ← key? (rest.length + 1) rest
    match rest with
    | ']' :: rest => return (← p.openTable path name, ← afterLine? rest)
    | _ => none
  | cs =>
    let (path, name, rest) ← key? (cs.length + 1) cs
    match rest with
    | '=' :: rest =>
      let (v, rest) ← value? (rest.length + 1) (dropSpace rest)
      return (← p.putValue path name v, ← afterLine? rest)
    | _ => none

/-- Read all statements.  The number bounds how many. -/
def statements? : Nat → Progress → List Char → Option Progress
  | 0, _, _ => none
  | bound + 1, p, cs =>
    match dropBetween false cs with
    | [] => some p
    | cs => do
      let (p, rest) ← statement? p cs
      statements? bound p rest

/-- Read a settings file as data; it may start with a mark of its byte order. -/
def read? (text : String) : Option Json := do
  let cs := match text.toList with
    | '\uFEFF' :: cs => cs
    | cs => cs
  let cs := withPlainBreaks cs
  return Tree.dataOf (← statements? (cs.length + 1) .start cs).root

end TierLineage.Toml
