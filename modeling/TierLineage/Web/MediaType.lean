/-!
# Media types

A media type is two tokens with a slash between them, and perhaps parameters: a semicolon, a name,
an equals sign and a token or a quoted text.  The second token may end in a plus sign and a suffix.
A body is JSON if its type is `application` and its second token or its suffix is `json`, in any
letter case.
-/

namespace TierLineage.Web

/-- The characters of tokens. -/
def isTokenChar (c : Char) : Bool :=
  c.isAlphanum || "!#$%&'*+-.^_\x60|~".toList.contains c

/-- The characters of header values that are texts. -/
def isVisible (c : Char) : Bool :=
  c == '\t' || (decide (0x20 ≤ c.toNat) && decide (c.toNat < 0x7F))

/-- The characters inside quotes. -/
def isQuotedChar (c : Char) : Bool :=
  decide (0x1F < c.toNat) && c.toNat != 0x7F

/-- A media type without its parameters, in lower case. -/
structure MediaType where
  main : List Char
  sub : List Char
  suffix : Option (List Char)
  deriving Repr, DecidableEq

namespace MediaType

/-! ### Parameters -/

/-- What stands after a quoted text, from after its opening quote; a quote cannot stand first. -/
def afterQuoted? : Bool → List Char → Option (List Char)
  | _, [] => none
  | first, c :: cs =>
    if c = '"' ∧ !first then some cs
    else if isQuotedChar c then afterQuoted? false cs
    else none

/-- What stands after the blanks and the semicolon behind a quoted text. -/
def afterBlanks? (cs : List Char) : Option (List Char) :=
  match cs.dropWhile (· == ' ') with
  | [] => some []
  | ';' :: rest => some rest
  | _ => none

/-- What stands after a parameter's value and its semicolon. -/
def afterValue? : List Char → Option (List Char)
  | '"' :: cs => (afterQuoted? true cs).bind afterBlanks?
  | cs =>
    match cs.dropWhile isTokenChar with
    | [] => some []
    | ';' :: rest => if (cs.takeWhile isTokenChar).isEmpty then none else some rest
    | _ => none

/-- What stands after a parameter; there may be blanks in front of it. -/
def afterParameter? (cs : List Char) : Option (List Char) :=
  let cs := cs.dropWhile (· == ' ')
  if cs.isEmpty then some []
  else if (cs.takeWhile isTokenChar).isEmpty then none
  else match cs.dropWhile isTokenChar with
    | '=' :: rest => afterValue? rest
    | _ => none

/-- Whether a text consists of parameters.  The number bounds how many. -/
def areParameters : Nat → List Char → Bool
  | _, [] => true
  | 0, _ => false
  | bound + 1, cs =>
    match afterParameter? cs with
    | some rest => areParameters bound rest
    | none => false

/-! ### Types -/

/-- The part of a token behind its last plus sign, where that is not its first character. -/
def suffixOf (cs : List Char) : List Char × Option (List Char) :=
  let tail := cs.reverse.takeWhile (· != '+')
  let front := cs.take (cs.length - tail.length - 1)
  if tail.length + 1 < cs.length then (front, some tail.reverse) else (cs, none)

/-- Read a media type. -/
def parse? (text : List Char) : Option MediaType :=
  let main := text.takeWhile isTokenChar
  match text.dropWhile isTokenChar with
  | '/' :: rest =>
    let sub := rest.takeWhile isTokenChar
    let parameters := rest.dropWhile isTokenChar
    let sound := match parameters with
      | [] => true
      | ';' :: ps => !sub.isEmpty && areParameters ps.length ps
      | _ => false
    if main.isEmpty || !sound then none
    else
      let (front, suffix) := suffixOf (sub.map Char.toLower)
      some ⟨main.map Char.toLower, front, suffix⟩
  | _ => none

/-- Whether a body of this type is JSON. -/
def isJson (m : MediaType) : Bool :=
  m.main == "application".toList && (m.sub == "json".toList || m.suffix == some "json".toList)

end MediaType

/-- Whether a header value says that the body is JSON. -/
def announcesJson (value : String) : Bool :=
  value.toList.all isVisible && ((MediaType.parse? value.toList).any MediaType.isJson)

end TierLineage.Web
