import TierLineage.Number.Decimal
import TierLineage.Text.Utf8
import TierLineage.Text.Pieces
import TierLineage.Text.Ascii
import TierLineage.Digest.Hex

/-!
# Addresses

Where a request goes: a scheme, a host with a port, a path and a query.  Reading an address brings
it into one form: letters of the scheme and the host are lower case, the scheme's own port is left
out, dot segments of the path are resolved, and characters that may not stand in a part are escaped
there.
-/

namespace TierLineage.Model

open TierLineage.Text TierLineage.Number TierLineage.Digest

/-- An address of a web service. -/
structure Address where
  scheme : String
  host : String
  port : Option Nat
  path : String
  query : Option String
  fragment : Option String
  deriving Repr, DecidableEq

/-! ### Escaping -/

/-- An octet as an escape; digits above nine are upper case. -/
def escapedOctet (n : Nat) : List Char :=
  '%' :: (hexDigits 2 n).map Char.toUpper

/-- Characters that are escaped everywhere: controls and those beyond ASCII. -/
def isForeign (c : Char) : Bool :=
  decide (c.toNat < 0x20) || decide (0x7E < c.toNat)

/-- A text in which the foreign characters and those of a list are escaped. -/
def escapedText (special : List Char) (cs : List Char) : String :=
  String.ofList (cs.flatMap fun c =>
    if isForeign c || special.contains c then (octetsOfNat c.toNat).flatMap escapedOctet else [c])

/-- What is escaped in a path. -/
def pathSpecials : List Char := [' ', '"', '#', '<', '>', '?', '\x60', '\x7b', '\x7d']

/-- What is escaped in a query. -/
def querySpecials : List Char := [' ', '"', '#', '<', '>', '\x27']

/-- What is escaped in a fragment. -/
def fragmentSpecials : List Char := [' ', '"', '<', '>', '\x60']

/-! ### Paths -/

/-- A segment in lower case with its escaped dots spelled out. -/
def withPlainDots : List Char → List Char
  | '%' :: '2' :: 'e' :: cs => '.' :: withPlainDots cs
  | '%' :: '2' :: 'E' :: cs => '.' :: withPlainDots cs
  | c :: cs => c :: withPlainDots cs
  | [] => []

/-- The segments of a path with dot segments resolved; `done` are those so far, last one first. -/
def resolved : List (List Char) → List (List Char) → List (List Char)
  | done, [] => done.reverse
  | done, [s] =>
    let dots := withPlainDots s
    if dots = ['.', '.'] then ([] :: done.drop 1).reverse
    else if dots = ['.'] then ([] :: done).reverse
    else (s :: done).reverse
  | done, s :: t :: ss =>
    let dots := withPlainDots s
    if dots = ['.', '.'] then resolved (done.drop 1) (t :: ss)
    else if dots = ['.'] then resolved done (t :: ss)
    else resolved (s :: done) (t :: ss)

/-- A path in its one form; a backslash is a slash. -/
def pathText (cs : List Char) : String :=
  let cs := cs.map fun c => if c = '\\' then '/' else c
  let segments := resolved [] (pieces '/' (cs.drop 1))
  "/" ++ joinedStrings "/" (segments.map (escapedText pathSpecials))

/-! ### Hosts -/

/-- Characters that no host has. -/
def isForbiddenInHost (c : Char) : Bool :=
  isForeign c || " #/:<>?@[\\]^|%".toList.contains c

/-- The port that goes without saying. -/
def standardPort (scheme : String) : Option Nat :=
  if scheme = "http" then some 80 else if scheme = "https" then some 443 else none

/-- Read a port; none is given where no digits stand. -/
def port? (scheme : String) (cs : List Char) : Option (Option Nat) :=
  if !cs.all Char.isDigit then none
  else if cs.isEmpty then some none
  else
    let n := ofDigits cs
    if 65535 < n then none
    else if standardPort scheme = some n then some none
    else some (some n)

/-- Read a host and its port; what stands in front of an at sign does not count. -/
def authority? (scheme : String) (cs : List Char) : Option (String × Option Nat) :=
  let cs := (cs.reverse.takeWhile (· != '@')).reverse
  let (host, rest) := match cs with
    | '[' :: _ =>
      let inner := cs.takeWhile (· != ']')
      (inner ++ [']'], (cs.dropWhile (· != ']')).drop 1)
    | _ => (cs.takeWhile (· != ':'), cs.dropWhile (· != ':'))
  let sound := match host with
    | '[' :: inner => inner.all fun c => c.isAlphanum || c == ':' || c == '.' || c == ']'
    | _ => !host.isEmpty && !host.any isForbiddenInHost
  if !sound then none
  else
    let name := String.ofList (host.map Char.toLower)
    match rest with
    | [] => some (name, none)
    | ':' :: digits => (port? scheme digits).map (name, ·)
    | _ => none

namespace Address

/-! ### Reading and writing -/

/-- Whether a character may stand in a scheme. -/
def isSchemeChar (c : Char) : Bool :=
  c.isAlphanum || c == '+' || c == '-' || c == '.'

/-- The scheme of an address in lower case, and what follows its colon. -/
def scheme? (cs : List Char) : Option (String × List Char) :=
  let name := cs.takeWhile isSchemeChar
  match name, cs.dropWhile isSchemeChar with
  | c :: _, ':' :: rest =>
    if c.isAlpha then some (String.ofList (name.map Char.toLower), rest) else none
  | _, _ => none

/-- A text without blanks around it and without line breaks and tabs in it. -/
def tidied (text : String) : List Char :=
  (trimBy (fun c => decide (c.toNat ≤ 0x20)) text.toList).filter fun c =>
    c != '\t' && c != '\n' && c != '\r'
where
  /-- Drop the characters of a class at both ends. -/
  trimBy (p : Char → Bool) (cs : List Char) : List Char :=
    ((cs.dropWhile p).reverse.dropWhile p).reverse

/-- Whether a scheme is one of the web's. -/
def isWebScheme (scheme : String) : Bool :=
  scheme == "http" || scheme == "https"

/-- Read an address of a web service. -/
def parse? (text : String) : Option Address := do
  let (scheme, rest) ← scheme? (tidied text)
  let isSlash (c : Char) : Bool := c == '/' || c == '\\'
  let isEnd (c : Char) : Bool := isSlash c || c == '?' || c == '#'
  let rest := rest.dropWhile isSlash
  let (host, port) ← authority? scheme (rest.takeWhile (!isEnd ·))
  let rest := rest.dropWhile (!isEnd ·)
  let path := rest.takeWhile fun c => c != '?' && c != '#'
  let rest := rest.dropWhile fun c => c != '?' && c != '#'
  let query := match rest with
    | '?' :: q => some (escapedText querySpecials (q.takeWhile (· != '#')))
    | _ => none
  let fragment := match rest.dropWhile (· != '#') with
    | '#' :: f => some (escapedText fragmentSpecials f)
    | _ => none
  return ⟨scheme, host, port, pathText path, query, fragment⟩

/-- The host with its port. -/
def hostText (a : Address) : String :=
  a.host ++ match a.port with
    | some p => ":" ++ integerText p
    | none => ""

/-- The path with the query, as a request line has it. -/
def requestTarget (a : Address) : String :=
  a.path ++ match a.query with
    | some q => "?" ++ q
    | none => ""

/-- The text of an address. -/
def text (a : Address) : String :=
  a.scheme ++ "://" ++ a.hostText ++ a.requestTarget ++ match a.fragment with
    | some f => "#" ++ f
    | none => ""

end Address

end TierLineage.Model
