import TierLineage.Number.Decimal
import TierLineage.Digest.Hex
import TierLineage.Text.Pieces

/-!
# Socket addresses

Where a server listens: an address of four octets, or in brackets one of eight groups of sixteen
bits, perhaps with a scope, and a port.  Octets have no leading zeros, and groups at most four
digits; two colons stand for one or more groups of zero; the last two groups may be written as four
octets.  The written form leaves out the longest run of zero groups.
-/

namespace TierLineage.Server

open TierLineage.Number TierLineage.Digest TierLineage.Text

/-- A host on the network. -/
inductive Host where
  | octets (a b c d : Nat)
  | groups (gs : List Nat) (scope : Nat)
  deriving Repr, DecidableEq

/-- A host and a port. -/
structure SocketAddress where
  host : Host
  port : Nat
  deriving Repr, DecidableEq

/-! ### Parts -/

/-- A decimal number below a limit, and what follows it. -/
def decimalBelow? (limit : Nat) (cs : List Char) : Option (Nat × List Char) :=
  let ds := cs.takeWhile Char.isDigit
  if ds.isEmpty || decide (limit ≤ ofDigits ds) then none
  else some (ofDigits ds, cs.dropWhile Char.isDigit)

/-- An octet: at most three digits without a leading zero. -/
def octet? (cs : List Char) : Option (Nat × List Char) :=
  let ds := cs.takeWhile Char.isDigit
  if 3 < ds.length || (ds.head? == some '0' && decide (1 < ds.length)) then none
  else decimalBelow? 256 cs

/-- What stands after a character, if it stands first. -/
def afterChar? (c : Char) : List Char → Option (List Char)
  | d :: cs => if d = c then some cs else none
  | [] => none

/-- Four octets. -/
def quad? (cs : List Char) : Option ((Nat × Nat × Nat × Nat) × List Char) := do
  let (a, cs) ← octet? cs
  let (b, cs) ← octet? (← afterChar? '.' cs)
  let (c, cs) ← octet? (← afterChar? '.' cs)
  let (d, cs) ← octet? (← afterChar? '.' cs)
  return ((a, b, c, d), cs)

/-- A group: one to four hexadecimal digits. -/
def group? (cs : List Char) : Option (Nat × List Char) := do
  let ds := cs.takeWhile fun c => (hexValue? c).isSome
  if ds.isEmpty || decide (4 < ds.length) then none
  else return (← hexNumber? ds, cs.drop ds.length)

/-- Groups with colons between them, as many as there are up to a number; whether the last two are
four octets; and what follows. -/
def groups : Nat → Bool → List Char → List Nat × Bool × List Char
  | 0, _, cs => ([], false, cs)
  | room + 1, first, cs =>
    let inner := if first then some cs else afterChar? ':' cs
    match if room = 0 then none else inner.bind quad? with
    | some ((a, b, c, d), rest) => ([256 * a + b, 256 * c + d], true, rest)
    | none =>
      match inner.bind group? with
      | none => ([], false, cs)
      | some (g, rest) =>
        let (gs, quad, rest) := groups room false rest
        (g :: gs, quad, rest)

/-- Eight groups, of which two colons may stand for those between. -/
def eightGroups? (cs : List Char) : Option (List Nat × List Char) := do
  let (front, quad, rest) := groups 8 true cs
  if front.length = 8 then return (front, rest)
  else if quad then none
  else
    let rest ← afterChar? ':' (← afterChar? ':' rest)
    let (back, _, rest) := groups (7 - front.length) true rest
    return (front ++ List.replicate (8 - front.length - back.length) 0 ++ back, rest)

/-- A scope, which is zero where none stands. -/
def scope (cs : List Char) : Nat × List Char :=
  match (afterChar? '%' cs).bind (decimalBelow? 0x100000000) with
  | some (n, rest) => (n, rest)
  | none => (0, cs)

/-- A host. -/
def host? : List Char → Option (Host × List Char)
  | '[' :: cs => do
    let (gs, rest) ← eightGroups? cs
    let (s, rest) := scope rest
    return (.groups gs s, ← afterChar? ']' rest)
  | cs => (quad? cs).map fun ((a, b, c, d), rest) => (.octets a b c d, rest)

namespace SocketAddress

/-! ### Reading and writing -/

/-- Read a socket address. -/
def parse? (s : String) : Option SocketAddress := do
  let (host, rest) ← host? s.toList
  let (port, rest) ← decimalBelow? 65536 (← afterChar? ':' rest)
  if rest.isEmpty then return ⟨host, port⟩ else none

/-- The hexadecimal digits of a group, as few as it needs. -/
def groupText (g : Nat) : String :=
  String.ofList (Nat.toDigits 16 g)

/-- The text of four octets. -/
def octetsText (octets : List Nat) : String :=
  joinedStrings "." (octets.map fun (n : Nat) => integerText n)

/-- The number of zeros in front of a list. -/
def leadingZeros (gs : List Nat) : Nat :=
  (gs.takeWhile (· == 0)).length

/-- The place and the length of the first of the longest runs of zeros. -/
def longestZeros (gs : List Nat) : Nat × Nat :=
  (List.range gs.length).foldl
    (fun best i =>
      let n := leadingZeros (gs.drop i)
      if best.2 < n then (i, n) else best)
    (0, 0)

/-- The text of eight groups. -/
def groupsText (gs : List Nat) : String :=
  let text (gs : List Nat) : String := joinedStrings ":" (gs.map groupText)
  match gs with
  | [0, 0, 0, 0, 0, 0xFFFF, g, h] =>
    "::ffff:" ++ octetsText [g / 256, g % 256, h / 256, h % 256]
  | gs =>
    let (place, count) := longestZeros gs
    if 1 < count then text (gs.take place) ++ "::" ++ text (gs.drop (place + count)) else text gs

/-- The text of a host. -/
def hostText : Host → String
  | .octets a b c d => octetsText [a, b, c, d]
  | .groups gs s =>
    "[" ++ groupsText gs ++ (if s = 0 then "" else "%" ++ integerText s) ++ "]"

/-- The text of a socket address. -/
def text (a : SocketAddress) : String :=
  hostText a.host ++ ":" ++ integerText a.port

end SocketAddress

end TierLineage.Server
