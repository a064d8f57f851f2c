import TierLineage.Text.Utf8
import TierLineage.Text.Pieces
import TierLineage.Digest.Hex

/-!
# Percent decoding

In addresses an octet is written as a percent sign and two hexadecimal digits.  A percent sign
without them stands for itself.  A query is a list of names and values with ampersands between
them, in which a plus sign stands for a space.
-/

namespace TierLineage.Web

open TierLineage.Text TierLineage.Digest

/-- The octets of a text in which octets are escaped. -/
def percentDecoded : List Char → List Nat
  | [] => []
  | '%' :: a :: b :: cs =>
    match hexNumber? [a, b] with
    | some n => n :: percentDecoded cs
    | none => 0x25 :: percentDecoded (a :: b :: cs)
  | c :: cs => octetsOfNat c.toNat ++ percentDecoded cs

/-- The text of a path segment; it has to be UTF-8. -/
def segmentText? (cs : List Char) : Option String :=
  (decode? (percentDecoded cs)).map String.ofList

/-- The text of a name or value of a query. -/
def queryText (cs : List Char) : String :=
  String.ofList (decodeLossy (percentDecoded (cs.map fun c => if c = '+' then ' ' else c)))

/-- A name with its value, which is empty where no equals sign stands. -/
def queryPair (cs : List Char) : String × String :=
  (queryText (cs.takeWhile (· != '=')), queryText ((cs.dropWhile (· != '=')).drop 1))

/-- The names and values of a query. -/
def queryPairs (query : List Char) : List (String × String) :=
  ((pieces '&' query).filter fun p => !p.isEmpty).map queryPair

/-- A query that does not give its names as they are asked for. -/
inductive QueryFault where
  | repeated (name : String)
  | missing (name : String)
  deriving Repr, DecidableEq

/-- The first of some names that is given again, behind some that were given already. -/
def repeatedAfter? (names : List String) : List String → List (String × String) → Option String
  | _, [] => none
  | given, (n, _) :: pairs =>
    if !names.contains n then repeatedAfter? names given pairs
    else if given.contains n then some n
    else repeatedAfter? names (n :: given) pairs

/-- Whether none of some names is given twice; otherwise the fault is the first one that is. -/
def givenOnce (pairs : List (String × String)) (names : List String) : Except QueryFault Unit :=
  match repeatedAfter? names [] pairs with
  | some n => .error (.repeated n)
  | none => .ok ()

/-- The value of a name, which is given at most once. -/
def optionalValue (pairs : List (String × String)) (name : String) :
    Except QueryFault (Option String) :=
  match pairs.filter (·.1 == name) with
  | [] => .ok none
  | [(_, v)] => .ok (some v)
  | _ => .error (.repeated name)

/-- The value of a name, which is given exactly once. -/
def requiredValue (pairs : List (String × String)) (name : String) : Except QueryFault String := do
  match ← optionalValue pairs name with
  | some v => return v
  | none => throw (.missing name)

end TierLineage.Web
