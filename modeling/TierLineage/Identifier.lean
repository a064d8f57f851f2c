import TierLineage.Digest.Hex
import TierLineage.Text.Ascii
import TierLineage.Calendar.Instant

/-!
# Identifiers and stamps

An identifier is a number of 128 bits, written as thirty-two hexadecimal digits in groups of
eight, four, four, four and twelve.  A `Stamp` is what every new mapping gets: an identifier not
used before and the present moment.  Stamps come from a `Supply`, which is passed along explicitly.
-/

namespace TierLineage

open TierLineage.Digest TierLineage.Text

/-- An identifier of 128 bits. -/
structure Identifier where
  value : Nat
  deriving Repr, DecidableEq, Inhabited

namespace Identifier

/-- The grouped digits of an identifier. -/
def text (i : Identifier) : String :=
  let ds := hexDigits 32 i.value
  String.ofList (ds.take 8 ++ '-' :: (ds.drop 8).take 4 ++ '-' :: (ds.drop 12).take 4 ++ '-' ::
    (ds.drop 16).take 4 ++ '-' :: ds.drop 20)

/-- Digits grouped by hyphens. -/
def ofGroups? (cs : List Char) : Option Nat :=
  let hyphens := [8, 13, 18, 23]
  if cs.length ≠ 36 then none
  else if hyphens.any fun i => cs[i]? != some '-' then none
  else
    let ds := cs.take 8 ++ (cs.drop 9).take 4 ++ (cs.drop 14).take 4 ++ (cs.drop 19).take 4 ++
      cs.drop 24
    hexNumber? ds

/-- Read an identifier: thirty-two digits, or groups, which may stand in braces or after a scheme
name. -/
def parse? (s : String) : Option Identifier :=
  let cs := s.toList
  let value :=
    if cs.length = 32 then hexNumber? cs
    else if cs.length = 38 then
      match cs with
      | '\x7b' :: rest =>
        if rest.getLast? = some '\x7d' then ofGroups? rest.dropLast else none
      | _ => none
    else if cs.length = 45 then (after? cs "urn:uuid:".toList).bind ofGroups?
    else ofGroups? cs
  value.map Identifier.mk

end Identifier

/-- What a new mapping is marked with. -/
structure Stamp where
  identifier : Identifier
  now : Instant
  deriving Repr, DecidableEq, Inhabited

/-- The source of new stamps: how many were given out, and the present moment. -/
structure Supply where
  used : Nat
  now : Instant
  deriving Repr, DecidableEq, Inhabited

namespace Supply

/-- The next stamp. -/
def stamp (s : Supply) : Stamp :=
  ⟨⟨s.used⟩, s.now⟩

/-- The supply once `n` stamps were given out. -/
def advance (s : Supply) (n : Nat) : Supply :=
  { s with used := s.used + n }

end Supply

end TierLineage
