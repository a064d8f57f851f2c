import TierLineage.Text.Blank
import TierLineage.Text.Ascii

/-!
# The payload of an answer

A model answers in prose with a JSON object in it, mostly inside a fenced block.  The payload is
what stands in the first closed block, or else what stands from the first opening to the last
closing brace.
-/

namespace TierLineage.Answer

open TierLineage.Text

/-- Three backticks. -/
def fence : List Char := ['\x60', '\x60', '\x60']

/-- A text cut at the first place where another one stands: what is in front of it and what follows
it. -/
def cutAt? (mark : List Char) : List Char → Option (List Char × List Char)
  | [] => if mark.isEmpty then some ([], []) else none
  | c :: cs =>
    match after? (c :: cs) mark with
    | some rest => some ([], rest)
    | none => (cutAt? mark cs).map fun (front, rest) => (c :: front, rest)

/-- A block's text without the tag that may follow its opening fence. -/
def withoutTag (cs : List Char) : List Char :=
  match after? cs "json".toList, after? cs "JSON".toList with
  | some rest, _ => rest
  | none, some rest => rest
  | none, none => cs

/-- The text of the first fenced block. -/
def fenced? (raw : List Char) : Option (List Char) := do
  let (_, block) ← cutAt? fence raw
  let (content, _) ← cutAt? fence (withoutTag block)
  return trim content

/-- The text from the first opening to the last closing brace. -/
def braced? (raw : List Char) : Option (List Char) :=
  let span := ((raw.dropWhile (· != '\x7b')).reverse.dropWhile (· != '\x7d')).reverse
  if span.isEmpty then none else some span

/-- The payload of an answer. -/
def payload? (raw : List Char) : Option (List Char) :=
  (fenced? raw).or (braced? raw)

end TierLineage.Answer
