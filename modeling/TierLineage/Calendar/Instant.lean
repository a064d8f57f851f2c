import TierLineage.Number.Decimal
import TierLineage.Text.Blank
import TierLineage.Text.Ascii

/-!
# Instants

A moment in time is a count of seconds since the start of 1970 and a count of nanoseconds in that
second; during a leap second the nanoseconds run on past a thousand million.  Moments are written
in the RFC 3339 form in UTC with as few groups of three fraction digits as they need.  They are
read in that form with any offset, and with a little freedom in blanks, letters and signs.
-/

namespace TierLineage

/-- A moment in time. -/
structure Instant where
  second : Int
  nano : Nat
  deriving Repr, DecidableEq, Inhabited

namespace Calendar

open TierLineage.Number TierLineage.Text

/-! ### Days -/

/-- The day number of a date, counted from the start of 1970 by eras of four hundred years. -/
def dayNumber (year : Int) (month day : Nat) : Int :=
  let y := if month ≤ 2 then year - 1 else year
  let era := Int.fdiv y 400
  let yearOfEra := (y - era * 400).toNat
  let dayOfYear := (153 * ((month + 9) % 12) + 2) / 5 + day - 1
  let dayOfEra := yearOfEra * 365 + yearOfEra / 4 - yearOfEra / 100 + dayOfYear
  era * 146097 + dayOfEra - 719468

/-- The year, month and day of a day number. -/
def dateOf (number : Int) : Int × Nat × Nat :=
  let z := number + 719468
  let era := Int.fdiv z 146097
  let dayOfEra := (z - era * 146097).toNat
  let yearOfEra := (dayOfEra - dayOfEra / 1460 + dayOfEra / 36524 - dayOfEra / 146096) / 365
  let dayOfYear := dayOfEra - (365 * yearOfEra + yearOfEra / 4 - yearOfEra / 100)
  let mp := (5 * dayOfYear + 2) / 153
  let day := dayOfYear - (153 * mp + 2) / 5 + 1
  let month := if mp < 10 then mp + 3 else mp - 9
  let year : Int := yearOfEra + era * 400
  (if month ≤ 2 then year + 1 else year, month, day)

/-- Whether a year has a leap day. -/
def isLeapYear (year : Int) : Bool :=
  (year % 4 == 0 && year % 100 != 0) || year % 400 == 0

/-- The number of days of a month. -/
def daysIn (year : Int) (month : Nat) : Nat :=
  if month = 2 then (if isLeapYear year then 29 else 28)
  else if month = 4 ∨ month = 6 ∨ month = 9 ∨ month = 11 then 30
  else 31

/-! ### Writing -/

/-- A number padded with zeros on the left. -/
def padded (width n : Nat) : List Char :=
  let cs := digitsOf n
  List.replicate (width - cs.length) '0' ++ cs

/-- A year of four digits, or with a sign if it needs more or is negative. -/
def yearText (year : Int) : List Char :=
  if 0 ≤ year ∧ year ≤ 9999 then padded 4 year.toNat
  else (if year < 0 then '-' else '+') :: padded 4 year.natAbs

/-- The fraction of a second in no more groups of three digits than it needs. -/
def fractionText (nano : Nat) : List Char :=
  if nano = 0 then []
  else if nano % 1000000 = 0 then '.' :: padded 3 (nano / 1000000)
  else if nano % 1000 = 0 then '.' :: padded 6 (nano / 1000)
  else '.' :: padded 9 nano

/-- The text of a moment. -/
def instantText (t : Instant) : List Char :=
  let (year, month, day) := dateOf (Int.fdiv t.second 86400)
  let inDay := (Int.fmod t.second 86400).toNat
  let (seconds, nano) :=
    if 1000000000 ≤ t.nano then (inDay % 60 + 1, t.nano - 1000000000) else (inDay % 60, t.nano)
  yearText year ++ '-' :: padded 2 month ++ '-' :: padded 2 day ++ 'T' ::
    padded 2 (inDay / 3600) ++ ':' :: padded 2 (inDay / 60 % 60) ++ ':' :: padded 2 seconds ++
    fractionText nano ++ ['Z']

/-! ### Reading -/

/-- Leading digits, at least one and at most `width`, and the rest. -/
def number? (width : Nat) (cs : List Char) : Option (Nat × List Char) :=
  let ds := (cs.take width).takeWhile Char.isDigit
  if ds.isEmpty then none else some (ofDigits ds, cs.drop ds.length)

/-- A number after blanks. -/
def field? (width : Nat) (cs : List Char) : Option (Nat × List Char) :=
  number? width (trimStartBy isBlank cs)

/-- A fixed character after blanks. -/
def mark? (c : Char) (cs : List Char) : Option (List Char) :=
  after? (trimStartBy isBlank cs) [c]

/-- A year: four digits, or any number of them after a sign. -/
def year? (cs : List Char) : Option (Int × List Char) :=
  match trimStartBy isBlank cs with
  | '-' :: rest => (number? rest.length rest).map fun (n, r) => (-(n : Int), r)
  | '+' :: rest => (number? rest.length rest).map fun (n, r) => ((n : Int), r)
  | rest => (number? 4 rest).map fun (n, r) => ((n : Int), r)

/-- The nanoseconds of a fraction; digits beyond the ninth are dropped. -/
def fraction? : List Char → Option (Nat × List Char)
  | '.' :: cs =>
    let ds := cs.takeWhile Char.isDigit
    if ds.isEmpty then none
    else
      let kept := ds.take 9
      some (ofDigits kept * Nat.pow 10 (9 - kept.length), cs.drop ds.length)
  | cs => some (0, cs)

/-- Two digits. -/
def twoDigits? : List Char → Option (Nat × List Char)
  | a :: b :: rest => if a.isDigit && b.isDigit then some (ofDigits [a, b], rest) else none
  | _ => none

/-- The seconds by which local time is ahead of UTC. -/
def offset? (cs : List Char) : Option (Int × List Char) :=
  let cs := trimStartBy isBlank cs
  if sameIgnoringCase (cs.take 3) ['u', 't', 'c'] then some (0, cs.drop 3)
  else match cs with
    | 'Z' :: rest => some (0, rest)
    | 'z' :: rest => some (0, rest)
    | sign :: rest =>
      if sign = '+' ∨ sign = '-' ∨ sign.toNat = 0x2212 then do
        let (hours, rest) ← twoDigits? rest
        let (minutes, rest) ← twoDigits? (trimStartBy (fun c => c == ':' || isBlank c) rest)
        if 60 ≤ minutes ∨ 24 ≤ hours then none
        else
          let seconds : Int := hours * 3600 + minutes * 60
          some (if sign = '+' then seconds else -seconds, rest)
      else none
    | [] => none

/-- Read a moment. -/
def instant? (text : List Char) : Option Instant := do
  let (year, cs) ← year? text
  let cs ← mark? '-' cs
  let (month, cs) ← field? 2 cs
  let cs ← mark? '-' cs
  let (day, cs) ← field? 2 cs
  let cs ← match cs with
    | c :: rest => if c = 't' ∨ c = 'T' ∨ c = ' ' then some rest else none
    | [] => none
  let (hour, cs) ← field? 2 cs
  let cs ← mark? ':' cs
  let (minute, cs) ← field? 2 cs
  let cs ← mark? ':' cs
  let (second, cs) ← field? 2 cs
  let (nano, cs) ← fraction? cs
  let (offset, cs) ← offset? cs
  if !(trimStartBy isBlank cs).isEmpty then none
  else if year < -262143 ∨ 262142 < year then none
  else if month = 0 ∨ 12 < month ∨ day = 0 ∨ daysIn year month < day then none
  else if 23 < hour ∨ 59 < minute ∨ 60 < second then none
  else
    let (second, nano) := if second = 60 then (59, nano + 1000000000) else (second, nano)
    let inDay : Int := hour * 3600 + minute * 60 + second
    some ⟨dayNumber year month day * 86400 + inDay - offset, nano⟩

end Calendar

/-- The text of a moment. -/
def Instant.text (t : Instant) : String :=
  String.ofList (Calendar.instantText t)

/-- Read a moment. -/
def Instant.parse? (text : String) : Option Instant :=
  Calendar.instant? text.toList

end TierLineage
