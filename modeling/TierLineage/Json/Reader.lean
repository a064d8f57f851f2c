import TierLineage.Json.Parser

/-!
# Reading values from data

A reader takes a value of a domain type from a tree.  It fails in one of two ways: the text is
`malformed`, or it is sound so far and the data is a `mismatch` for the type.  Readers walk the tree
in the order of the text, so that of several faults the first one is reported.

Records are read by name from a record or by position from a list.  A field is required, or has a
default, or may be null; unknown entries are skipped or refused.
-/

namespace TierLineage.Json

open TierLineage.Number

/-- Why a value could not be read. -/
inductive Fault where
  | malformed
  | mismatch
  deriving Repr, DecidableEq

/-- A reader of values of a type. -/
abbrev Reader (α : Type) := Json → Except Fault α

/-! ### Scalars -/

/-- The fault of a value of the wrong type; a faulty scalar is malformed first. -/
def wrongType (v : Json) : Fault :=
  match v with
  | .broken => .malformed
  | .text none => .malformed
  | _ => if v.quantity? = some .outOfRange then .malformed else .mismatch

/-- A string. -/
def readText : Reader String
  | .text (some s) => .ok s
  | v => .error (wrongType v)

/-- A truth value. -/
def readBool : Reader Bool
  | .bool b => .ok b
  | v => .error (wrongType v)

/-- A natural number below a limit. -/
def readNat (limit : Nat) : Reader Nat := fun v =>
  match v.quantity? with
  | some (.natural m) => if m < limit then .ok m else .error .mismatch
  | _ => .error (wrongType v)

/-- A natural number of 64 bits. -/
def readWord : Reader Nat :=
  readNat 0x10000000000000000

/-- An integer of a signed word of `bits + 1` bits. -/
def readInt (bits : Nat) : Reader Int := fun v =>
  match v.quantity? with
  | some (.natural m) => if m < Nat.pow 2 bits then .ok m else .error .mismatch
  | some (.negative m) => if m ≤ Nat.pow 2 bits then .ok (-m) else .error .mismatch
  | _ => .error (wrongType v)

/-- A number of single precision. -/
def readSingle : Reader Single := fun v =>
  match v.quantity? with
  | some (.natural m) => .ok (Binary.ofInt m)
  | some (.negative m) => .ok (Binary.ofInt (-m))
  | some (.real x) => .ok x.convert
  | _ => .error (wrongType v)

/-- A value or null. -/
def readOption {α : Type} (read : Reader α) : Reader (Option α)
  | .null => .ok none
  | v => (read v).map some

/-- Whether nothing is said about a name: with null, or with an empty container of a lax kind. -/
def saysNothing : Json → Bool
  | .null => true
  | .list [] .lax => true
  | .record [] .lax => true
  | _ => false

/-- One of a list of names; a name may also be the only entry of a record that says nothing about
it. -/
def readName {α : Type} (names : List (String × α)) : Reader α
  | .text (some s) =>
    match names.lookup s with
    | some a => .ok a
    | none => .error .mismatch
  | .record ((some k, v) :: more) ending =>
    match names.lookup k with
    | none => .error .mismatch
    | some a =>
      if saysNothing v then
        if more.isEmpty && ending.complete then .ok a else .error .malformed
      else .error (wrongType v)
  | _ => .error .malformed

/-! ### Containers -/

/-- Whether a container was read to its end. -/
def checkEnding (ending : Ending) : Except Fault Unit :=
  if ending.complete then .ok () else .error .malformed

/-- A list. -/
def readList {α : Type} (read : Reader α) : Reader (List α)
  | .list items ending => do
    let as ← items.mapM read
    checkEnding ending
    return as
  | v => .error (wrongType v)

/-- A record of arbitrary names, in its order. -/
def readEntries {α : Type} (read : Reader α) : Reader (List (String × α))
  | .record entries ending => do
    let es ← entries.mapM fun (k, v) =>
      match k with
      | some k => (read v).map (k, ·)
      | none => .error .malformed
    checkEnding ending
    return es
  | v => .error (wrongType v)

/-! ### Records -/

/-- Whether a field has to be given. -/
inductive Presence where
  | required
  | defaulted
  | nullable
  deriving Repr, DecidableEq

/-- A field of a record: its name, whether it has to be given, and what may stand in it. -/
structure Field where
  name : String
  presence : Presence
  check : Json → Except Fault Unit

/-- A field that is required. -/
def needs {α : Type} (name : String) (read : Reader α) : Field :=
  ⟨name, .required, fun v => (read v).map fun _ => ()⟩

/-- A field that may be left out. -/
def may {α : Type} (name : String) (read : Reader α) : Field :=
  ⟨name, .defaulted, fun v => (read v).map fun _ => ()⟩

/-- A field that may be null; by name it may also be left out. -/
def nullable {α : Type} (name : String) (read : Reader α) : Field :=
  ⟨name, .nullable, fun v => (readOption read v).map fun _ => ()⟩

/-- The values found for the fields of a record. -/
abbrev Found := List (String × Json)

/-- Read the entries of a record by name. -/
def foundByName (fields : List Field) (strict : Bool) (ending : Ending) :
    List (Option String × Json) → Found → Except Fault Found
  | [], found => do
    checkEnding ending
    if fields.all fun f => f.presence != .required || (found.lookup f.name).isSome then .ok found
    else .error .mismatch
  | (none, _) :: _, _ => .error .malformed
  | (some k, v) :: rest, found =>
    match fields.find? (·.name == k) with
    | some f =>
      if (found.lookup k).isSome then .error .mismatch
      else do
        f.check v
        foundByName fields strict ending rest ((k, v) :: found)
    | none =>
      if strict then .error .mismatch
      else if !v.finished then .error .malformed
      else foundByName fields strict ending rest found

/-- Read the items of a list as the fields of a record. -/
def foundByPlace (ending : Ending) : List Field → List Json → Except Fault Found
  | [], [] => do
    checkEnding ending
    return []
  | [], _ :: _ => if ending = .lax then .ok [] else .error .malformed
  | f :: fs, [] =>
    if !ending.complete then .error .malformed
    else if f.presence = .defaulted then foundByPlace ending fs []
    else .error .mismatch
  | f :: fs, v :: vs => do
    f.check v
    let found ← foundByPlace ending fs vs
    return (f.name, v) :: found

/-- Find the fields of a record; unknown entries are refused if it is `strict`. -/
def fields (strict : Bool) (fs : List Field) : Json → Except Fault Found
  | .record entries ending => foundByName fs strict ending entries []
  | .list items ending => foundByPlace ending fs items
  | v => .error (wrongType v)

/-- Read a field that was found. -/
def Found.need {α : Type} (found : Found) (name : String) (read : Reader α) : Except Fault α :=
  match found.lookup name with
  | some v => read v
  | none => .error .mismatch

/-- Read a field, or take its default. -/
def Found.orDefault {α : Type} (found : Found) (name : String) (read : Reader α) (default : α) :
    Except Fault α :=
  match found.lookup name with
  | some v => read v
  | none => .ok default

/-- Read a field that may be null or missing. -/
def Found.option {α : Type} (found : Found) (name : String) (read : Reader α) :
    Except Fault (Option α) :=
  found.orDefault name (readOption read) none

/-! ### Documents -/

/-- Read a value from a whole text. -/
def Document.read {α : Type} (d : Document) (read : Reader α) : Except Fault α := do
  let a ← read d.root
  if d.root.finished && d.complete then .ok a else .error .malformed

/-- Read a value from the front of a text, whatever follows it. -/
def decodeFront {α : Type} (read : Reader α) (text : String) : Except Fault α := do
  let d := parse text
  let a ← read d.root
  if d.root.finished then .ok a else .error .malformed

/-- Read a value from a text. -/
def decode {α : Type} (read : Reader α) (text : String) : Except Fault α :=
  (parse text).read read

end TierLineage.Json
