import TierLineage.Mapping.Basic

/-!
# Slots

Everything known about one hop and source table: the confirmed mapping, if there is one, and the
candidates recorded while there is none.  Confirming says what it did; a slot that is confirmed
takes no candidates, and confirming drops them.
-/

namespace TierLineage

/-- How confirming treats a mapping that is confirmed already. -/
inductive ConfirmMode where
  /-- Keep it; another target is a conflict. -/
  | ifAbsent
  /-- Replace it. -/
  | overwrite
  /-- Refresh an automatic mapping to the same target, and keep any other. -/
  | refreshAuto
  deriving Repr, DecidableEq

/-- What confirming did. -/
inductive Confirmation where
  | created (mapping : Mapping)
  | replaced (previous mapping : Mapping)
  | unchanged (mapping : Mapping)
  deriving Repr, DecidableEq

namespace Confirmation

/-- The mapping that is confirmed afterwards. -/
def mapping : Confirmation → Mapping
  | created m => m
  | replaced _ m => m
  | unchanged m => m

/-- The data of a confirmation. -/
def toJson : Confirmation → Json
  | created m => Json.obj [("outcome", Json.str "created"), ("mapping", m.toJson)]
  | replaced p m =>
    Json.obj [("outcome", Json.str "replaced"), ("previous", p.toJson), ("mapping", m.toJson)]
  | unchanged m => Json.obj [("outcome", Json.str "unchanged"), ("mapping", m.toJson)]

end Confirmation

/-- How many mappings of a batch had which effect. -/
structure BatchCount where
  inserted : Nat
  updated : Nat
  unchanged : Nat
  deriving Repr, DecidableEq, Inhabited

namespace BatchCount

/-- The count before anything happened. -/
def zero : BatchCount := ⟨0, 0, 0⟩

/-- Count one more effect. -/
def add (c : BatchCount) : Confirmation → BatchCount
  | .created _ => { c with inserted := c.inserted + 1 }
  | .replaced _ _ => { c with updated := c.updated + 1 }
  | .unchanged _ => { c with unchanged := c.unchanged + 1 }

/-- The data of a count. -/
def toJson (c : BatchCount) : Json :=
  Json.obj [("inserted", Json.nat c.inserted), ("updated", Json.nat c.updated),
    ("unchanged", Json.nat c.unchanged)]

end BatchCount

/-- The state of one hop and source table. -/
structure Slot where
  confirmed : Option Mapping
  candidates : List Mapping
  deriving Repr, DecidableEq

namespace Slot

/-- Nothing is known. -/
def empty : Slot := ⟨none, []⟩

instance : Inhabited Slot := ⟨empty⟩

/-- Whether nothing is known. -/
def isEmpty (s : Slot) : Bool :=
  s.confirmed.isNone && s.candidates.isEmpty

/-- A mapping as a decision. -/
def asConfirmed (m : Mapping) : Mapping :=
  { m with state := .confirmed }

/-- A mapping as a proposal. -/
def asCandidate (m : Mapping) : Mapping :=
  { m with state := .candidate }

/-- The slot in which a mapping is confirmed. -/
def holding (m : Mapping) : Slot := ⟨some m, []⟩

/-- Confirm in place of another mapping; one to the same target keeps its identity. -/
def replace (previous m : Mapping) : Confirmation × Slot :=
  let m := if previous.target = m.target then { m with identifier := previous.identifier } else m
  (.replaced previous m, holding m)

/-- Confirm, whatever is confirmed already. -/
def overwrite (s : Slot) (m : Mapping) : Confirmation × Slot :=
  let m := asConfirmed m
  match s.confirmed with
  | none => (.created m, holding m)
  | some existing =>
    if existing.sameContent m then (.unchanged existing, s) else replace existing m

/-- Whether an automatic mapping brings news for an automatic mapping to the same target. -/
def refreshes (existing m : Mapping) : Bool :=
  existing.provenance == .auto && m.provenance == .auto && existing.target == m.target &&
    !existing.sameContent m

/-- Confirm a mapping. -/
def confirm (s : Slot) (m : Mapping) (mode : ConfirmMode) : Outcome (Confirmation × Slot) :=
  let m := asConfirmed m
  match s.confirmed with
  | none => .ok (.created m, holding m)
  | some existing =>
    match mode with
    | .ifAbsent =>
      if existing.target = m.target then .ok (.unchanged existing, s)
      else .error (.conflict
        (.alreadyConfirmed existing.hop existing.source.display existing.target.display))
    | .refreshAuto =>
      if refreshes existing m then .ok (replace existing m) else .ok (.unchanged existing, s)
    | .overwrite => .ok (s.overwrite m)

/-- Replace the candidates unless a mapping is confirmed; tells whether they were recorded. -/
def record (s : Slot) (candidates : List Mapping) : Bool × Slot :=
  if s.confirmed.isSome then (false, s)
  else (true, { s with candidates := candidates.map asCandidate })

/-- Drop the confirmed mapping; tells whether there was one. -/
def delete (s : Slot) : Bool × Slot :=
  (s.confirmed.isSome, { s with confirmed := none })

/-- The source table of what is held. -/
def source? (s : Slot) : Option Table :=
  (s.confirmed.or s.candidates.head?).map (·.source)

/-! ### Data -/

/-- Read a slot from data. -/
def read : Json.Reader Slot := fun v => do
  let found ← Json.fields false
    [Json.nullable "confirmed" Mapping.read,
     Json.may "candidates" (Json.readList Mapping.read)] v
  return ⟨← found.option "confirmed" Mapping.read,
    ← found.orDefault "candidates" (Json.readList Mapping.read) []⟩

/-- The data of a slot. -/
def toJson (s : Slot) : Json :=
  Json.obj [("confirmed", Json.opt Mapping.toJson s.confirmed),
    ("candidates", Json.listOf Mapping.toJson s.candidates)]

end Slot

end TierLineage
