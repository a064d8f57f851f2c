import TierLineage.Service.World
import TierLineage.Mapping.Proposal

/-!
# Proposing and confirming mappings

Proposals are made from the listings of the catalogs on both sides of a hop; a connection that does
not answer is reported and left out.  A confirmation has to name tables with a name and a schema,
on connections of the right tiers, with a confidence between zero and one, and, unless that is
switched off, tables that the catalogs list, whose own spelling is kept.  A batch is checked as a
whole before any of it is stored.
-/

namespace TierLineage

open TierLineage.Number

/-! ### Requests and reports -/

/-- A request to confirm a mapping. -/
structure ConfirmRequest where
  hop : Hop
  source : Table
  target : Table
  provenance : Provenance
  confidence : Option Single
  notes : Option String
  overwrite : Bool
  deriving Repr, DecidableEq

/-- Read a request to confirm. -/
def ConfirmRequest.read : Json.Reader ConfirmRequest := fun v => do
  let found ← Json.fields false
    [Json.needs "tier" (Named.read (α := Hop)), Json.needs "from" Table.read,
     Json.needs "to" Table.read, Json.may "provenance" (Named.read (α := Provenance)),
     Json.may "confidence" (Json.readOption Json.readSingle),
     Json.may "notes" (Json.readOption Json.readText), Json.may "overwrite" Json.readBool] v
  return {
    hop := ← found.need "tier" Named.read
    source := ← found.need "from" Table.read
    target := ← found.need "to" Table.read
    provenance := ← found.orDefault "provenance" Named.read .manual
    confidence := ← found.option "confidence" Json.readSingle
    notes := ← found.option "notes" Json.readText
    overwrite := ← found.orDefault "overwrite" Json.readBool false }

/-- Candidates, and the connections that did not answer. -/
structure Suggestions where
  candidates : List Mapping
  failures : List PartFailure
  deriving Repr, DecidableEq

/-- The data of suggestions. -/
def Suggestions.toJson (s : Suggestions) : Json :=
  Json.obj [("candidates", Json.listOf Mapping.toJson s.candidates),
    ("failures", Json.listOf PartFailure.toJson s.failures)]

/-- What automatic mapping did. -/
structure AutoMapReport where
  created : Nat
  updated : Nat
  considered : Nat
  recorded : Nat
  ambiguous : Nat
  failures : List PartFailure
  deriving Repr, DecidableEq

/-- The data of a report. -/
def AutoMapReport.toJson (r : AutoMapReport) : Json :=
  Json.obj [("created_count", Json.nat r.created), ("updated_count", Json.nat r.updated),
    ("total_considered", Json.nat r.considered), ("candidates_recorded", Json.nat r.recorded),
    ("skipped_ambiguous", Json.nat r.ambiguous),
    ("failures", Json.listOf PartFailure.toJson r.failures)]

namespace Mappings

/-! ### Listings -/

/-- How connections are asked: for their tables, and for the columns of a table. -/
structure Access where
  tables : Alias → Visit (List Table)
  columns : Alias → Table → Visit (List Column)

/-- The tables of a connection. -/
def listTables (e : Engine) (a : Alias) : Visit (List Table) :=
  Visit.call e.catalogTimeout "list_tables" a (·.tables a)

/-- The columns of a table. -/
def listColumns (e : Engine) (a : Alias) (t : Table) : Visit (List Column) :=
  Visit.call e.catalogTimeout "list_columns" a (·.columns a t)

/-- Connections are asked by calls to their catalogs. -/
def calls (e : Engine) : Access := ⟨listTables e, listColumns e⟩

/-- The tables of a connection with their columns. -/
def Access.load (c : Access) (e : Engine) (a : Alias) : Visit (List Listed) := do
  let tables ← c.tables a
  Visit.allInWindow e.workerPoolSize
    (tables.map fun t => do return ⟨t, ← c.columns a t⟩)

/-- The tables that calls to a connection tell, with their columns. -/
def load (e : Engine) (a : Alias) : Visit (List Listed) :=
  (calls e).load e a

/-- The listings of one connection, or why there are none. -/
abbrev Loaded := Alias × Outcome (List Listed)

/-- The tables of the connections that answered. -/
def answered (loaded : List Loaded) : List Listed :=
  loaded.flatMap fun (_, result) =>
    match result with
    | .ok tables => tables
    | .error _ => []

/-- The failures of the connections that did not answer. -/
def unanswered (loaded : List Loaded) : List PartFailure :=
  loaded.filterMap fun (a, result) =>
    match result with
    | .ok _ => none
    | .error f => some (f.ofPart a.name)

/-- The tables on both sides of a hop, and the connections that did not answer. -/
def Access.gather (c : Access) (e : Engine) (r : Registry) (hop : Hop) :
    Visit (Sides × List PartFailure) := do
  let sources := r.aliasesOf hop.start
  let targets := r.aliasesOf hop.target
  let aliases := sources ++ targets
  let results ← Visit.window e.workerPoolSize (aliases.map (c.load e))
  let loaded := aliases.zip results
  let fromSide := loaded.take sources.length
  let toSide := loaded.drop sources.length
  return (⟨answered fromSide, answered toSide⟩, unanswered loaded)

/-- What calls to the connections of a hop tell. -/
def gather (e : Engine) (r : Registry) (hop : Hop) : Visit (Sides × List PartFailure) :=
  (calls e).gather e r hop

/-! ### Proposing -/

/-- Between two connections there has to be a hop. -/
def hopBetween (source target : Connection) : Outcome Hop :=
  match Hop.between? source.tier target.tier with
  | some hop => .ok hop
  | none => .error (.refused (.invalid "to_alias"
    ("no mapping tier from " ++ source.name.name ++ " (" ++ source.tier.name ++ ") to " ++
      target.name.name ++ " (" ++ target.tier.name ++ ")")))

/-- The tables of two connections, and the hop between them. -/
def between (e : Engine) (r : Registry) (source target : String) : Visit (Hop × Sides) := do
  let s ← Visit.ofOutcome ((r.resolve source).mapError .refused)
  let t ← Visit.ofOutcome ((r.resolve target).mapError .refused)
  let hop ← Visit.ofOutcome (hopBetween s t)
  let sources ← load e s.name
  let targets ← load e t.name
  return (hop, ⟨sources, targets⟩)

/-- Candidates for all source tables. -/
def propose (w : World) (hop : Hop) (s : Sides) : List Mapping × World :=
  let (ms, supply) := Proposal.propose w.engine w.registry hop s w.supply
  (ms, { w with supply := supply })

/-! ### Automatic mapping -/

/-- What happened to one source table. -/
inductive AutoMapStep where
  | created
  | updated
  | untouched
  | recorded (count : Nat) (tie : Bool)
  deriving Repr, DecidableEq

/-- A report with one more step in it. -/
def AutoMapReport.add (r : AutoMapReport) : AutoMapStep → AutoMapReport
  | .created => { r with created := r.created + 1 }
  | .updated => { r with updated := r.updated + 1 }
  | .untouched => r
  | .recorded count tie =>
    { r with recorded := r.recorded + count, ambiguous := r.ambiguous + if tie then 1 else 0 }

/-- Confirm a source table's only best target. -/
def autoConfirm (w : World) (hop : Hop) (source target : Table) (score : Single) :
    Outcome AutoMapStep × World :=
  let m := Mapping.decided w.supply.stamp hop source target score .auto none
  let w := { w with supply := w.supply.advance 1 }
  match w.store.confirm m .refreshAuto with
  | (.ok (.created _), s) => (.ok .created, w.withStore s)
  | (.ok (.replaced _ _), s) => (.ok .updated, w.withStore s)
  | (.ok (.unchanged _), s) => (.ok .untouched, w.withStore s)
  | (.error (.conflict _), s) => (.ok .untouched, w.withStore s)
  | (.error f, s) => (.error f, w.withStore s)

/-- Record a source table's candidates. -/
def autoRecord (w : World) (hop : Hop) (source : Table) (ranking : List Ranked) (tie : Bool) :
    Outcome AutoMapStep × World :=
  let ms := Proposal.candidates w.engine hop source ranking w.supply
  let w := { w with supply := w.supply.advance ms.length }
  if ms.isEmpty then (.ok .untouched, w)
  else match w.store.record ⟨hop, source⟩ ms with
    | (.ok true, s) => (.ok (.recorded ms.length tie), w.withStore s)
    | (.ok false, s) => (.ok .untouched, w.withStore s)
    | (.error f, s) => (.error f, w.withStore s)

/-- Map one source table. -/
def autoMapOne (w : World) (hop : Hop) (targets : List Listed) (source : Listed) :
    Outcome AutoMapStep × World :=
  let ranking := Proposal.ranking w.engine w.registry hop targets source
  match Proposal.decide w.engine ranking with
  | .confirm target score => autoConfirm w hop source.table target score
  | .record ranking tie => autoRecord w hop source.table ranking tie

/-- Map source tables one after the other; a failure ends it. -/
def autoMapAll (hop : Hop) (targets : List Listed) :
    World → List Listed → AutoMapReport → Outcome AutoMapReport × World
  | w, [], report => (.ok report, w)
  | w, source :: rest, report =>
    match autoMapOne w hop targets source with
    | (.ok step, w') => autoMapAll hop targets w' rest (AutoMapReport.add report step)
    | (.error f, w') => (.error f, w')

/-- Map all source tables of a hop. -/
def autoMap (w : World) (hop : Hop) (s : Sides) (failures : List PartFailure) :
    Outcome AutoMapReport × World :=
  autoMapAll hop s.targets w s.sources ⟨0, 0, s.sources.length, 0, 0, failures⟩

/-! ### Confirming -/

/-- Both tables are named, and on connections of the tiers of the hop. -/
def checkPair (r : Registry) (hop : Hop) (source target : Table) : Except Refusal Unit := do
  source.validate
  target.validate
  let _ ← r.requireTier source.connection.name hop.start
  let _ ← r.requireTier target.connection.name hop.target

/-- A confidence lies between zero and one. -/
def checkConfidence (x : Single) : Except Refusal Unit :=
  if (Binary.ofNat 0 : Single).atMost x && x.atMost (Binary.ofNat 1) then .ok ()
  else .error (.invalid "confidence" (x.plainText ++ " is outside [0, 1]"))

/-- The listed table that a table means. -/
def listed (tables : List Table) (t : Table) : Outcome Table :=
  let means (u : Table) : Bool :=
    u.sameObject t && (t.database.isEmpty || Text.sameStringIgnoringCase u.database t.database)
  match tables.find? means with
  | some u => .ok u
  | none => .error (Catalog.notFound t.connection t.qualified)

/-- The table of the catalog that a table means. -/
def catalogTable (e : Engine) (t : Table) : Visit Table := do
  let tables ← listTables e t.connection
  Visit.ofOutcome (listed tables t)

/-- The checked request, with the tables as they are to be stored. -/
def checkRequest (e : Engine) (r : Registry) (q : ConfirmRequest) : Visit ConfirmRequest := do
  Visit.ofOutcome ((checkPair r q.hop q.source q.target).mapError .refused)
  Visit.ofOutcome ((checkConfidence (q.confidence.getD (Binary.ofNat 1))).mapError .refused)
  if e.verifyConfirmedTables then
    let source ← catalogTable e q.source
    let target ← catalogTable e q.target
    return { q with source := source, target := target }
  else return q

/-- Confirm what a checked request asks for. -/
def confirm (w : World) (q : ConfirmRequest) : Outcome Confirmation × World :=
  let m := Mapping.decided w.supply.stamp q.hop q.source q.target
    (q.confidence.getD (Binary.ofNat 1)) q.provenance q.notes
  let w := { w with supply := w.supply.advance 1 }
  let (c, s) := w.store.confirm m (if q.overwrite then .overwrite else .ifAbsent)
  (c, w.withStore s)

/-! ### Batches -/

/-- The field that names a row of a batch. -/
def rowField (index : Nat) : String :=
  "mappings[" ++ integerText index ++ "]"

/-- A failure told of its row, where it is the row's fault. -/
def rowFailure (index : Nat) (f : Failure) : Failure :=
  match f.kind with
  | .invalidInput => .refused (.invalid (rowField index) f.message)
  | .notFound => .refused (.invalid (rowField index) f.message)
  | _ => f

/-- Work on a row, whose failures name the row. -/
def inRow {α : Type} (index : Nat) (v : Visit α) : Visit α := fun view t =>
  let (result, t') := v view t
  (result.mapError (rowFailure index), t')

/-- The listings asked for so far. -/
abbrev Listings := List (Alias × List Table)

/-- The table of the catalog that a table means, by the listings where they are known. -/
def listedTable (e : Engine) (known : Listings) (t : Table) : Visit (Table × Listings) := do
  match known.lookup t.connection with
  | some tables => return (← Visit.ofOutcome (listed tables t), known)
  | none =>
    let tables ← listTables e t.connection
    let known := (t.connection, tables) :: known
    return (← Visit.ofOutcome (listed tables t), known)

/-- The row as it is to be stored. -/
def checkRow (e : Engine) (r : Registry) (known : Listings) (row : MappingRow) :
    Visit (MappingRow × Listings) := do
  Visit.ofOutcome ((checkPair r row.hop row.source row.target).mapError .refused)
  match row.confidence with
  | some x => Visit.ofOutcome ((checkConfidence x).mapError .refused)
  | none => pure ()
  if e.verifyConfirmedTables then
    let (source, known) ← listedTable e known row.source
    let (target, known) ← listedTable e known row.target
    return ({ row with source := source, target := target }, known)
  else return (row, known)

/-- The rows as they are to be stored; no two of them may have one hop and source table. -/
def checkRows (e : Engine) (r : Registry) :
    Nat → List SlotKey → Listings → List MappingRow → Visit (List MappingRow)
  | _, _, _, [] => pure []
  | index, seen, known, row :: rest => do
    let (row, known) ← inRow index (checkRow e r known row)
    let key : SlotKey := ⟨row.hop, row.source⟩
    if seen.contains key then
      Visit.fail (.refused (.invalid (rowField index)
        (row.source.display ++ " appears more than once for " ++ row.hop.name)))
    else
      let rows ← checkRows e r (index + 1) (key :: seen) known rest
      return row :: rows

/-- The checked rows of a batch. -/
def checkBatch (e : Engine) (r : Registry) (rows : List MappingRow) : Visit (List MappingRow) :=
  checkRows e r 0 [] [] rows

/-- Store the checked rows of a batch. -/
def upsert (w : World) (rows : List MappingRow) : Outcome BatchCount × World :=
  let ms := rows.mapIdx fun i row => row.decided (w.supply.advance i).stamp
  let w := { w with supply := w.supply.advance rows.length }
  let (count, s) := w.store.upsertAll ms
  (count, w.withStore s)

/-- Delete a confirmed mapping; tells whether there was one. -/
def delete (w : World) (k : SlotKey) : Outcome Bool × World :=
  let (found, s) := w.store.delete k
  (found, w.withStore s)

end Mappings

end TierLineage
