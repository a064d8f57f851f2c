import TierLineage.Service.Mappings
import TierLineage.Service.Procedures
import TierLineage.Service.Schedule

/-!
# Commands

Everything the service can be asked to do, and the changes of its surroundings.  A command visits
the catalogs and then acts; a change of the surroundings is made at once.  Commands run one after
the other or together.
-/

namespace TierLineage

/-- A change of the surroundings, or a look at them. -/
inductive Change where
  | fail (a : Alias)
  | stall (a : Alias) (delay : Nat)
  | heal (a : Alias)
  | addConnection (a : Alias)
  | insertTable (t : Table) (columns : List (String × String × Bool))
  | insertProcedure (p : Procedure)
  | removeProcedure (p : ProcedureId)
  | putRecord (r : Record)
  | calls (name : Option String)

/-- A request to the service. -/
inductive Command where
  | connections
  | config
  | listTables (connection : String)
  | listColumns (connection schema table : String)
  | discover (source target : String)
  | suggest (hop : Hop)
  | autoMap (hop : Hop)
  | confirm (request : ConfirmRequest)
  | upsert (rows : List MappingRow)
  | listMappings (hop : Hop)
  | listCandidates (hop : Hop)
  | delete (key : SlotKey)
  | analyze (connection name definition : String)
  | analyzeProcedure (connection name : String)
  | statusMap (connection : String)
  | listProcedures (connection : String) (schema : Option String)
  | record (connection name : String)
  | bulkAnalyze (connection : String) (schema : Option String)
  | change (c : Change)
  | refused (f : Failure)
  | unreadable

namespace Change

/-- Make a change. -/
def apply (w : World) : Change → Reply × World
  | fail a => (.value .null, w.withFaults (·.fail a))
  | stall a delay => (.value .null, w.withFaults (·.stall a delay))
  | heal a => (.value .null, w.withFaults (·.heal a))
  | addConnection a => (.value .null, w.withCatalog (·.addConnection a))
  | insertTable t cs => (.value .null, w.withCatalog (·.insertTable t cs))
  | insertProcedure p => (.value .null, w.withCatalog (·.insertProcedure p))
  | removeProcedure p =>
    let (found, c) := w.surroundings.catalog.removeProcedure p
    (.value (.bool found), w.withCatalog fun _ => c)
  | putRecord r =>
    let (result, s) := w.store.putRecord r
    (.of (fun _ => .null) result, w.withStore s)
  | calls name => (.value (Json.nat (w.callCount name)), w)

end Change

namespace Command

/-! ### Plans -/

/-- A plan that looks at the state and leaves it as it is. -/
def tell {α : Type} (write : α → Json) (look : World → Outcome α) : Plan :=
  .act fun w => (.of write (look w), w)

/-- A plan that acts on the state. -/
def doing {α : Type} (write : α → Json) (act : World → Outcome α × World) : Plan :=
  .act fun w => let (result, w) := act w; (.of write result, w)

/-- A plan to call for the lineage of one procedure. -/
def askOne (r : AnalysisRequest) : Plan :=
  .ask 1 [r] fun answers =>
    match answers with
    | [(_, result)] => .of Finding.toJson result
    | _ => .value .null

/-- A plan to call for the lineage of many procedures. -/
def askMany (e : Engine) (a : Alias) (schema : Option String) (ps : List Procedure) : Plan :=
  .ask e.workerPoolSize (ps.map fun p => ⟨p.identity, p.definition⟩) fun answers =>
    .value (BulkReport.of a schema
      (answers.map fun (r, result) => ProcedureResult.ofFinding r.identity result)).toJson

/-- The columns of a table, found without regard to letter case. -/
def columnsOf (e : Engine) (r : Registry) (connection schema table : String) :
    Visit (List Column) := do
  let c ← Visit.ofOutcome ((r.resolve connection).mapError .refused)
  let wanted : Table := ⟨c.name, "", schema, table⟩
  Visit.ofOutcome (wanted.validate.mapError .refused)
  let tables ← Mappings.listTables e c.name
  match tables.find? (·.sameObject wanted) with
  | some t => Mappings.listColumns e c.name t
  | none => Visit.fail (Catalog.notFound c.name wanted.qualified)

/-- The visit to the catalogs that a command begins with, and what follows it. -/
def visit (e : Engine) (r : Registry) : Command → Visit Plan
  | connections => return tell (Json.listOf Connection.toJson) fun w => .ok w.registry.toList
  | config => return tell id fun w => .ok (Json.obj [("config", w.engine.toJson),
      ("connections", Json.nat w.registry.size)])
  | listTables connection => do
    let c ← Visit.ofOutcome ((r.resolve connection).mapError .refused)
    let tables ← Mappings.listTables e c.name
    return tell (Json.listOf Table.toJson) fun _ => .ok (Table.sorted tables)
  | listColumns connection schema table => do
    let columns ← columnsOf e r connection schema table
    return tell (Json.listOf Column.toJson) fun _ => .ok columns
  | discover source target => do
    let (hop, sides) ← Mappings.between e r source target
    return doing (Json.listOf Mapping.toJson) fun w =>
      let (ms, w) := Mappings.propose w hop sides
      (.ok ms, w)
  | suggest hop => do
    let (sides, failures) ← Mappings.gather e r hop
    return doing Suggestions.toJson fun w =>
      let (ms, w) := Mappings.propose w hop sides
      (.ok ⟨ms, failures⟩, w)
  | autoMap hop => do
    let (sides, failures) ← Mappings.gather e r hop
    return doing AutoMapReport.toJson fun w => Mappings.autoMap w hop sides failures
  | confirm request => do
    let checked ← Mappings.checkRequest e r request
    return doing Confirmation.toJson fun w => Mappings.confirm w checked
  | upsert rows => do
    let checked ← Mappings.checkBatch e r rows
    return doing BatchCount.toJson fun w => Mappings.upsert w checked
  | listMappings hop => return tell (Json.listOf Mapping.toJson) fun w => w.store.confirmed hop
  | listCandidates hop => return tell (Json.listOf Mapping.toJson) fun w => w.store.candidates hop
  | delete key => return doing (fun b => .bool b) fun w => Mappings.delete w key
  | analyze connection name definition => do
    let a ← Visit.ofOutcome ((Alias.parse connection).mapError .refused)
    let _ ← Visit.ofOutcome ((r.resolve a.name).mapError .refused)
    return askOne ⟨⟨a, name⟩, definition⟩
  | analyzeProcedure connection name => do
    let a ← Visit.ofOutcome ((Alias.parse connection).mapError .refused)
    let request ← Procedures.definition e r ⟨a, name⟩
    return askOne request
  | statusMap connection => do
    let (a, ps) ← Procedures.list e r connection none
    return tell (fun s => Procedures.statusMapJson (Procedures.statusMap s)) fun w =>
      Procedures.statuses w.desk a ps
  | listProcedures connection schema => do
    let (a, ps) ← Procedures.list e r connection schema
    return tell (Json.listOf ProcedureStatus.toJson) fun w => Procedures.statuses w.desk a ps
  | record connection name => do
    let a ← Visit.ofOutcome ((Alias.parse connection).mapError .refused)
    return tell (Json.opt Record.toJson) fun w => Procedures.record? w ⟨a, name⟩
  | bulkAnalyze connection schema => do
    let (a, ps) ← Procedures.list e r connection schema
    return askMany e a schema ps
  | change c => return .act fun w => c.apply w
  | refused f => Visit.fail f
  | unreadable => return .act fun w => (.unreadable, w)

/-- The plan of a command whose visit may have failed. -/
def planOf : Outcome Plan → Plan
  | .ok p => p
  | .error f => .act fun w => (.failure f, w)

/-! ### Running -/

/-- A command that has begun: done or under way, or on a visit since before the surroundings
changed. -/
inductive Begun where
  | active (activity : Activity)
  | away (command : Command) (before : Surroundings)

/-- Begin a command: what takes no time happens at once. -/
def begun (w : World) (c : Command) : Begun × World :=
  let (plan, moment) := c.visit w.engine w.registry (fun _ => w.surroundings) w.clock
  if moment ≤ w.clock then
    let (a, w) := Schedule.follow w (planOf plan)
    (.active a, w)
  else (.away c w.surroundings, w)

/-- Begin commands in their order. -/
def beginAll (w : World) (cs : List Command) : List Begun × World :=
  cs.foldl (fun (done, w) c => let (b, w) := begun w c; (done ++ [b], w)) ([], w)

/-- The activity of a command that has begun, now that all changes of this moment are made. -/
def Begun.activity (w : World) : Begun → Activity
  | active a => a
  | away c before =>
    let view : View := fun t => if t ≤ w.clock then before else w.surroundings
    let (plan, moment) := c.visit w.engine w.registry view w.clock
    .visiting moment (planOf plan)

/-- A bound of the rounds that commands need: every call has a few phases, and every visit ends
once. -/
def rounds (w : World) (cs : List Command) : Nat :=
  let procedures :=
    w.surroundings.catalog.connections.values.foldl (fun n h => n + h.procedures.size) 0
  8 * (cs.length * (procedures + 2) + 1)

/-- Run commands together. -/
def runTogether (w : World) (cs : List Command) : List Reply × World :=
  let (begun, w) := beginAll w cs
  let (as, w) := Schedule.run (rounds w cs) w (begun.map (·.activity w))
  (as.map Schedule.replyOf, w)

/-- Run a command. -/
def run (w : World) (c : Command) : Reply × World :=
  let (replies, w) := runTogether w [c]
  (replies.head?.getD (.value .null), w)

end Command

/-- Commands one by one or together. -/
inductive Step where
  | one (command : Command)
  | together (steps : List Step)

namespace Step

mutual

/-- The commands of a step, in their order. -/
def commands : Step → List Command
  | one c => [c]
  | together steps => commandsOf steps

/-- The commands of several steps. -/
def commandsOf : List Step → List Command
  | [] => []
  | s :: ss => commands s ++ commandsOf ss

end

mutual

/-- The reply of a step from the replies of its commands, and the replies that are left. -/
def assemble : Step → List Reply → Reply × List Reply
  | one _, [] => (.value .null, [])
  | one _, r :: rs => (r, rs)
  | together steps, rs =>
    let (replies, rest) := assembleAll steps rs
    (.all replies, rest)

/-- The replies of several steps. -/
def assembleAll : List Step → List Reply → List Reply × List Reply
  | [], rs => ([], rs)
  | s :: ss, rs =>
    let (reply, rs) := assemble s rs
    let (replies, rs) := assembleAll ss rs
    (reply :: replies, rs)

end

/-- Run a step. -/
def run (w : World) (s : Step) : Reply × World :=
  let (replies, w) := Command.runTogether w s.commands
  ((s.assemble replies).1, w)

end Step

end TierLineage
