/-
Chronicle/Bench/Engine.lean

An engine with drivers, counters and labels on one store, and single steps on it:
commands, units of work by hand, reads, and writes past the engine.

The store is either in memory, where one connection serves everybody, or in a
file.  A step that would have to wait for a unit of work to end is given up and
answered `blocked`.  In memory all steps that need a connection of their own wait;
in a file only writers do.
-/
import Chronicle.Bench.Handlers
import Chronicle.Gateway.Command
import Chronicle.Gateway.Query
import Chronicle.Metrics.Exposition

namespace Chronicle.Bench

/-! ### Handlers -/

/-- Moves the stored sequence of an aggregate ahead, behind the engine's back. -/
def disturb (globalId : Int) (db : Database Driver.ReadModel) :
    Except StorageFault (Unit × Database Driver.ReadModel) := do
  let t ← db.aggregateTable
  let p := fun (key : Int) (_ : AggregateRow) => key == globalId
  return ((), { db with
    aggregates := some (t.update p fun row => { row with sequence := row.sequence + 100 }) })

/-- A task of a handler, whose failure is the failure of the handler. -/
def within {α : Type} (t : Task Scene α) : Work Scene α :=
  ExceptT.mk do
    match ← t.run with
    | .ok a => return .ok a
    | .error e => return .error e.message

/-- Sends a command from a context that is active, which is refused, and gives
the name of the error.  No handler is looked up before that. -/
def sendNested (ctx : ExecutionContext) : Work Scene String := do
  let nil : Command := ⟨some Uuid.zero, []⟩
  let r : Registry domain Scene := Registry.empty Dependencies.empty
  let answer ← ExceptT.lift
    (Gateway.send r ctx Dictionary.empty (.other .opening) nil 0.0).run
  return Gateway.outcome answer

/-- What the first handler of `Added` does besides writing a line. -/
def interfere (ctx : ExecutionContext) (info : EventInfo) (amount : Int64) : Work Scene Unit := do
  if amount = 13 then Session.write ctx (disturb info.aggregateGlobalId)
  else if amount = 77 then within (Session.onStore (Store.commit ctx))
  else if amount = 78 then
    within (Session.onStore (Store.rollback ctx))
    within (Session.onStore (Store.acquire ctx))
  else if amount = 79 then
    within (Session.onStore (Store.commit ctx))
    within (Session.onStore (Store.acquire ctx))
  else if amount = 99 then
    let kind ← sendNested ctx
    writeLine s!"nested {kind}"
  else if amount = 666 then throw "refused 666"

/-- The first handler of `Added`. -/
def addedFirst : AnyHandler :=
  ⟨.other .added, [.event, .execution], fun (info, ctx, ()) (e : Added) => do
    writeLine s!"first {e.amount} {infoText info}"
    interfere ctx info e.amount⟩

/-- The second handler of `Added`, which comes to the gate. -/
def addedGate : AnyHandler :=
  ⟨.other .added, [], fun _ (e : Added) => do if e.amount = 500 then reachGate⟩

/-- The third handler of `Added`. -/
def addedLast : AnyHandler := oneLine .added fun (e : Added) => s!"last {e.amount}"

/-- The handler of `Noted`. -/
def notedRefuse : AnyHandler :=
  ⟨.other .noted, [], fun _ (e : Noted) => do
    writeLine s!"noted {e.text}"
    if e.text = "refuse" then throw "note refused"⟩

/-- Counts the committed events. -/
def countEvents : QueryHandler domain Scene :=
  ⟨.other .unit, .other .u64, [.stateless], fun _ _ => do
    let t ← Session.read Database.eventTable
    return UInt64.ofNat t.rows.length⟩

/-- What is registered besides the drivers. -/
def ownRegistrations : List (Registration domain Scene) :=
  let named := [creation? "open", mutation? "add_journal", creation? "tag"]
  let states := ["counter_opened", "counter_added", "counter_noted", "label_tagged", "label_added"]
  named.reduceOption
    ++ (states.filterMap state?).map .state
    ++ [addedFirst, addedGate, addedLast, notedRefuse].map (fun h => .domainEvent h.1 h.2)
    ++ ((query? "double").toList.map (.query "double"))
    ++ [.query "count_events" countEvents]

/-- The registry of the engine. -/
def registry (today : Date) : Registry domain Scene :=
  Registration.build (Dependencies.empty.insert (.value (.other .journal)) ())
    (Driver.registrations today ++ ownRegistrations)

/-! ### The engine -/

/-- An engine with the execution contexts that have names. -/
structure Engine where
  inMemory : Bool
  registry : Registry domain Scene
  scene : Scene
  contexts : Dictionary ExecutionContext

/-- An engine on a new store, with or without the tables of the engine and of the
read model. -/
def Engine.start (today : Date) (inMemory migrated projected : Bool) : Engine :=
  let db : Database Driver.ReadModel := Database.blank none
  let db := if migrated then db.migrate else db
  let db := if projected then Driver.ReadModel.migrate db else db
  ⟨inMemory, Bench.registry today, Session.start db Journal.empty, Dictionary.empty⟩

/-- A write past the engine. -/
inductive Tampering where
  | state (id : Uuid) (text : String)
  | typeName (id : Uuid) (name : String)
  | sequence (id : Uuid) (n : Int)
  | move (id next : Uuid)
  | forgetDriver (id : Uuid)
  | metadata (sequence : Int) (text : String)
  | eventName (sequence : Int) (name : String)

/-- A command of any type. -/
abbrev AnyCommand := Σ c : domain.CommandType, domain.Command c

/-- A snapshot of any type. -/
abbrev AnySnapshot := Σ a : domain.AggregateType, Snapshot domain a

/-- A value of any type. -/
abbrev AnyValue := Σ v : domain.ValueType, domain.Value v

/-- One step on the engine.  Without a context, a command is sent from a new one
and without metadata. -/
inductive Step where
  | send (from? : Option (String × Metadata)) (command : AnyCommand)
  | acquire (ctx : String)
  | commit (ctx : String)
  | rollback (ctx : String)
  | active (ctx : String)
  | share (ctx clone : String)
  | load (ctx : String) (id : Uuid) (a : domain.AggregateType)
  | loadCommitted (id : Uuid) (a : domain.AggregateType)
  | save (ctx : String) (snapshot : AnySnapshot)
  | append (ctx : String) (globalId : Int) (e : AnyEvent domain) (metadata : Metadata)
  | events (globalId : Int)
  | query (key : String) (input : AnyValue) (output : domain.ValueType)
  | dump
  | tamper (t : Tampering)
  | migrate
  | sections
  | metrics
  | race (first : AnyCommand) (rest : List AnyCommand) (cancel : List Nat)

/-- What came of commands that were held up at the gate. -/
structure RaceReport where
  queued : List Nat
  finishedEarly : Nat
  heldLines : List String
  first : Option (Except Error Receipt)
  /-- A command that was cancelled has no answer. -/
  rest : List (Option (Except Error Receipt))
  sectionsAfter : Nat

/-- The answer to a step. -/
inductive Answer where
  | done
  | blocked
  | receipt (r : Receipt)
  | active (b : Bool)
  | snapshot (s : AnySnapshot)
  | saved (globalId : Int)
  | appended (sequence : Int)
  | events (rs : List EventRecord)
  | output (v : AnyValue)
  | content (db : Database Driver.ReadModel)
  | changed (rows : Nat)
  | sections (s : CriticalSections)
  | metrics (lines : List String)
  | race (r : RaceReport)

/-! ### Writes past the engine -/

namespace Tampering

/-- Changes the aggregates with an identifier. -/
def changeAggregate (id : Uuid) (f : AggregateRow → AggregateRow)
    (db : Database Driver.ReadModel) :
    Except StorageFault (Nat × Database Driver.ReadModel) := do
  let t ← db.aggregateTable
  let p := fun (_ : Int) (row : AggregateRow) => row.identifier == id
  return (t.count p, { db with aggregates := some (t.update p f) })

/-- Changes the event with a sequence. -/
def changeEvent (sequence : Int) (f : EventRow → EventRow) (db : Database Driver.ReadModel) :
    Except StorageFault (Nat × Database Driver.ReadModel) := do
  let t ← db.eventTable
  let p := fun (key : Int) (_ : EventRow) => key == sequence
  return (t.count p, { db with events := some (t.update p f) })

/-- Makes the change, and gives the number of rows that it concerns. -/
def apply (db : Database Driver.ReadModel) :
    Tampering → Except StorageFault (Nat × Database Driver.ReadModel)
  | state id text => changeAggregate id (fun row => { row with state := text }) db
  | typeName id name => changeAggregate id (fun row => { row with typeName := name }) db
  | sequence id n => changeAggregate id (fun row => { row with sequence := n }) db
  | move id next => do
    let (rows, moved) ← changeAggregate id (fun row => { row with identifier := next }) db
    let t ← db.aggregateTable
    if rows ≠ 0 ∧ id ≠ next ∧ (t.find? fun row => row.identifier == next).isSome then
      throw (.duplicate "aggregate.aggregate_identifier")
    else return (rows, moved)
  | forgetDriver id => do
    let t ← Driver.ReadModel.table db
    let p := fun (_ : Int) (view : Driver.DriverView) => view.driverId == id
    return (t.count p, { db with readModel := some (t.erase p) })
  | metadata n text => changeEvent n (fun row => { row with metadata := text }) db
  | eventName n name => changeEvent n (fun row => { row with typeName := name }) db

end Tampering

/-! ### Steps -/

/-- Steps change the engine, and fail with an error. -/
abbrev EngineTask := ExceptT Error (StateM Engine)

namespace Engine

/-- A task on the state of the handlers. -/
def onScene {α : Type} (t : Task Scene α) : EngineTask α :=
  ExceptT.mk fun e =>
    let (answer, scene) := t.run e.scene
    (answer, { e with scene })

/-- A task on the store. -/
def onStore {α : Type} (t : Task (Store Driver.ReadModel) α) : EngineTask α :=
  onScene (Session.onStore t)

/-- The context of a name, which is created when it is first mentioned. -/
def context (name : String) : EngineTask ExecutionContext := do
  match (← get).contexts.get? name with
  | some ctx => return ctx
  | none =>
    let ctx ← onScene (ExceptT.lift Session.newContext)
    modify fun e => { e with contexts := e.contexts.insert name ctx }
    return ctx

/-- A unit of work is given up when its context has no name left. -/
def dropNameless (e : Engine) : Engine :=
  let named (u : UnitOfWork Driver.ReadModel) := e.contexts.entries.any fun c => c.2 = u.owner
  let store := { e.scene.store with unit := e.scene.store.unit.filter named }
  { e with scene := { e.scene with store } }

/-- Whether somebody who reads past units of work has to wait. -/
def readerWaits (e : Engine) : Bool := e.inMemory && e.scene.store.unit.isSome

/-- Whether somebody who writes past units of work has to wait. -/
def writerWaits (e : Engine) : Bool := e.scene.store.unit.isSome

/-- The answer of a task, unless it has to wait. -/
def unlessWaiting (waits : Engine → Bool) (t : EngineTask Answer) : EngineTask Answer := do
  if waits (← get) then return .blocked else t

/-- A command that has to wait for its unit of work has entered its critical
section before, which the metrics go on to show. -/
def giveUp (command : AnyCommand) : EngineTask Answer := do
  if (domain.target command.2).isSome then
    let occupied := (← get).scene.sections.size + 1
    onScene (ExceptT.lift (Session.measure fun m => m.setOccupied occupied))
  return .blocked

/-- Sends a command from a context. -/
def send (ctx : ExecutionContext) (metadata : Metadata) (command : AnyCommand) :
    EngineTask Answer := do
  let e ← get
  if e.scene.store.isHeldBy ctx && (domain.target command.2).isSome then giveUp command
  else
    return .receipt (← onScene (Gateway.send e.registry ctx metadata command.1 command.2 0.0))

/-- Whether a query is answered by a handler that reads the store. -/
def readsStore (r : Registry domain Scene) (key : String) (i o : domain.ValueType) : Bool :=
  (r.queries.get? key).any fun h =>
    decide (h.input = i) && decide (h.output = o) && h.inputs.any (· = .stateless)

/-- The content of the tables that exist, for those who read it all. -/
def content : EngineTask Answer := do return .content (← get).scene.store.committed

/-- A write past the engine. -/
def tamper (t : Tampering) : EngineTask Answer := do
  let e ← get
  match t.apply e.scene.store.committed with
  | .error fault => throw (.database fault)
  | .ok (rows, db) =>
    set { e with scene := { e.scene with store := { e.scene.store with committed := db } } }
    return .changed rows

/-- Creates the missing tables of the engine.  With none missing this writes
nothing. -/
def migrate : EngineTask Answer := do
  let e ← get
  let db := e.scene.store.committed
  if e.readerWaits || (e.writerWaits && (db.aggregates.isNone || db.events.isNone)) then
    return .blocked
  else
    set { e with scene := { e.scene with store := { e.scene.store with committed := db.migrate } } }
    return .done

/-! ### Commands held up at the gate -/

/-- Sends a command from a new context. -/
def sendFresh (r : Registry domain Scene) (command : AnyCommand) :
    StateM Scene (Except Error Receipt) := do
  let ctx ← Session.newContext
  (Gateway.send r ctx Dictionary.empty command.1 command.2 0.0).run

/-- Where a command stands while the gate is closed. -/
inductive Held where
  | finished (answer : Except Error Receipt)
  /-- It is at the gate, inside its unit of work. -/
  | atGate
  /-- It waits for the critical section. -/
  | waiting

/-- Whether a command is at the gate. -/
def Held.isAtGate : Held → Bool
  | atGate => true
  | _ => false

/-- Whether a command is finished. -/
def Held.isFinished : Held → Bool
  | finished _ => true
  | _ => false

/-- Starts a command while the gate is closed.  Once one is at the gate, all that
name the id wait.  The state is that of the commands that are finished. -/
def startHeld (r : Registry domain Scene) (held : Bool) (command : AnyCommand) :
    StateM Scene Held := do
  if held && (domain.target command.2).isSome then return .waiting
  else
    let before ← get
    set { before with world := { before.world with gate := none } }
    let answer ← sendFresh r command
    if (← get).world.gate.isSome then
      set before
      return .atGate
    else return .finished answer

/-- Starts commands in order, and counts the occupied sections after each. -/
def startAll (r : Registry domain Scene) :
    Bool → List AnyCommand → StateM Scene (List (Held × Nat))
  | _, [] => return []
  | held, c :: cs => do
    let h ← startHeld r held c
    let held := held || h.isAtGate
    return (h, if held then 1 else 0) :: (← startAll r held cs)

/-- The lines that the command at the gate has written so far. -/
def linesAtGate (r : Registry domain Scene) (s : Scene) (command : AnyCommand) : List String :=
  let (_, s') := sendFresh r command { s with world := Journal.empty }
  s'.world.lines.take (s'.world.gate.getD 0)

/-- A command that is dropped at the gate leaves its lines and the metric of the
sections, but nothing in the store. -/
def dropAtGate (r : Registry domain Scene) (command : AnyCommand) : StateM Scene Unit := do
  let s ← get
  set { s with
    world := { s.world with lines := s.world.lines ++ linesAtGate r s command }
    metrics := s.metrics.setOccupied 1 }

/-- Lets a command come to its end behind the open gate, or drops it. -/
def finishHeld (r : Registry domain Scene) (command : AnyCommand) (h : Held) (cancelled : Bool) :
    StateM Scene (Option (Except Error Receipt)) := do
  match h with
  | .finished answer => return some answer
  | .atGate =>
    if cancelled then
      dropAtGate r command
      return none
    else return some (← sendFresh r command)
  | .waiting => if cancelled then return none else return some (← sendFresh r command)

/-- Lets commands come to their ends in order; those at the listed places are
dropped. -/
def finishEach (r : Registry domain Scene) (cancel : List Nat) :
    Nat → List (AnyCommand × Held) → StateM Scene (List (Option (Except Error Receipt)))
  | _, [] => return []
  | i, (c, h) :: cs => do
    let answer ← finishHeld r c h (0 < i && cancel.contains (i - 1))
    return answer :: (← finishEach r cancel (i + 1) cs)

/-- Commands for one id that are started while the gate is closed.  The critical
section lets them through one after another, in the order in which they were
started. -/
def race (first : AnyCommand) (rest : List AnyCommand) (cancel : List Nat) :
    EngineTask Answer := do
  let r := (← get).registry
  let commands := first :: rest
  let before := (← get).scene.world.lines.length
  let started ← onScene (ExceptT.lift (startAll r false commands))
  let s := (← get).scene
  let pairs := commands.zip (started.map (·.1))
  let atGate := (pairs.find? fun p => p.2.isAtGate).map (·.1)
  let heldLines :=
    s.world.lines.drop before ++ ((atGate.map (linesAtGate r s)).getD [])
  let answers ← onScene (ExceptT.lift (finishEach r cancel 0 pairs))
  modify fun e =>
    let lines := e.scene.world.lines
    let later := lines.drop (before + heldLines.length)
    { e with scene := { e.scene with world := ⟨lines.take before ++ later, none⟩ } }
  return .race
    { queued := (started.drop 1).map (·.2)
      finishedEarly := ((started.drop 1).filter fun p => p.1.isFinished).length
      heldLines
      first := answers.head?.join
      rest := answers.drop 1
      sectionsAfter := (← get).scene.sections.size }

/-! ### One step -/

/-- Does a step. -/
def act : Step → EngineTask Answer
  | .send (some (name, metadata)) command => do send (← context name) metadata command
  | .send none command => do
    let ctx ← onScene (ExceptT.lift Session.newContext)
    send ctx Dictionary.empty command
  | .acquire name => do
    let ctx ← context name
    if (← get).scene.store.isHeldBy ctx then return .blocked
    onStore (Store.acquire ctx)
    return .done
  | .commit name => do
    onStore (Store.commit (← context name))
    return .done
  | .rollback name => do
    onStore (Store.rollback (← context name))
    return .done
  | .active name => do
    let ctx ← context name
    return .active ((← get).scene.store.isActive ctx)
  | .share name clone => do
    let ctx ← context name
    modify fun e => dropNameless { e with contexts := e.contexts.insert clone ctx }
    return .done
  | .load name id a => do return .snapshot ⟨a, ← onStore (Store.load (← context name) a id)⟩
  | .loadCommitted id a =>
    unlessWaiting readerWaits do return .snapshot ⟨a, ← onStore (Store.loadCommitted a id)⟩
  | .save name snapshot => do return .saved (← onStore (Store.save (← context name) snapshot.2))
  | .append name globalId e metadata => do
    return .appended (← onStore (Store.append (← context name) globalId e metadata))
  | .events globalId => unlessWaiting readerWaits do return .events (← onStore (Store.eventsOf globalId))
  | .query key input output => do
    let e ← get
    if e.readerWaits && readsStore e.registry key input.1 output then return .blocked
    else
      return .output ⟨output, ← onScene (Gateway.query e.registry key input.1 output input.2)⟩
  | .dump => unlessWaiting readerWaits content
  | .tamper t => unlessWaiting writerWaits (tamper t)
  | .migrate => migrate
  | .sections => do return .sections (← get).scene.sections
  | .metrics => do return .metrics (← get).scene.metrics.steadyLines
  | .race first rest cancel => do
    if (← get).writerWaits then giveUp first else race first rest cancel

/-- Does a step, and gives its answer with the lines that handlers wrote. -/
def step (e : Engine) (s : Step) : (Except Error Answer × List String) × Engine :=
  let (answer, e) := (act s).run e
  ((answer, e.scene.world.lines),
    { e with scene := { e.scene with world := Journal.empty } })

/-- Does steps in order. -/
def run (e : Engine) : List Step → List (Except Error Answer × List String)
  | [] => []
  | s :: ss =>
    let (answer, e) := e.step s
    answer :: e.run ss

end Engine

end Chronicle.Bench
