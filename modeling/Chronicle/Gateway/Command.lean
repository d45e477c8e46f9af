/-
Chronicle/Gateway/Command.lean

Commands: load the aggregate, call the handler, apply and publish and append its
events one by one, save the new state.  All of this is one unit of work in the
critical section of the aggregate's id.

1. A context that has a unit of work is refused.
2. The command names the id; without one nothing happens at all.
3. The id's critical section is entered, and a unit of work started.
4. The aggregate is loaded; a creation command may find none.
5. The command's handler is called.  If it emits no event, that is all.
6. A new aggregate gets an empty row, because its events refer to the row.
7. For every event in order: the state handler, the domain event handlers, and
   then the event is appended.
8. The state is saved, provided that the stored sequence is still the one loaded.
9. The unit of work is committed.

A failure in 4 to 8 rolls the unit of work back.  The section is left on every
path.
-/
import Chronicle.Registry.Dispatch
import Chronicle.Store.Aggregates
import Chronicle.Store.EventLog

namespace Chronicle

/-- What a successful command left behind. -/
structure Receipt where
  businessId : Uuid
  /-- Absent only when a creation command emitted no event. -/
  globalId : Option Int
  sequence : Int
  /-- The name and the sequence of every event, in order. -/
  events : List (String × Int)
  deriving DecidableEq, Repr

namespace Gateway

variable {D : Domain} {R W : Type}

/-- The aggregate of an id, or a new one. -/
def loadOrFresh (ctx : ExecutionContext) (a : D.AggregateType) (id : Uuid) :
    Task (Session R W) (Snapshot D a) :=
  ExceptT.mk do
    match ← (Session.onStore (Store.load ctx a id)).run with
    | .error (.notFound _) => return .ok (Snapshot.fresh id)
    | answer => return answer

/-- The number of the aggregate's row, which is inserted if there is none. -/
def ensureRow (ctx : ExecutionContext) {a : D.AggregateType} (s : Snapshot D a) :
    Task (Session R W) Int :=
  match s.globalId with
  | some globalId => pure globalId
  | none => Session.onStore (Store.save ctx (s.withState none))

/-- One event: state handler, domain event handlers, append. -/
def applyEvent (r : Registry D (Session R W)) (ctx : ExecutionContext) (metadata : Metadata)
    (globalId : Int) {a : D.AggregateType} (state : D.State a) (e : AnyEvent D) :
    Task (Session R W) (D.State a × Int) := do
  let state ← MonadExcept.ofExcept (r.dispatchState a state e)
  let info : EventInfo := ⟨e.typeName, globalId, none, metadata⟩
  r.dispatchDomain e (.forDomainEvent r.dependencies ctx info)
  let sequence ← Session.onStore (Store.append ctx globalId e metadata)
  return (state, sequence)

/-- All events, up to the first failure. -/
def applyEvents (r : Registry D (Session R W)) (ctx : ExecutionContext) (metadata : Metadata)
    (globalId : Int) {a : D.AggregateType} :
    D.State a → List (AnyEvent D) → Task (Session R W) (D.State a × List (String × Int))
  | state, [] => pure (state, [])
  | state, e :: es => do
    let (state, sequence) ← applyEvent r ctx metadata globalId state e
    let (state, appended) ← applyEvents r ctx metadata globalId state es
    return (state, (e.typeName, sequence) :: appended)

/-- The sequence of the last event that was appended. -/
def lastSequence (start : Int) (appended : List (String × Int)) : Int :=
  (appended.getLast?.map (·.2)).getD start

/-- The events of a command, applied to the state that its handler left, and the
state saved. -/
def store (r : Registry D (Session R W)) (ctx : ExecutionContext) (metadata : Metadata)
    {a : D.AggregateType} (snapshot : Snapshot D a) (state : D.State a)
    (events : List (AnyEvent D)) : Task (Session R W) Receipt := do
  let globalId ← ensureRow ctx snapshot
  let (state, appended) ← applyEvents r ctx metadata globalId state events
  let sequence := lastSequence snapshot.sequence appended
  let saved := ((snapshot.savedAs globalId).withState (some state)).advanceTo sequence
  let _ ← Session.onStore (Store.save ctx saved)
  return ⟨snapshot.businessId, some globalId, sequence, appended⟩

/-- The work of a command inside its unit of work. -/
def process (r : Registry D (Session R W)) (ctx : ExecutionContext) (metadata : Metadata)
    (id : Uuid) (c : D.CommandType) (command : D.Command c) : Task (Session R W) Receipt := do
  let snapshot ← loadOrFresh ctx (D.aggregateOf c) id
  let (state, buffer) ←
    r.dispatchCommand c snapshot.state command (.forCommand r.dependencies ctx)
  if buffer.isEmpty then return ⟨id, snapshot.globalId, snapshot.sequence, []⟩
  else store r ctx metadata snapshot state buffer.events

/-- The unit of work of a command: committed if the work succeeds, and rolled
back otherwise. -/
def unitOfWork (ctx : ExecutionContext) {α : Type} (work : Task (Session R W) α) :
    Task (Session R W) α := do
  Session.onStore (Store.acquire ctx)
  ExceptT.mk do
    match ← work.run with
    | .ok a =>
      match ← (Session.onStore (Store.commit ctx)).run with
      | .ok () => return .ok a
      | .error e => return .error e
    | .error e =>
      let _ ← (Session.onStore (Store.rollback ctx)).run
      return .error e

/-- Enters the critical section of an id, and gives the key to leave it with. -/
def enterSection (id : Uuid) : StateM (Session R W) Nat := fun s =>
  (s.sections.nextTicket, { s with sections := s.sections.enter id })

/-- Leaves a critical section. -/
def leaveSection (key : Nat) : StateM (Session R W) Unit :=
  modify fun s => { s with sections := s.sections.exit key }

/-- Work in the critical section of an id. -/
def inSection (id : Uuid) {α : Type} (work : Task (Session R W) α) : Task (Session R W) α :=
  ExceptT.mk do
    let key ← enterSection id
    Session.measureSections
    let answer ← work.run
    leaveSection key
    return answer

/-- A command from the first check to the end of its critical section. -/
def run (r : Registry D (Session R W)) (ctx : ExecutionContext) (metadata : Metadata)
    (c : D.CommandType) (command : D.Command c) : Task (Session R W) Receipt := do
  if (← get).store.isActive ctx then throw .unitOfWorkActive
  match D.target command with
  | none => throw (.noTargetIdentifier (D.commandName c))
  | some id => inSection id (unitOfWork ctx (process r ctx metadata id c command))

/-- How an answer is counted. -/
def outcome : Except Error Receipt → String
  | .ok _ => "ok"
  | .error e => e.kind

/-- Counts the events of a command that succeeded. -/
def measureEvents : Except Error Receipt → StateM (Session R W) Unit
  | .ok receipt => receipt.events.forM fun e => Session.measure fun m => m.recordAppended e.1
  | .error _ => pure ()

/-- Sends a command from a context, with metadata for all of its events.  The
caller's clock tells how many seconds it takes. -/
def send (r : Registry D (Session R W)) (ctx : ExecutionContext) (metadata : Metadata)
    (c : D.CommandType) (command : D.Command c) (seconds : Float) :
    Task (Session R W) Receipt :=
  ExceptT.mk do
    let answer ← (run r ctx metadata c command).run
    measureEvents answer
    Session.measure fun m => m.recordCommand (D.commandName c) seconds (outcome answer)
    Session.measureSections
    return answer

/-- The description of a gateway shows its critical sections. -/
def describe (s : CriticalSections) : String :=
  Text.describeOpen "CommandGateway" [("sections", s.describe)]

end Gateway

end Chronicle
