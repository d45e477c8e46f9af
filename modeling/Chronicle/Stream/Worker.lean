/-
Chronicle/Stream/Worker.lean

A worker of a processing group: it polls for records, has each one handled, and
tells the broker how far it has come.

* When all records of a batch succeed, the offsets behind them are committed.
* When one fails, what came before it is committed, every partition still
  pending is moved back to its first record that was not processed, and the
  worker pauses before it polls again.
* When a shutdown is signalled, what is done is committed and the consumer is
  closed.

`Worker.step` is one step of this, between two points at which others may run.
The signal is an input of every step, so it may come at any time.
-/
import Chronicle.Config
import Chronicle.Envelope
import Chronicle.Registry.Dispatch

namespace Chronicle

variable {D : Domain} {R W : Type}

/-! ### What a record asks for -/

/-- What has to be done for a record. -/
inductive Delivery (σ : Type) where
  /-- Nothing: it carries no event, or none that the group handles. -/
  | skip
  | fault (e : Error)
  /-- An event of a name, for the handlers in order. -/
  | deliver (typeName : String) (calls : List (Task σ Unit))

/-- The delivery of an envelope to a group. -/
def Registry.deliver {σ : Type} (r : Registry D σ) (group : String) (env : Envelope) : Delivery σ :=
  if r.handles group env.typeName then
    match r.decode env.typeName env.payload with
    | .error e => .fault e
    | .ok none => .fault (.serialization env.typeName .noDecoder)
    | .ok (some event) =>
      let info : EventInfo :=
        ⟨env.typeName, env.aggregateGlobalId, some env.globalSequence, env.metadata⟩
      .deliver env.typeName ((r.streamHandlers group event.typeName).map
        (Registry.callStream event (.forStreamEvent r.dependencies info)))
  else .skip

/-- The delivery of a record to a group. -/
def Registry.delivery {σ : Type} (r : Registry D σ) (group : String) (record : StreamRecord) :
    Delivery σ :=
  match record.value with
  | none => .skip
  | some bytes =>
    match Envelope.decode bytes with
    | .error e => .fault e
    | .ok none => .skip
    | .ok (some env) => r.deliver group env

/-! ### Workers -/

/-- What comes after a commit. -/
inductive AfterCommit where
  | poll
  | rewind (pending : List StreamRecord)
  | close

/-- How far a worker has come.  In a batch, `done` are the records that were
processed and `pending` all others, in order. -/
inductive WorkerPhase (σ : Type) where
  /-- About to poll. -/
  | polling
  /-- In a poll that does not end by itself. -/
  | waiting
  /-- Between two records. -/
  | batch (done pending : List StreamRecord)
  /-- Handlers are called for the first of the pending records. -/
  | handling (done : List StreamRecord) (record : StreamRecord) (rest : List StreamRecord)
      (typeName : String) (calls : List (Task σ Unit))
  | committing (done : List StreamRecord) (next : AfterCommit)
  | rewinding (pending : List StreamRecord)
  | pausing
  | closing
  | closed

/-- A worker with its connection. -/
structure Worker (D : Domain) (σ : Type) where
  registry : Registry D σ
  config : StreamConfig
  group : String
  id : Nat
  consumer : Consumer σ

namespace Worker

/-- A record or a poll failed. -/
def measureFailure (w : Worker D (Session R W)) (e : Error) : StateM (Session R W) Unit :=
  Session.measure fun m => m.recordFailed w.group e.kind

/-- Begins a pause. -/
def pause (w : Worker D (Session R W)) :
    StateM (Session R W) (WorkerPhase (Session R W)) := do
  Session.measure fun m => m.recordBackoff w.group
  return .pausing

/-- Polls once. -/
def poll (w : Worker D (Session R W)) : StateM (Session R W) (WorkerPhase (Session R W)) := do
  match ← w.consumer.poll w.config.pollTimeout w.config.maxPollRecords with
  | none => return .waiting
  | some (.error e) =>
    w.measureFailure e
    w.pause
  | some (.ok []) => return .polling
  | some (.ok records) => return .batch [] records

/-- Gives up the batch at its first pending record. -/
def fail (w : Worker D (Session R W)) (e : Error) (done pending : List StreamRecord) :
    StateM (Session R W) (WorkerPhase (Session R W)) := do
  w.measureFailure e
  return .committing done (.rewind pending)

/-- Looks at the next pending record. -/
def next (w : Worker D (Session R W)) (done : List StreamRecord) :
    List StreamRecord → StateM (Session R W) (WorkerPhase (Session R W))
  | [] => return .committing done .poll
  | record :: rest =>
    match w.registry.delivery w.group record with
    | .skip => return .batch (done ++ [record]) rest
    | .fault e => w.fail e done (record :: rest)
    | .deliver typeName calls => return .handling done record rest typeName calls

/-- Calls the next handler for a record; when there is none left, the record is
processed. -/
def handle (w : Worker D (Session R W)) (done : List StreamRecord) (record : StreamRecord)
    (rest : List StreamRecord) (typeName : String) :
    List (Task (Session R W) Unit) → StateM (Session R W) (WorkerPhase (Session R W))
  | [] => do
    Session.measure fun m => m.recordProcessed w.group typeName
    return .batch (done ++ [record]) rest
  | call :: calls => do
    match ← call.run with
    | .ok () => return .handling done record rest typeName calls
    | .error e => w.fail e done (record :: rest)

/-- Commits the offsets behind the processed records, if there are any.  A commit
that fails changes nothing else. -/
def commit (w : Worker D (Session R W)) (done : List StreamRecord) :
    StateM (Session R W) Unit := do
  if !done.isEmpty then
    match ← w.consumer.commit (Offsets.behind done) with
    | .ok () =>
      (Offsets.behind done).forM fun o =>
        Session.measure fun m => m.recordCommit w.group o.1.topic o.1.partition o.2
    | .error _ => pure ()

/-- What follows a commit. -/
def afterCommit : AfterCommit → WorkerPhase (Session R W)
  | .poll => .polling
  | .rewind pending => .rewinding pending
  | .close => .closing

/-- One step.  In a pause nothing happens until it is over or the signal comes. -/
def step (w : Worker D (Session R W)) (signalled : Bool) :
    WorkerPhase (Session R W) → StateM (Session R W) (WorkerPhase (Session R W))
  | .polling => if signalled then return .closing else w.poll
  | .waiting => return if signalled then .closing else .waiting
  | .batch done [] => w.next done []
  | .batch done (record :: rest) =>
    if signalled then return .committing done .close else w.next done (record :: rest)
  | .handling done record rest typeName calls => w.handle done record rest typeName calls
  | .committing done next => do
    w.commit done
    return afterCommit next
  | .rewinding pending => do
    let _ ← w.consumer.rewind (Offsets.start pending)
    w.pause
  | .pausing => return if signalled then .polling else .pausing
  | .closing => do
    let _ ← w.consumer.close
    return .closed
  | .closed => return .closed

/-- The end of a pause. -/
def wake : WorkerPhase (Session R W) → WorkerPhase (Session R W)
  | .pausing => .polling
  | p => p

/-- Whether a worker does nothing until it is woken or signalled. -/
def isBlocked : WorkerPhase (Session R W) → Bool
  | .waiting | .pausing | .closed => true
  | _ => false

end Worker

end Chronicle
