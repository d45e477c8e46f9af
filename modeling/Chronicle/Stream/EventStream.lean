/-
Chronicle/Stream/EventStream.lean

The workers of all processing groups that are subscribed.

A subscription connects all of its workers before any of them is started, so one
that fails starts none.  A shutdown signals every worker and ends when each of
them has closed its consumer; after that nothing can be subscribed.
-/
import Chronicle.Stream.Worker

namespace Chronicle

variable {D : Domain} {R W : Type}

/-! ### Workers that come to an end -/

namespace Worker

/-- How many steps a signalled worker needs at most until it is closed. -/
def stepsToClose : WorkerPhase (Session R W) → Nat
  | .handling _ _ _ _ calls => calls.length + 8
  | _ => 8

/-- A number of steps of a worker that is signalled. -/
def stepSignalled (w : Worker D (Session R W)) :
    Nat → WorkerPhase (Session R W) → StateM (Session R W) (WorkerPhase (Session R W))
  | 0, p => return p
  | n + 1, p => do
    let p ← w.step true p
    stepSignalled w n p

/-- What a worker still does once it is signalled. -/
def finish (w : Worker D (Session R W)) (p : WorkerPhase (Session R W)) :
    StateM (Session R W) (WorkerPhase (Session R W)) :=
  w.stepSignalled (stepsToClose p) p

end Worker

/-! ### The stream -/

/-- A worker that was started. -/
structure Running (D : Domain) (σ : Type) where
  worker : Worker D σ
  phase : WorkerPhase σ

/-- The event stream. -/
structure EventStream (D : Domain) (σ : Type) where
  registry : Registry D σ
  config : StreamConfig
  running : List (Running D σ)
  isShutDown : Bool

/-- Work on the stream and on the state. -/
abbrev StreamTask (D : Domain) (σ : Type) := ExceptT Error (StateT (EventStream D σ) (StateM σ))

namespace EventStream

/-- A stream without workers. -/
def start {σ : Type} (r : Registry D σ) (config : StreamConfig) : EventStream D σ :=
  ⟨r, config, [], false⟩

/-- The description of the settings of a stream. -/
def describeConfig (c : StreamConfig) : String :=
  Text.describe "StreamConfig"
    [("poll_timeout", StreamConfig.describeTime c.pollTimeout),
     ("max_poll_records", s!"{c.maxPollRecords}"),
     ("backoff", StreamConfig.describeTime c.backoff)]

/-- The description of a stream. -/
def describe {σ : Type} (s : EventStream D σ) : String :=
  Text.describeOpen "EventStream"
    [("config", describeConfig s.config), ("shut_down", if s.isShutDown then "true" else "false")]

/-- Connects workers in order, up to the first that cannot be connected. -/
def connectAll {σ : Type} (connect : Connect σ) (group : String) :
    List Nat → StateM σ (Except Error (List (Nat × Consumer σ)))
  | [] => return .ok []
  | id :: ids => do
    match ← connect group id with
    | .error e => return .error e
    | .ok consumer =>
      match ← connectAll connect group ids with
      | .error e => return .error e
      | .ok rest => return .ok ((id, consumer) :: rest)

/-- Whether a group can be subscribed with a number of workers. -/
def check {σ : Type} (s : EventStream D σ) (group : String) (workers : Nat) : Except Error Unit :=
  if workers = 0 ∨ maxWorkers < workers then
    .error (.definition
      (s!"processing group {group} asks for {workers} workers, allowed " ++ s!"1..={maxWorkers}"))
  else if !s.registry.groups.contains group then
    .error (.definition s!"unknown processing group {group}")
  else if s.isShutDown then .error (.broker "event stream is shut down")
  else .ok ()

/-- Starts workers with consecutive numbers for a group. -/
def subscribe {σ : Type} (connect : Connect σ) (group : String) (workers : Nat) :
    StreamTask D σ Unit := do
  let s ← get
  MonadExcept.ofExcept (s.check group workers)
  let consumers ← ExceptT.mk (StateT.lift (connectAll connect group (List.range' 1 workers)))
  modify fun s =>
    { s with
      running := s.running ++ consumers.map fun c =>
        ⟨⟨s.registry, s.config, group, c.1, c.2⟩, .polling⟩ }

/-- Subscribes groups with their own numbers of workers, up to the first failure. -/
def subscribeEach {σ : Type} (connect : Connect σ) :
    List (ProcessingGroup D σ) → StreamTask D σ Unit
  | [] => pure ()
  | g :: gs => do
    subscribe connect g.name g.workers
    subscribeEach connect gs

/-- Subscribes all groups in the order of their names. -/
def subscribeAll {σ : Type} (connect : Connect σ) : StreamTask D σ Unit := do
  let s ← get
  subscribeEach connect (s.registry.groups.entries.map (·.2))

/-- Lets every worker come to its end, in order. -/
def finishAll : List (Running D (Session R W)) → StateM (Session R W) (List (Running D (Session R W)))
  | [] => return []
  | w :: ws => do
    let phase ← w.worker.finish w.phase
    let ws ← finishAll ws
    return ⟨w.worker, phase⟩ :: ws

/-- Signals all workers and waits until they are closed. -/
def shutdown : StateT (EventStream D (Session R W)) (StateM (Session R W)) Unit := do
  let s ← get
  let running ← StateT.lift (finishAll s.running)
  set { s with running, isShutDown := true }

end EventStream

end Chronicle
