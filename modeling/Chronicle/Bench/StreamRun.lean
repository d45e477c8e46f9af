/-
Chronicle/Bench/StreamRun.lean

Runs of an event stream over scripted consumers, on a clock that stands still
while any worker can go on.

Workers take turns in the order in which they became ready, and each goes on
until it waits.  Those that pause become ready when the clock reaches the end of
their pause.  When a handler has started the shutdown, the signal is given as
soon as all other workers wait; of the workers whose handlers wait for it, the
last one then goes on first.
-/
import Chronicle.Bench.Script
import Chronicle.Metrics.Exposition

namespace Chronicle.Bench

/-! ### Turns -/

/-- A stream with the order of its turns.  Workers are known by their places. -/
structure StreamRun where
  stream : EventStream domain StreamScene
  scene : StreamScene
  /-- Who can go on, in order. -/
  ready : List Nat
  /-- Who pauses, and until when, in the order in which the pauses began. -/
  pauses : List (Nat × Nat)
  /-- Whose handler waits for the signal, the last one first. -/
  suspended : List Nat
  /-- The names of the consumers of the workers. -/
  keys : List String

namespace StreamRun

/-- The phase of a worker. -/
def phase? (r : StreamRun) (i : Nat) : Option (WorkerPhase StreamScene) :=
  (r.stream.running[i]?).map (·.phase)

/-- Sets the phase of a worker. -/
def setPhase (r : StreamRun) (i : Nat) (p : WorkerPhase StreamScene) : StreamRun :=
  let running := r.stream.running.modify i fun w => { w with phase := p }
  { r with stream := { r.stream with running } }

/-- Marks whose turn it is. -/
def setCurrent (r : StreamRun) (i : Nat) : StreamRun :=
  let current := (r.keys[i]?).getD ""
  { r with scene := { r.scene with world := { r.scene.world with current } } }

/-- One step of a worker.  When its handler waits, the step is undone but for what
was written down and decided, and is done again once the signal is given. -/
def stepWorker (r : StreamRun) (i : Nat) : StreamRun × Bool :=
  match r.stream.running[i]? with
  | none => (r, false)
  | some w =>
    let (p, scene) := (w.worker.step r.stream.isShutDown w.phase).run r.scene
    if scene.world.suspended then
      let world := { scene.world with suspended := false }
      ({ r with scene := { r.scene with world }, suspended := i :: r.suspended }, false)
    else (({ r with scene }).setPhase i p, true)

/-- The longest pause: thirty years of 365 days, in milliseconds. -/
def longestPause : Nat := 30 * 365 * 86400 * 1000

/-- How far the clock moves in a pause.  It begins between two ticks of the clock,
and is over with the first tick after its length. -/
def pauseLength (c : StreamConfig) : Nat := min c.backoff longestPause + 1

/-- Lets a worker go on until it waits, for a limited number of steps. -/
def goOn (i : Nat) : Nat → StreamRun → StreamRun
  | 0, r => r
  | n + 1, r =>
    match r.phase? i with
    | none | some .waiting | some .closed => r
    | some .pausing =>
      { r with pauses := r.pauses ++ [(i, r.scene.world.now + pauseLength r.stream.config)] }
    | some _ =>
      let (r, going) := r.stepWorker i
      if going then goOn i n r else r

/-- The next time at which a pause ends. -/
def nextTime (r : StreamRun) : Option Nat := (r.pauses.map (·.2)).min?

/-- Moves the clock, and makes those ready whose pauses end. -/
def moveClock (r : StreamRun) (time : Nat) : StreamRun :=
  let woken := (r.pauses.filter fun p => p.2 ≤ time).map (·.1)
  let r := woken.foldl (fun r i => r.setPhase i .polling) r
  { r with
    pauses := r.pauses.filter fun p => time < p.2
    ready := r.ready ++ woken
    scene := { r.scene with world := { r.scene.world with now := max r.scene.world.now time } } }

/-- Gives the signal, and lets all workers come to their ends: first those whose
handlers wait for it. -/
def shutdown (r : StreamRun) : StreamRun :=
  let world := { r.scene.world with signalled := true }
  let r := { r with scene := { r.scene with world }, ready := [], pauses := [] }
  let r := { r with stream := { r.stream with isShutDown := true } }
  let finishOne (r : StreamRun) (i : Nat) : StreamRun :=
    match r.stream.running[i]? with
    | none => r
    | some w =>
      let r := r.setCurrent i
      let (p, scene) := (w.worker.finish w.phase).run r.scene
      ({ r with scene }).setPhase i p
  let r := r.suspended.foldl finishOne r
  let r := { r with suspended := [] }
  let (((), stream), scene) := (EventStream.shutdown.run r.stream).run r.scene
  { r with stream, scene }

/-- Lets all workers go on until nothing more happens, for a limited number of
turns of a limited number of steps. -/
def drain (steps : Nat) : Nat → StreamRun → StreamRun
  | 0, r => r
  | n + 1, r =>
    match r.ready with
    | i :: rest => drain steps n (goOn i steps ({ r with ready := rest }.setCurrent i))
    | [] =>
      if !r.suspended.isEmpty then r.shutdown
      else
        match r.nextTime with
        | some time => drain steps n (r.moveClock time)
        | none => r

/-! ### Steps -/

/-- What is done with a stream. -/
inductive Step where
  | subscribe (group : String) (workers : Nat)
  | subscribeAll
  | drain
  | shutdown
  | state

/-- The answer to a step. -/
inductive Answer where
  | done (a : Except Error Unit)
  | state (isShutDown : Bool) (description : String)

/-- Subscribes, and makes the workers that were started ready.  Consumers of a
group that could not be connected as a whole come last and have no worker. -/
def subscribeWith (r : StreamRun) (t : StreamTask domain StreamScene Unit) :
    Except Error Unit × StreamRun :=
  let before := r.stream.running.length
  let opened := r.scene.world.opened.length
  let ((answer, stream), scene) := (t.run.run r.stream).run r.scene
  let started := stream.running.length - before
  (answer,
    { r with
      stream, scene
      ready := r.ready ++ List.range' before started
      keys := r.keys ++ (scene.world.opened.drop opened).take started })

/-- A bound on the number of polls that are answered, and one on the number of
steps between two of them. -/
def limits (r : StreamRun) : Nat × Nat :=
  let total (ns : List Nat) : Nat := ns.foldl (· + ·) 0
  let size (d : Desk) : Nat × Nat :=
    match d.script.source with
    | .batches answers =>
      (answers.length, total (answers.map fun a => a.toOption.elim 0 List.length))
    | .log records polls => (polls, records.length)
  let sizes := (r.keys.map r.scene.world.desk).map size
  let handlers := total (r.stream.registry.groups.entries.map fun g => g.2.handlers.length)
  (total (sizes.map (·.1)) + r.keys.length, (total (sizes.map (·.2)) + 1) * (handlers + 8))

/-- Lets all workers go on until nothing more happens.  Every turn of a worker
but its last ends with a pause, which takes a poll before it and one move of the
clock behind it. -/
def settle (r : StreamRun) : StreamRun :=
  let (polls, steps) := r.limits
  drain ((polls + 1) * steps) (2 * polls + 4) r

/-- One step. -/
def step (r : StreamRun) : Step → Answer × StreamRun
  | .subscribe group workers =>
    let (a, r) := r.subscribeWith (EventStream.subscribe connect group workers)
    (.done a, r)
  | .subscribeAll =>
    let (a, r) := r.subscribeWith (EventStream.subscribeAll connect)
    (.done a, r)
  | .drain => (.done (.ok ()), r.settle)
  | .shutdown => (.done (.ok ()), r.shutdown)
  | .state => (.state r.stream.isShutDown r.stream.describe, r)

/-- Steps in order, with their answers. -/
def run (r : StreamRun) : List Step → List Answer × StreamRun
  | [] => ([], r)
  | s :: ss =>
    let (a, r) := r.step s
    let (as, r) := r.run ss
    (a :: as, r)

end StreamRun

/-! ### Streams from a description -/

/-- A processing group with the names of its handlers.  It need not be declared. -/
structure GroupPlan where
  name : String
  workers : Option Nat
  handlers : List AnyStreamHandler

/-- The registrations of a group, one by one. -/
def GroupPlan.registrations (g : GroupPlan) : List (Registration domain StreamScene) :=
  (g.workers.map (Registration.group g.name)).toList
    ++ g.handlers.map fun h => .streamEvent g.name h.1 h.2

/-- Makes calls one after the other, whether or not they succeed. -/
def performEach (r : Registry domain StreamScene) :
    List (Registration domain StreamScene) → List (Except Error Unit) × Registry domain StreamScene
  | [] => ([], r)
  | call :: rest =>
    let (answer, r) := call.perform.run r
    let (answers, r) := performEach r rest
    (answer :: answers, r)

/-- All that is known after a run. -/
structure StreamReport where
  registered : List (Except Error Unit)
  answers : List StreamRun.Answer
  connected : List (String × Nat)
  metrics : Metrics
  /-- What every consumer was asked for. -/
  lines : List (String × List Line)

/-- Runs steps on a stream with some groups, beside which further calls fill the
table.  In the end all workers go on as long as they can, and the stream is shut
down. -/
def StreamReport.of (groups : List GroupPlan) (others : List (Registration domain StreamScene))
    (config : StreamConfig) (stage : Stage) (steps : List StreamRun.Step) : StreamReport :=
  let (registered, registry) :=
    performEach (Registry.empty Dependencies.empty) (groups.flatMap GroupPlan.registrations)
  let (_, registry) := (Registration.performAll others).run registry
  let start : StreamRun :=
    { stream := EventStream.start registry config
      scene := Session.start (Database.blank none) stage
      ready := [], pauses := [], suspended := [], keys := [] }
  let (answers, r) := start.run steps
  let session := (r.settle.shutdown).scene
  { registered, answers
    connected := session.world.connected
    metrics := session.metrics
    lines := session.world.desks.entries.map fun d => (d.1, d.2.lines) }

end Chronicle.Bench
