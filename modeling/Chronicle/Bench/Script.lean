/-
Chronicle/Bench/Script.lean

Consumers that follow a script, and handlers that refuse what they are told to
refuse.  Whatever a worker asks its consumer for, and every call of a handler, is
written down in the order in which it happens.

A handler may be told to start the shutdown of the stream and to wait until the
signal is given; `Stage.suspended` tells that it does.  Whether it refuses its
event is settled before it waits.
-/
import Chronicle.Bench.Vocabulary
import Chronicle.Bench.Handlers
import Chronicle.Stream.EventStream

namespace Chronicle.Bench

/-! ### What is written down -/

/-- A call of a consumer or of a handler. -/
inductive Line where
  /-- Times in milliseconds, and whole pauses that have passed since the start. -/
  | poll (timeout max waited : Nat)
  | handler (name event info : String)
  | commit (offsets : Offsets)
  | rewind (positions : Offsets)
  | close

/-! ### Scripts -/

/-- Where the answers to polls come from. -/
inductive Source where
  /-- One answer for each poll, in order. -/
  | batches (answers : List (Except String (List StreamRecord)))
  /-- Records that are read from positions, with a limited number of polls. -/
  | log (records : List StreamRecord) (polls : Nat)

/-- What a consumer does.  Calls are counted from one. -/
structure Script where
  source : Source
  commitErrors : List Nat
  rewindErrors : List Nat
  closeError : Bool

/-- A script without answers. -/
def Script.silent : Script := ⟨.batches [], [], [], false⟩

/-- A consumer at work. -/
structure Desk where
  script : Script
  positions : Offsets
  commits : Nat
  rewinds : Nat
  lines : List Line

/-- A consumer that has done nothing yet. -/
def Desk.new (script : Script) : Desk := ⟨script, [], 0, 0, []⟩

/-- The world in which workers run. -/
structure Stage where
  scripts : Dictionary Script
  connectErrors : List String
  /-- How often an event is still refused, by its number; always if absent. -/
  refusals : List (Int × Option Nat)
  shutdownAt : List Int
  backoff : Nat
  desks : Dictionary Desk
  /-- The names of the consumers, in the order in which they were connected. -/
  opened : List String
  /-- All attempts to connect. -/
  connected : List (String × Nat)
  /-- The time since the start, in milliseconds. -/
  now : Nat
  signalled : Bool
  /-- The consumer of the worker that runs. -/
  current : String
  /-- Whether the handler that was called waits for the signal. -/
  suspended : Bool
  /-- The consumers of the workers whose handlers wait, and whether these will
  refuse their events. -/
  waiting : List (String × Bool)

/-- The state in which workers run. -/
abbrev StreamScene := Driver.Scene Stage

/-- Changes the world. -/
def onStage (f : Stage → Stage) : StateM StreamScene Unit :=
  modify fun s => { s with world := f s.world }

namespace Stage

/-- A stage on which nobody has appeared. -/
def start (scripts : Dictionary Script) (connectErrors : List String)
    (refusals : List (Int × Option Nat)) (shutdownAt : List Int) (backoff : Nat) : Stage :=
  { scripts, connectErrors, refusals, shutdownAt, backoff
    desks := Dictionary.empty
    opened := []
    connected := []
    now := 0
    signalled := false
    current := ""
    suspended := false
    waiting := [] }

/-- The consumer of a name. -/
def desk (s : Stage) (key : String) : Desk := (s.desks.get? key).getD (Desk.new Script.silent)

/-- Changes the consumer of a name. -/
def setDesk (s : Stage) (key : String) (d : Desk) : Stage :=
  { s with desks := s.desks.insert key d }

/-- Writes a line for the consumer of a name. -/
def write (s : Stage) (key : String) (line : Line) : Stage :=
  s.setDesk key { s.desk key with lines := (s.desk key).lines ++ [line] }

/-- Whole pauses that have passed since the start. -/
def waited (s : Stage) : Nat := if s.backoff = 0 then 0 else s.now / s.backoff

end Stage

/-! ### Consumers -/

/-- The position of a partition. -/
def positionOf (os : Offsets) (place : TopicPartition) : Int :=
  ((os.find? fun o => o.1 == place).map (·.2)).getD 0

/-- The first records at or behind their positions, up to a number. -/
def recordsFrom (max : Nat) (os : Offsets) (records : List StreamRecord) : List StreamRecord :=
  (records.filter fun r => positionOf os r.place ≤ r.offset).take max

/-- Moves the positions behind records, one by one. -/
def moveBehind (os : Offsets) (records : List StreamRecord) : Offsets :=
  records.foldl (fun (os : Offsets) r => os.alter r.place fun _ => r.offset + 1) os

/-- The answer to a poll, and the consumer after it. -/
def Desk.poll (d : Desk) (max : Nat) : Option (Except Error (List StreamRecord)) × Desk :=
  match d.script.source with
  | .batches [] => (none, d)
  | .batches (a :: rest) =>
    (some (a.mapError .broker), { d with script := { d.script with source := .batches rest } })
  | .log _ 0 => (none, d)
  | .log records (polls + 1) =>
    let taken := recordsFrom max d.positions records
    let positions := moveBehind d.positions taken
    let d := { d with positions, script := { d.script with source := .log records polls } }
    (if taken.isEmpty then none else some (.ok taken), d)

/-- The consumer of a name. -/
def consumer (key : String) : Consumer StreamScene where
  poll timeout max := fun s =>
    let stage := s.world.write key (.poll timeout max s.world.waited)
    let (answer, d) := (stage.desk key).poll max
    (answer, { s with world := stage.setDesk key d })
  commit offsets := fun s =>
    let stage := s.world.write key (.commit offsets)
    let d := stage.desk key
    let n := d.commits + 1
    let answer : Except Error Unit :=
      if d.script.commitErrors.contains n then .error (.broker "commit failed") else .ok ()
    (answer, { s with world := stage.setDesk key { d with commits := n } })
  rewind positions := fun s =>
    let stage := s.world.write key (.rewind positions)
    let d := stage.desk key
    let n := d.rewinds + 1
    if d.script.rewindErrors.contains n then
      (.error (.broker "rewind failed"), { s with world := stage.setDesk key { d with rewinds := n } })
    else
      let moved := positions.foldl (fun (os : Offsets) p => os.alter p.1 fun _ => p.2) d.positions
      (.ok (), { s with world := stage.setDesk key { d with rewinds := n, positions := moved } })
  close := fun s =>
    let stage := s.world.write key .close
    let answer : Except Error Unit :=
      if (stage.desk key).script.closeError then .error (.broker "close failed") else .ok ()
    (answer, { s with world := stage })

/-- A name that no consumer has yet: later ones of a name are marked. -/
def freshKey (desks : Dictionary Desk) : Nat → String → String
  | 0, key => key
  | n + 1, key => if desks.contains key then freshKey desks n (key ++ "'") else key

/-- Connects a worker of a group. -/
def connect : Connect StreamScene := fun group worker => do
  onStage fun s => { s with connected := s.connected ++ [(group, worker)] }
  let s := (← get).world
  let name := s!"{group}/{worker}"
  if s.connectErrors.contains name then
    return .error (.broker s!"cannot connect {name}")
  else
    let key := freshKey s.desks s.desks.size name
    onStage fun s =>
      { s.setDesk key (Desk.new ((s.scripts.get? key).getD Script.silent)) with
        opened := s.opened ++ [key] }
    return .ok (consumer key)

/-! ### Handlers -/

/-- Uses up one refusal of a number, if there is one. -/
def refuse (n : Int) : List (Int × Option Nat) → Bool × List (Int × Option Nat)
  | [] => (false, [])
  | (m, budget) :: rest =>
    if m = n then
      match budget with
      | none => (true, (m, none) :: rest)
      | some 0 => (false, (m, some 0) :: rest)
      | some (k + 1) => (true, (m, some k) :: rest)
    else
      let (refused, rest) := refuse n rest
      (refused, (m, budget) :: rest)

/-- What a handler does: it writes a line, decides whether to refuse its event,
may start the shutdown and wait for the signal, and does what it decided.  A
handler that waited goes on behind its decision. -/
def handleNumbered (name : String) (n : Int) (event : String) (info : EventInfo) :
    Work StreamScene Unit := do
  let s := (← get).world
  match s.waiting.lookup s.current with
  | some refused =>
    onStage fun s => { s with waiting := s.waiting.filter fun w => w.1 ≠ s.current }
    if refused then throw s!"refusing {n}"
  | none =>
    let (refused, refusals) := refuse n s.refusals
    onStage fun s =>
      { s.write s.current (.handler name event (infoText info)) with refusals }
    if s.shutdownAt.contains n && !s.signalled then
      onStage fun s =>
        { s with suspended := true, waiting := s.waiting ++ [(s.current, refused)] }
    else if refused then throw s!"refusing {n}"

/-- A handler of the stream, of any type of events. -/
abbrev AnyStreamHandler := Σ e : domain.EventType, EventHandler domain StreamScene e

/-- A handler that gives every event a number and a text. -/
def numbered (name : String) (type : EventType) (number : Event type → Int)
    (shown : Event type → String) : AnyStreamHandler :=
  ⟨.other type, [.event], fun (info, ()) (e : Event type) =>
    handleNumbered name (number e) (shown e) info⟩

/-- The handlers of the stream, by name. -/
def streamHandler? : String → Option AnyStreamHandler
  | "added" =>
    numbered "added" .added (fun (e : Added) => e.amount.toInt) fun (e : Added) => s!"{e.amount}"
  | "added2" =>
    numbered "added2" .added (fun (e : Added) => (e.amount + (1000 : Int64)).toInt)
      fun (e : Added) => s!"{e.amount}"
  | "noted" =>
    numbered "noted" .noted (fun (e : Noted) => e.text.utf8ByteSize) fun (e : Noted) => e.text
  | "opened" => numbered "opened" .opened (fun _ => -1) fun _ => ""
  | "twin" =>
    numbered "twin" .twin (fun (e : Twin) => e.amount.toInt) fun (e : Twin) => s!"{e.amount}"
  | _ => none

end Chronicle.Bench
