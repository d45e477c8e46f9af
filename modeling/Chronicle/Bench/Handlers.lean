/-
Chronicle/Bench/Handlers.lean

The handlers of counters and labels that can be registered, by name.  Handlers
write lines into a journal, from which it can be told which of them were called,
when, and with what.
-/
import Chronicle.Bench.Vocabulary
import Chronicle.Driver.Handlers
import Chronicle.Registry.Dispatch

namespace Chronicle.Bench

/-! ### The journal -/

/-- What handlers have written, and how much was written when one of them first
came to the gate at which commands can be held up. -/
structure Journal where
  lines : List String
  gate : Option Nat
  deriving DecidableEq, Repr

/-- The journal without lines. -/
def Journal.empty : Journal := ⟨[], none⟩

/-- The state in which handlers work. -/
abbrev Scene := Driver.Scene Journal

/-- Writes a line. -/
def writeLine (line : String) : Work Scene Unit :=
  modify fun s => { s with world := { s.world with lines := s.world.lines ++ [line] } }

/-- Takes note of an arrival at the gate. -/
def reachGate : Work Scene Unit :=
  modify fun s =>
    { s with world := { s.world with gate := s.world.gate.or (some s.world.lines.length) } }

/-- What a handler knows about its event, in one line. -/
def infoText (info : EventInfo) : String :=
  let sequence := (info.globalSequence.map fun n => s!"{n}").getD "none"
  s!"{info.typeName} gid={info.aggregateGlobalId} seq={sequence} meta={info.metadata.text}"

/-! ### Commands -/

/-- Does the acts of a command with a counter, in order. -/
def runActs : List Act → Counter → EventBuffer domain → Work Scene (Counter × EventBuffer domain)
  | [], c, buffer => pure (c, buffer)
  | .emit type e :: acts, c, buffer => runActs acts c (buffer.emit (event type e))
  | .set value :: acts, c, buffer => runActs acts { c with value } buffer
  | .fail text :: _, _, _ => throw text

/-- A side input that is a shared value. -/
def shared (v : ValueType) : SideInput domain := .dependency (.value (.other v))

/-- The time that a shared clock shows. -/
def timeOf (now : (shared .clock).Carrier) : UInt64 := now

/-- A handler that creates a counter after writing some lines. -/
def creating (c : CommandType) (h : vocabulary.aggregateOf c = .counter)
    (inputs : List (SideInput domain))
    (lines : Inputs inputs → List String) : Registration domain Scene :=
  .creation (.other c)
    { inputs
      run := fun values (command : Command) => do
        (lines values).forM writeLine
        let (counter, buffer) ← runActs command.acts Counter.zero {}
        return (cast (congrArg State h.symm) counter, buffer) }

/-- A handler that changes a counter after writing some lines. -/
def changing (c : CommandType) (h : vocabulary.aggregateOf c = .counter)
    (inputs : List (SideInput domain))
    (lines : Inputs inputs → Command → List String) : Registration domain Scene :=
  .mutation (.other c)
    { inputs
      run := fun values state (command : Command) => do
        (lines values command).forM writeLine
        let counter : Counter := cast (congrArg State h) state
        let (counter, buffer) ← runActs command.acts counter {}
        return (cast (congrArg State h.symm) counter, buffer) }

/-- Creates a label, doing the acts with a counter that is thrown away. -/
def tagging : Registration domain Scene :=
  .creation (.other .tag)
    { inputs := []
      run := fun _ (command : Command) => do
        let (_, buffer) ← runActs command.acts Counter.zero {}
        return (Label.mk "", buffer) }

/-- The creation handlers. -/
def creation? : String → Option (Registration domain Scene)
  | "open" => creating .opening rfl [] fun _ => []
  | "open_journal" => creating .opening rfl [shared .journal] fun _ => ["open_journal"]
  | "open_missing" => creating .opening rfl [shared .missing] fun _ => []
  | "open_ctx" => creating .opening rfl [.execution] fun _ => []
  | "open_view" => creating .opening rfl [.stateless] fun _ => []
  | "open_info" => creating .opening rfl [.event] fun _ => []
  | "open_four" =>
    creating .opening rfl [shared .journal, shared .clock, .execution, shared .clock]
      fun (_, a, _, b, ()) => [s!"open_four {timeOf a} {timeOf b}"]
  | "add_new" => creating .add rfl [] fun _ => []
  | "tag" => tagging
  | _ => none

/-- The mutation handlers. -/
def mutation? : String → Option (Registration domain Scene)
  | "add" => changing .add rfl [] fun _ _ => []
  | "add_journal" =>
    changing .add rfl [shared .journal] fun _ c => [s!"add_journal {c.acts.length}"]
  | "add_missing" => changing .add rfl [shared .clock, shared .missing] fun _ _ => []
  | "add_ctx" => changing .add rfl [.execution] fun _ _ => []
  | "add_view" => changing .add rfl [.stateless] fun _ _ => []
  | "add_info" => changing .add rfl [.event] fun _ _ => []
  | "add_three" =>
    changing .add rfl [shared .clock, .execution, shared .journal]
      fun (now, _) _ => [s!"add_three {timeOf now}"]
  | "open_mut" => changing .opening rfl [] fun _ _ => []
  | _ => none

/-! ### State -/

/-- A state handler of counters. -/
def counterState (e : EventType) (f : Counter → Event e → Counter) : StateHandler domain :=
  ⟨.other .counter, .other e, f⟩

/-- A state handler of labels. -/
def labelState (e : EventType) (f : Label → Event e → Label) : StateHandler domain :=
  ⟨.other .label, .other e, f⟩

/-- The state handlers.  Amounts wrap around at 64 bits. -/
def state? : String → Option (StateHandler domain)
  | "counter_opened" => counterState .opened fun c _ => c
  | "counter_added" => counterState .added fun c (e : Added) => { c with value := c.value + e.amount }
  | "counter_twin" => counterState .twin fun c (e : Twin) => { c with value := c.value - e.amount }
  | "counter_noted" =>
    counterState .noted fun c (e : Noted) => { c with notes := c.notes ++ [e.text] }
  | "label_tagged" => labelState .tagged fun _ (e : Tagged) => ⟨e.text⟩
  | "label_added" =>
    labelState .added fun l (e : Added) => ⟨s!"{l.text}+{e.amount}"⟩
  | _ => none

/-! ### Events -/

/-- An event handler of this business, of any type of events. -/
abbrev AnyHandler := Σ e : domain.EventType, EventHandler domain Scene e

/-- A handler of `Added` that writes lines. -/
def addedLines (inputs : List (SideInput domain))
    (lines : Inputs inputs → Int64 → List String) : AnyHandler :=
  ⟨.other .added, inputs, fun values (e : Added) => (lines values e.amount).forM writeLine⟩

/-- A handler without side inputs that writes one line. -/
def oneLine (type : EventType) (line : Event type → String) : AnyHandler :=
  ⟨.other type, [], fun _ (e : Event type) => writeLine (line e)⟩

/-- Writes whether the context has a unit of work. -/
def addedContext : AnyHandler :=
  ⟨.other .added, [.execution], fun (ctx, ()) (e : Added) => do
    let active := (← get).store.isActive ctx
    writeLine s!"added_ctx {e.amount} active={active}"⟩

/-- Fails for small amounts. -/
def addedFail : AnyHandler :=
  ⟨.other .added, [], fun _ (e : Added) => do
    if e.amount < 100 then throw s!"added failed {e.amount}"⟩

/-- The event handlers, for commands and for streams. -/
def eventHandler? : String → Option AnyHandler
  | "added_plain" => oneLine .added fun (e : Added) => s!"added_plain {e.amount}"
  | "added_again" => oneLine .added fun (e : Added) => s!"added_again {e.amount}"
  | "added_journal" => addedLines [shared .journal] fun _ n => [s!"added_journal {n}"]
  | "added_info" =>
    addedLines [.event] fun (info, ()) n => [s!"added_info {n} {infoText info}"]
  | "added_ctx" => addedContext
  | "added_view" => addedLines [.stateless] fun _ n => [s!"added_view {n}"]
  | "added_missing" => addedLines [shared .missing] fun _ n => [s!"added_missing {n}"]
  | "added_fail" => addedFail
  | "added_four" =>
    addedLines [.event, shared .journal, shared .clock, shared .journal]
      fun (info, _, now, _) n => [s!"added_four {n} {timeOf now}", infoText info]
  | "twin_plain" => oneLine .twin fun (e : Twin) => s!"twin_plain {e.amount}"
  | "noted_plain" => oneLine .noted fun (e : Noted) => s!"noted_plain {e.text}"
  | "opened_plain" => oneLine .opened fun _ => "opened_plain"
  | _ => none

/-! ### Queries -/

/-- A query whose answer depends on its input alone. -/
def pureQuery (i o : ValueType) (inputs : List (SideInput domain)) (f : Value i → Value o) :
    QueryHandler domain Scene :=
  ⟨.other i, .other o, inputs, fun _ (x : Value i) => pure (f x)⟩

/-- A text with its ASCII letters in upper case. -/
def upperAscii (s : String) : String :=
  s.map fun c => if 'a' ≤ c ∧ c ≤ 'z' then Char.ofNat (c.toNat - 32) else c

/-- The query handlers. -/
def query? : String → Option (QueryHandler domain Scene)
  | "double" => pureQuery .i64 .i64 [] fun (n : Int64) => n * (2 : Int64)
  | "length" => pureQuery .string .u64 [] fun (s : String) => UInt64.ofNat s.length
  | "upper" => pureQuery .string .string [.stateless] upperAscii
  | "half" => pureQuery .u32 .u32 [] fun (n : UInt32) => n / (2 : UInt32)
  | "now" =>
    some ⟨.other .unit, .other .u64, [shared .clock], fun (now, ()) _ => pure (timeOf now)⟩
  | "missing" => pureQuery .i64 .i64 [shared .missing] id
  | "in_ctx" => pureQuery .i64 .i64 [.execution] id
  | "in_info" => pureQuery .i64 .i64 [.event] id
  | "in_view" => pureQuery .i64 .i64 [.stateless] id
  | "three" =>
    some ⟨.other .i64, .other .u64, [.stateless, shared .clock, shared .journal],
      fun (_, now, _) (n : Int64) => do
        writeLine s!"three {n}"
        return timeOf now⟩
  | "positive" =>
    some ⟨.other .i64, .other .i64, [], fun _ (n : Int64) => do
      if n ≤ (0 : Int64) then throw s!"{n} is not positive" else return n⟩
  | _ => none

end Chronicle.Bench
