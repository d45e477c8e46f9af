/-
Chronicle/Bench/Vocabulary.lean

A small business with which the engine is exercised: counters that add amounts up
and keep notes, and labels that bear a text.

What a command does is written into the command as a list of acts, so that every
course of events can be brought about.
-/
import Chronicle.Driver.Vocabulary
import Chronicle.Event

namespace Chronicle.Bench

open Json

/-! ### Aggregates and events -/

/-- An aggregate that adds up amounts. -/
structure Counter where
  value : Int64
  notes : List String
  deriving DecidableEq

/-- The counter that a creation starts from. -/
def Counter.zero : Counter := ⟨0, []⟩

/-- An aggregate that bears a text. -/
structure Label where
  text : String
  deriving DecidableEq

/-- An event with an amount. -/
structure Added where
  amount : Int64
  deriving DecidableEq

/-- An event of another type that is stored under the same name as `Added`. -/
structure Twin where
  amount : Int64
  deriving DecidableEq

/-- An event with a text. -/
structure Noted where
  text : String
  deriving DecidableEq

/-- An event that no handler knows. -/
structure Ghost where
  n : Int64
  deriving DecidableEq

/-- An event of labels. -/
structure Tagged where
  text : String
  deriving DecidableEq

/-- Types of events. -/
inductive EventType where
  | opened
  | added
  | twin
  | noted
  | ghost
  | tagged
  deriving DecidableEq

/-- The events of a type. -/
def Event : EventType → Type
  | .opened => Unit
  | .added => Added
  | .twin => Twin
  | .noted => Noted
  | .ghost => Ghost
  | .tagged => Tagged

/-- Types of aggregates. -/
inductive AggregateType where
  | counter
  | label
  deriving DecidableEq

/-- The states of an aggregate. -/
def State : AggregateType → Type
  | .counter => Counter
  | .label => Label

/-! ### Commands -/

/-- What a command handler is told to do. -/
inductive Act where
  | emit (type : EventType) (event : Event type)
  | set (value : Int64)
  | fail (text : String)

/-- A command of any type: the aggregate it is for, and the acts of its handler. -/
structure Command where
  id : Option Uuid
  acts : List Act

/-- Types of commands. -/
inductive CommandType where
  | opening
  | add
  | tag
  | orphan
  deriving DecidableEq

/-! ### Other values -/

/-- Types of values that queries and handlers use. -/
inductive ValueType where
  | unit
  | string
  | i64
  | u32
  | u64
  | clock
  | missing
  | journal
  deriving DecidableEq

/-- The values of a type.  A clock shows its time, and a missing value is never
there. -/
def Value : ValueType → Type
  | .unit => Unit
  | .string => String
  | .i64 => Int64
  | .u32 => UInt32
  | .u64 => UInt64
  | .clock => UInt64
  | .missing => Empty
  | .journal => Unit

/-! ### Stored forms -/

/-- A text that cannot be stored where it is refused. -/
def cursed : String := "cursed"

/-- The only field of a record. -/
def onlyField {α : Type} (name : String) (c : Codec α) (t : Tree) : Option α := do
  match ← t.fields? [name] with
  | [field] => c.required field
  | _ => none

/-- Records of one 64-bit integer. -/
def integerRecord {α : Type} (name : String) (get : α → Int64) (make : Int64 → α) : Codec α where
  encode a := .ok (.ofMembers [(name, .int (get a).toInt)])
  decode t := (onlyField name Codec.int64 t).map make

/-- Records of one text. -/
def textRecord {α : Type} (name : String) (get : α → String) (make : String → α) : Codec α where
  encode a := .ok (.ofMembers [(name, .text (get a))])
  decode t := (onlyField name Codec.text t).map make

/-- Records that refuse to store the cursed text. -/
def guarded {α : Type} (get : α → String) (c : Codec α) : Codec α where
  encode a := if get a = cursed then .error "cursed text" else c.encode a
  decode := c.decode

/-- How counters are stored. -/
def counterCodec : Codec Counter where
  encode c := do
    let notes ← (Codec.list Codec.text).encode c.notes
    return .ofMembers [("value", .int c.value.toInt), ("notes", notes)]
  decode t := do
    match ← t.fields? ["value", "notes"] with
    | [value, notes] =>
      return ⟨← Codec.int64.required value, ← (Codec.list Codec.text).required notes⟩
    | _ => none

/-- How labels are stored. -/
def labelCodec : Codec Label := guarded Label.text (textRecord "text" Label.text Label.mk)

/-- How `Opened` is stored: as null. -/
def openedCodec : Codec Unit where
  encode _ := .ok .null
  decode
    | .null => some ()
    | _ => none

/-- How `Added` is stored. -/
def addedCodec : Codec Added := integerRecord "amount" Added.amount Added.mk

/-- How `Noted` is stored. -/
def notedCodec : Codec Noted := guarded Noted.text (textRecord "text" Noted.text Noted.mk)

/-- How the events of a type are stored. -/
def eventCodec : (e : EventType) → Codec (Event e)
  | .opened => openedCodec
  | .added => addedCodec
  | .twin => integerRecord "amount" Twin.amount Twin.mk
  | .noted => notedCodec
  | .ghost => integerRecord "n" Ghost.n Ghost.mk
  | .tagged => textRecord "text" Tagged.text Tagged.mk

/-! ### The vocabulary -/

/-- The full path of a type of this business. -/
def ownPath (name : String) : String := "oracle_driver::domain::" ++ name

/-- The vocabulary of counters and labels. -/
def vocabulary : Domain where
  EventType := EventType
  AggregateType := AggregateType
  CommandType := CommandType
  ValueType := ValueType
  decEventType := inferInstance
  decAggregateType := inferInstance
  decCommandType := inferInstance
  decValueType := inferInstance
  Event := Event
  State := State
  Command := fun _ => Command
  Value := Value
  eventName
    | .opened => "Opened"
    | .added => "Added"
    | .twin => "Added"
    | .noted => "Noted"
    | .ghost => "Ghost"
    | .tagged => "Tagged"
  eventPath
    | .opened => ownPath "Opened"
    | .added => ownPath "Added"
    | .twin => ownPath "Twin"
    | .noted => ownPath "Noted"
    | .ghost => ownPath "Ghost"
    | .tagged => ownPath "Tagged"
  eventCodec := eventCodec
  aggregateName
    | .counter => "Counter"
    | .label => "Label"
  aggregatePath
    | .counter => ownPath "Counter"
    | .label => ownPath "Label"
  stateCodec
    | .counter => counterCodec
    | .label => labelCodec
  initialState
    | .counter => Counter.zero
    | .label => Label.mk ""
  commandPath
    | .opening => ownPath "Open"
    | .add => ownPath "Add"
    | .tag => ownPath "Tag"
    | .orphan => ownPath "Orphan"
  aggregateOf
    | .opening => .counter
    | .add => .counter
    | .tag => .label
    | .orphan => .counter
  target := fun c => c.id
  valuePath
    | .unit => "()"
    | .string => "alloc::string::String"
    | .i64 => "i64"
    | .u32 => "u32"
    | .u64 => "u64"
    | .clock => ownPath "Clock"
    | .missing => ownPath "Missing"
    | .journal => ownPath "Journal"

/-- Counters and labels beside drivers. -/
abbrev domain : Domain := Driver.beside vocabulary

/-- An event of counters or labels. -/
def event (type : EventType) (e : Event type) : AnyEvent domain := ⟨.other type, e⟩

end Chronicle.Bench
