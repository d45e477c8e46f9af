/-
Chronicle/Domain.lean

The vocabulary of a business: its types of events, aggregates and commands, and
the other values its handlers work with.  The engine is the same for every
vocabulary.

Types are told apart by identity and not by name: two types of events may be
stored under the same name.
-/
import Chronicle.Codec

namespace Chronicle

/-- A vocabulary. -/
structure Domain where
  /-- Identities of the types of events, and of the others below. -/
  EventType : Type
  AggregateType : Type
  CommandType : Type
  ValueType : Type
  decEventType : DecidableEq EventType
  decAggregateType : DecidableEq AggregateType
  decCommandType : DecidableEq CommandType
  decValueType : DecidableEq ValueType
  /-- The events of a type, and likewise below. -/
  Event : EventType → Type
  State : AggregateType → Type
  Command : CommandType → Type
  Value : ValueType → Type
  /-- The name under which events of a type are stored. -/
  eventName : EventType → String
  eventPath : EventType → String
  eventCodec : (e : EventType) → Codec (Event e)
  /-- The name under which aggregates of a type are stored. -/
  aggregateName : AggregateType → String
  aggregatePath : AggregateType → String
  stateCodec : (a : AggregateType) → Codec (State a)
  /-- The state that a creation command starts from. -/
  initialState : (a : AggregateType) → State a
  commandPath : CommandType → String
  /-- The type of the one aggregate that commands of a type change. -/
  aggregateOf : CommandType → AggregateType
  /-- The identifier of that aggregate, as far as the command gives one. -/
  target : {c : CommandType} → Command c → Option Uuid
  valuePath : ValueType → String

attribute [instance] Domain.decEventType Domain.decAggregateType Domain.decCommandType
  Domain.decValueType

/-- The identity of any type of a vocabulary. -/
inductive TypeId (D : Domain) where
  | event (e : D.EventType)
  | aggregate (a : D.AggregateType)
  | command (c : D.CommandType)
  | value (v : D.ValueType)
  deriving DecidableEq

namespace TypeId

variable {D : Domain}

/-- The values of a type. -/
def Carrier : TypeId D → Type
  | event e => D.Event e
  | aggregate a => D.State a
  | command c => D.Command c
  | value v => D.Value v

/-- The full path of a type, as it appears in texts. -/
def path : TypeId D → String
  | event e => D.eventPath e
  | aggregate a => D.aggregatePath a
  | command c => D.commandPath c
  | value v => D.valuePath v

end TypeId

/-- The characters behind the last double colon, if there is one. -/
def behindLastColons : List Char → Option (List Char)
  | [] => none
  | c :: cs =>
    match behindLastColons cs with
    | some name => some name
    | none => if c = ':' ∧ cs.head? = some ':' then some cs.tail else none

/-- The name of a type in metrics and errors: its path behind the last double
colon. -/
def unqualified (path : String) : String :=
  match behindLastColons path.toList with
  | some name => String.ofList name
  | none => path

/-- The name of a type of commands. -/
def Domain.commandName (D : Domain) (c : D.CommandType) : String := unqualified (D.commandPath c)

end Chronicle
