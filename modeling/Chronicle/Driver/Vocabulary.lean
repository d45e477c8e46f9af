/-
Chronicle/Driver/Vocabulary.lean

The vocabulary of drivers beside any other one, so that both can be used with
one store.
-/
import Chronicle.Domain
import Chronicle.Driver.ReadModel

namespace Chronicle.Driver

/-- Types of events. -/
inductive EventType (E : Type) where
  | registered
  | nameAmended
  | other (e : E)
  deriving DecidableEq

/-- Types of aggregates. -/
inductive AggregateType (A : Type) where
  | driver
  | other (a : A)
  deriving DecidableEq

/-- Types of commands. -/
inductive CommandType (C : Type) where
  | register
  | amendName
  | other (c : C)
  deriving DecidableEq

/-- Types of other values. -/
inductive ValueType (V : Type) where
  | uuid
  | view
  | other (v : V)
  deriving DecidableEq

/-- The vocabulary of drivers, and another one. -/
def beside (O : Domain) : Domain where
  EventType := EventType O.EventType
  AggregateType := AggregateType O.AggregateType
  CommandType := CommandType O.CommandType
  ValueType := ValueType O.ValueType
  decEventType := inferInstance
  decAggregateType := inferInstance
  decCommandType := inferInstance
  decValueType := inferInstance
  Event
    | .registered => DriverRegistered
    | .nameAmended => DriverNameAmended
    | .other e => O.Event e
  State
    | .driver => Driver
    | .other a => O.State a
  Command
    | .register => RegisterDriver
    | .amendName => AmendDriverName
    | .other c => O.Command c
  Value
    | .uuid => Uuid
    | .view => Option DriverView
    | .other v => O.Value v
  eventName
    | .registered => "DriverRegistered"
    | .nameAmended => "DriverNameAmended"
    | .other e => O.eventName e
  eventPath
    | .registered => "ddd_engine::domain::driver::events::DriverRegistered"
    | .nameAmended => "ddd_engine::domain::driver::events::DriverNameAmended"
    | .other e => O.eventPath e
  eventCodec
    | .registered => registeredCodec
    | .nameAmended => nameAmendedCodec
    | .other e => O.eventCodec e
  aggregateName
    | .driver => "Driver"
    | .other a => O.aggregateName a
  aggregatePath
    | .driver => "ddd_engine::domain::driver::aggregate::Driver"
    | .other a => O.aggregatePath a
  stateCodec
    | .driver => codec
    | .other a => O.stateCodec a
  initialState
    | .driver => Driver.blank
    | .other a => O.initialState a
  commandPath
    | .register => "ddd_engine::domain::driver::commands::RegisterDriver"
    | .amendName => "ddd_engine::domain::driver::commands::AmendDriverName"
    | .other c => O.commandPath c
  aggregateOf
    | .register => .driver
    | .amendName => .driver
    | .other c => .other (O.aggregateOf c)
  target := fun {c} =>
    match c with
    | .register => fun (x : RegisterDriver) => some x.id
    | .amendName => fun (x : AmendDriverName) => some x.id
    | .other _ => fun x => O.target x
  valuePath
    | .uuid => "uuid::Uuid"
    | .view => "core::option::Option<ddd_engine::domain::driver::projection::DriverView>"
    | .other v => O.valuePath v

end Chronicle.Driver
