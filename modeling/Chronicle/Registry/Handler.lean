/-
Chronicle/Registry/Handler.lean

Handlers: the side inputs that they ask for, and what they do once they have
them.  The inputs of a call are resolved in order before its work begins.
-/
import Chronicle.Registry.SideInput
import Chronicle.Session

namespace Chronicle

variable {D : Domain} {σ α : Type}

/-- The handler of a command that creates its aggregate. -/
structure CreationHandler (D : Domain) (σ : Type) (c : D.CommandType) where
  inputs : List (SideInput D)
  run : Inputs inputs → D.Command c → Work σ (D.State (D.aggregateOf c) × EventBuffer D)

/-- The handler of a command for an existing aggregate. -/
structure MutationHandler (D : Domain) (σ : Type) (c : D.CommandType) where
  inputs : List (SideInput D)
  run : Inputs inputs → D.State (D.aggregateOf c) → D.Command c →
    Work σ (D.State (D.aggregateOf c) × EventBuffer D)

/-- The handler of a command. -/
inductive CommandHandler (D : Domain) (σ : Type) (c : D.CommandType) where
  | creation (h : CreationHandler D σ c)
  | mutation (h : MutationHandler D σ c)

/-- How an event changes the state of an aggregate. -/
structure StateHandler (D : Domain) where
  aggregate : D.AggregateType
  event : D.EventType
  apply : D.State aggregate → D.Event event → D.State aggregate

/-- A handler of events, in the unit of work of their command or of the stream. -/
structure EventHandler (D : Domain) (σ : Type) (e : D.EventType) where
  inputs : List (SideInput D)
  run : Inputs inputs → D.Event e → Work σ Unit

/-- The handler of a query. -/
structure QueryHandler (D : Domain) (σ : Type) where
  input : D.ValueType
  output : D.ValueType
  inputs : List (SideInput D)
  run : Inputs inputs → D.Value input → Work σ (D.Value output)

/-- Resolves side inputs and does the work with them. -/
def callWith (ctx : HandlerContext D) (inputs : List (SideInput D))
    (work : Inputs inputs → Work σ α) : Task σ α := do
  let values ← MonadExcept.ofExcept (Inputs.resolve ctx inputs)
  (work values).asTask

/-- Calls a creation handler. -/
def CreationHandler.call {c : D.CommandType} (h : CreationHandler D σ c) (ctx : HandlerContext D)
    (command : D.Command c) : Task σ (D.State (D.aggregateOf c) × EventBuffer D) :=
  callWith ctx h.inputs fun values => h.run values command

/-- Calls a mutation handler. -/
def MutationHandler.call {c : D.CommandType} (h : MutationHandler D σ c) (ctx : HandlerContext D)
    (state : D.State (D.aggregateOf c)) (command : D.Command c) :
    Task σ (D.State (D.aggregateOf c) × EventBuffer D) :=
  callWith ctx h.inputs fun values => h.run values state command

/-- Calls an event handler. -/
def EventHandler.call {e : D.EventType} (h : EventHandler D σ e) (ctx : HandlerContext D)
    (event : D.Event e) : Task σ Unit :=
  callWith ctx h.inputs fun values => h.run values event

end Chronicle
