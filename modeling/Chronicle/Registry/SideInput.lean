/-
Chronicle/Registry/SideInput.lean

What handlers are given besides the command, event or query itself.

`SideInput.verify` says whether handlers of a scope can have an input at all, and
is asked when a handler is registered; `SideInput.resolve` finds the input when
the handler is called.  The contexts that the engine calls handlers in are
`HandlerContext.forCommand` and the three beside it.
-/
import Chronicle.Event
import Chronicle.Registry.Dependency
import Chronicle.Store.UnitOfWork

namespace Chronicle

variable {D : Domain}

/-- The kinds of handlers, by what they may use. -/
inductive Scope where
  | command
  | domainEvent
  | streamEvent
  | query
  deriving DecidableEq, Repr

/-- The name of a scope in texts. -/
def Scope.name : Scope → String
  | command => "Command"
  | domainEvent => "DomainEvent"
  | streamEvent => "StreamEvent"
  | query => "Query"

/-- Read access to what is committed, outside of any unit of work. -/
structure StatelessView where
  deriving DecidableEq, Repr

/-- An input besides the primary one. -/
inductive SideInput (D : Domain) where
  /-- A shared value. -/
  | dependency (t : TypeId D)
  /-- The execution context of the command. -/
  | execution
  /-- Read access outside of units of work. -/
  | stateless
  /-- What is known about the event. -/
  | event
  deriving DecidableEq

/-- What a handler's inputs are taken from. -/
structure HandlerContext (D : Domain) where
  dependencies : Dependencies D
  execution : Option ExecutionContext
  stateless : Option StatelessView
  event : Option EventInfo

namespace HandlerContext

/-- Only the shared values. -/
def bare (d : Dependencies D) : HandlerContext D := ⟨d, none, none, none⟩

/-- Where a command handler is called. -/
def forCommand (d : Dependencies D) (ctx : ExecutionContext) : HandlerContext D :=
  ⟨d, some ctx, none, none⟩

/-- Where a domain event handler is called. -/
def forDomainEvent (d : Dependencies D) (ctx : ExecutionContext) (info : EventInfo) :
    HandlerContext D :=
  ⟨d, some ctx, none, some info⟩

/-- Where a stream event handler is called. -/
def forStreamEvent (d : Dependencies D) (info : EventInfo) : HandlerContext D :=
  ⟨d, none, some ⟨⟩, some info⟩

/-- Where a query handler is called. -/
def forQuery (d : Dependencies D) : HandlerContext D := ⟨d, none, some ⟨⟩, none⟩

end HandlerContext

namespace SideInput

/-- The values of an input. -/
def Carrier : SideInput D → Type
  | dependency t => t.Carrier
  | execution => ExecutionContext
  | stateless => StatelessView
  | event => EventInfo

/-- The name under which an input is reported as missing. -/
def path : SideInput D → String
  | dependency t => t.path
  | execution => "ExecutionContext"
  | stateless => "StatelessView"
  | event => "EventInfo"

/-- Whether handlers of a scope can have the input. -/
def verify (d : Dependencies D) (scope : Scope) : SideInput D → Except Error Unit
  | dependency t => if d.contains t then .ok () else .error (.unsatisfiedDependency t.path)
  | execution =>
    match scope with
    | .command | .domainEvent => .ok ()
    | .streamEvent | .query =>
      .error (.unsatisfiedDependency
        s!"ExecutionContext is not available to {scope.name} handlers")
  | stateless =>
    match scope with
    | .streamEvent | .query => .ok ()
    | .command | .domainEvent =>
      .error (.unsatisfiedDependency
        s!"StatelessView is not available to {scope.name} handlers, use ExecutionContext")
  | event =>
    match scope with
    | .domainEvent | .streamEvent => .ok ()
    | .command | .query =>
      .error (.unsatisfiedDependency s!"EventInfo is not available to {scope.name} handlers")

/-- The value of an input, if the context has it. -/
def find? (ctx : HandlerContext D) : (i : SideInput D) → Option i.Carrier
  | dependency t => ctx.dependencies.get? t
  | execution => ctx.execution
  | stateless => ctx.stateless
  | event => ctx.event

/-- The value of an input. -/
def resolve (ctx : HandlerContext D) (i : SideInput D) : Except Error i.Carrier :=
  match i.find? ctx with
  | some value => .ok value
  | none => .error (.unsatisfiedDependency i.path)

/-- Verifies inputs in order. -/
def verifyAll (d : Dependencies D) (scope : Scope) : List (SideInput D) → Except Error Unit
  | [] => .ok ()
  | i :: is => do
    i.verify d scope
    verifyAll d scope is

end SideInput

/-- The values of several inputs. -/
def Inputs : List (SideInput D) → Type
  | [] => Unit
  | i :: is => i.Carrier × Inputs is

/-- Resolves inputs in order. -/
def Inputs.resolve (ctx : HandlerContext D) : (is : List (SideInput D)) → Except Error (Inputs is)
  | [] => .ok ()
  | i :: is => do
    let value ← i.resolve ctx
    let values ← Inputs.resolve ctx is
    return (value, values)

end Chronicle
