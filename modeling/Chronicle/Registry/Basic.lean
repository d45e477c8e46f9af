/-
Chronicle/Registry/Basic.lean

The table of all handlers, which is checked while it is filled.

A command has one handler, a pair of aggregate and event has one state handler,
and a query key has one handler.  Domain event handlers and the stream event
handlers of a processing group are kept in the order in which they were added.
The primary input of a handler must not be a shared value, side inputs must be
available, and all events that share a name must be of one type, so that stored
events can be read back.

A call that fails leaves the table as it was.
-/
import Chronicle.Dictionary
import Chronicle.Registry.Handler

namespace Chronicle

variable {D : Domain} {σ : Type}

/-- The greatest number of workers of a processing group. -/
def maxWorkers : Nat := 25

/-- Stream event handlers that are served by the same workers. -/
structure ProcessingGroup (D : Domain) (σ : Type) where
  name : String
  workers : Nat
  /-- Whether the number of workers was given. -/
  declared : Bool
  handlers : List (Σ e : D.EventType, EventHandler D σ e)

namespace ProcessingGroup

/-- A group that was not declared has one worker. -/
def undeclared (name : String) : ProcessingGroup D σ := ⟨name, 1, false, []⟩

/-- Whether events of a name have a handler in the group. -/
def handles (g : ProcessingGroup D σ) (typeName : String) : Bool :=
  g.handlers.any fun h => D.eventName h.1 == typeName

/-- The names of the handled events. -/
def typeNames (g : ProcessingGroup D σ) : List String :=
  (g.handlers.map fun h => D.eventName h.1).eraseDups

/-- The description counts the names of handled events. -/
def describe (g : ProcessingGroup D σ) : String :=
  Text.describe "ProcessingGroup"
    [("name", Text.quote g.name), ("workers", s!"{g.workers}"),
     ("event_types", s!"{g.typeNames.length}")]

end ProcessingGroup

/-- The table of handlers. -/
structure Registry (D : Domain) (σ : Type) where
  dependencies : Dependencies D
  commands : List (Σ c : D.CommandType, CommandHandler D σ c)
  states : List (StateHandler D)
  domainHandlers : List (Σ e : D.EventType, EventHandler D σ e)
  groups : Dictionary (ProcessingGroup D σ)
  queries : Dictionary (QueryHandler D σ)
  /-- The type of the events of each name. -/
  decoders : Dictionary D.EventType

namespace Registry

/-- The table without handlers. -/
def empty (d : Dependencies D) : Registry D σ :=
  ⟨d, [], [], [], Dictionary.empty, Dictionary.empty, Dictionary.empty⟩

/-- The number of types of events that have domain event handlers. -/
def domainEventTypes (r : Registry D σ) : Nat :=
  (r.domainHandlers.map (·.1)).eraseDups.length

/-- The description counts the handlers and shows the groups. -/
def describe (r : Registry D σ) : String :=
  let group (e : String × ProcessingGroup D σ) := Text.quote e.1 ++ ": " ++ e.2.describe
  Text.describe "HandlerRegistry"
    [("commands", s!"{r.commands.length}"),
     ("state_handlers", s!"{r.states.length}"),
     ("domain_event_types", s!"{r.domainEventTypes}"),
     ("groups", "\x7b" ++ ", ".intercalate (r.groups.entries.map group) ++ "\x7d"),
     ("queries", s!"{r.queries.size}")]

/-! ### Checks -/

/-- The primary input of a handler must not be a shared value. -/
def checkPrimary (r : Registry D σ) (role : String) (t : TypeId D) : Except Error Unit :=
  if r.dependencies.contains t then
    .error (.definition (s!"{role} handler for {t.path} has no unambiguous primary parameter: "
      ++ "the type is also a registered dependency"))
  else .ok ()

/-- A command has one handler. -/
def checkCommand (r : Registry D σ) (c : D.CommandType) : Except Error Unit :=
  if r.commands.any fun h => h.1 = c then
    .error (.definition s!"command {D.commandPath c} already has a handler")
  else r.checkPrimary "command" (.command c)

/-- The decoders with one for events of a type, unless another type has its name. -/
def withDecoder (r : Registry D σ) (e : D.EventType) : Except Error (Registry D σ) :=
  match r.decoders.get? (D.eventName e) with
  | some e' =>
    if e' = e then .ok r
    else .error (.definition s!"event type name {D.eventName e} is used by two different types")
  | none => .ok { r with decoders := r.decoders.insert (D.eventName e) e }

/-- A group has at least one worker, and not too many. -/
def checkWorkers (group : String) (workers : Nat) : Except Error Unit :=
  if workers = 0 ∨ maxWorkers < workers then
    .error (.definition
      (s!"processing group {group} asks for {workers} workers, allowed range is "
        ++ s!"1..={maxWorkers}"))
  else .ok ()

/-- Changes a group, which starts as undeclared. -/
def updateGroup (r : Registry D σ) (name : String)
    (f : ProcessingGroup D σ → ProcessingGroup D σ) : Registry D σ :=
  { r with groups := r.groups.update name (.undeclared name) f }

/-! ### Registration -/

/-- Adds the handler of a command, once the checks succeed. -/
def addCommand (c : D.CommandType) (inputs : List (SideInput D)) (h : CommandHandler D σ c) :
    Task (Registry D σ) Unit := do
  let r ← get
  MonadExcept.ofExcept (r.checkCommand c)
  MonadExcept.ofExcept (SideInput.verifyAll r.dependencies .command inputs)
  set ({ r with commands := r.commands ++ [⟨c, h⟩] } : Registry D σ)

/-- Adds the handler of a command that creates its aggregate. -/
def onCreation (c : D.CommandType) (h : CreationHandler D σ c) : Task (Registry D σ) Unit :=
  addCommand c h.inputs (.creation h)

/-- Adds the handler of a command for an existing aggregate. -/
def onMutation (c : D.CommandType) (h : MutationHandler D σ c) : Task (Registry D σ) Unit :=
  addCommand c h.inputs (.mutation h)

/-- Adds a state handler. -/
def onState (h : StateHandler D) : Task (Registry D σ) Unit := do
  let r ← get
  if r.states.any fun s => s.aggregate = h.aggregate ∧ s.event = h.event then
    throw (.definition
      (s!"{D.aggregateName h.aggregate} already has a state handler for "
        ++ D.eventName h.event))
  let r ← MonadExcept.ofExcept (r.withDecoder h.event)
  set ({ r with states := r.states ++ [h] } : Registry D σ)

/-- Adds a handler that is called in the unit of work of a command. -/
def onDomainEvent (e : D.EventType) (h : EventHandler D σ e) : Task (Registry D σ) Unit := do
  let r ← get
  MonadExcept.ofExcept (r.checkPrimary "domain event" (.event e))
  MonadExcept.ofExcept (SideInput.verifyAll r.dependencies .domainEvent h.inputs)
  let r ← MonadExcept.ofExcept (r.withDecoder e)
  set ({ r with domainHandlers := r.domainHandlers ++ [⟨e, h⟩] } : Registry D σ)

/-- Declares a processing group with a number of workers. -/
def declareGroup (name : String) (workers : Nat) : Task (Registry D σ) Unit := do
  MonadExcept.ofExcept (checkWorkers name workers)
  modify fun r => r.updateGroup name id
  let r ← get
  if (r.groups.get? name).any (·.declared) then
    throw (.definition s!"processing group {name} is declared twice")
  set (r.updateGroup name fun g => { g with workers, declared := true })

/-- Adds a handler to a processing group. -/
def onStreamEvent (group : String) (e : D.EventType) (h : EventHandler D σ e) :
    Task (Registry D σ) Unit := do
  let r ← get
  MonadExcept.ofExcept (r.checkPrimary "stream event" (.event e))
  MonadExcept.ofExcept (SideInput.verifyAll r.dependencies .streamEvent h.inputs)
  let r ← MonadExcept.ofExcept (r.withDecoder e)
  set (r.updateGroup group fun g => { g with handlers := g.handlers ++ [⟨e, h⟩] })

/-- Adds the handler of a query. -/
def onQuery (key : String) (h : QueryHandler D σ) : Task (Registry D σ) Unit := do
  let r ← get
  if r.queries.contains key then
    throw (.definition s!"query {key} already has a handler")
  MonadExcept.ofExcept (r.checkPrimary "query" (.value h.input))
  MonadExcept.ofExcept (SideInput.verifyAll r.dependencies .query h.inputs)
  set ({ r with queries := r.queries.insert key h } : Registry D σ)

end Registry

/-! ### Registrations as data -/

/-- A call that adds to the table. -/
inductive Registration (D : Domain) (σ : Type) where
  | creation (c : D.CommandType) (h : CreationHandler D σ c)
  | mutation (c : D.CommandType) (h : MutationHandler D σ c)
  | state (h : StateHandler D)
  | domainEvent (e : D.EventType) (h : EventHandler D σ e)
  | group (name : String) (workers : Nat)
  | streamEvent (group : String) (e : D.EventType) (h : EventHandler D σ e)
  | query (key : String) (h : QueryHandler D σ)

namespace Registration

/-- Makes the call. -/
def perform : Registration D σ → Task (Registry D σ) Unit
  | creation c h => Registry.onCreation c h
  | mutation c h => Registry.onMutation c h
  | state h => Registry.onState h
  | domainEvent e h => Registry.onDomainEvent e h
  | group name workers => Registry.declareGroup name workers
  | streamEvent name e h => Registry.onStreamEvent name e h
  | query key h => Registry.onQuery key h

/-- Makes calls in order, up to the first that fails. -/
def performAll : List (Registration D σ) → Task (Registry D σ) Unit
  | [] => pure ()
  | c :: cs => do
    c.perform
    performAll cs

/-- Makes all calls, and keeps the table built by those that succeed. -/
def build (d : Dependencies D) (calls : List (Registration D σ)) : Registry D σ :=
  calls.foldl (fun r c => (c.perform.run r).2) (Registry.empty d)

end Registration

end Chronicle
