/-
Chronicle/Driver/Handlers.lean

The handlers of drivers: commands, state, read model, query, and the stream
handlers, which only take note of their events.
-/
import Chronicle.Driver.Vocabulary
import Chronicle.Registry.Basic

namespace Chronicle.Driver

variable {O : Domain} {W : Type}

/-- The state in which the handlers work. -/
abbrev Scene (W : Type) := Session ReadModel W

/-- The answer of a rule as the work of a handler. -/
def ofRule {α : Type} : Except Fault α → Work (Scene W) α
  | .ok a => pure a
  | .error fault => throw fault.message

/-- An event of drivers, ready to be emitted. -/
def registeredEvent (e : DriverRegistered) : AnyEvent (beside O) := ⟨.registered, e⟩

/-- Likewise for an amendment. -/
def nameAmendedEvent (e : DriverNameAmended) : AnyEvent (beside O) := ⟨.nameAmended, e⟩

/-- Registers a driver, on a given day. -/
def registerHandler (today : Date) : CreationHandler (beside O) (Scene W) .register where
  inputs := []
  run := fun () (c : RegisterDriver) => do
    let e ← ofRule (register today c)
    return (Driver.blank, ⟨[registeredEvent e]⟩)

/-- Amends the name of a driver. -/
def amendNameHandler : MutationHandler (beside O) (Scene W) .amendName where
  inputs := []
  run := fun () (d : Driver) (c : AmendDriverName) => do
    let e ← ofRule (amendName d c)
    return (d, ⟨e.toList.map nameAmendedEvent⟩)

/-- The state after a registration. -/
def registeredState : StateHandler (beside O) := ⟨.driver, .registered, onRegistered⟩

/-- The state after an amendment. -/
def nameAmendedState : StateHandler (beside O) := ⟨.driver, .nameAmended, onNameAmended⟩

/-- Inserts a registered driver into the read model. -/
def projectRegistered : EventHandler (beside O) (Scene W) .registered where
  inputs := [.execution]
  run := fun (ctx, ()) (e : DriverRegistered) =>
    Session.write ctx (ReadModel.insert ⟨e.driverId, e.name, e.dateOfBirth⟩)

/-- Amends the name in the read model, which has to know the driver. -/
def projectNameAmended : EventHandler (beside O) (Scene W) .nameAmended where
  inputs := [.execution]
  run := fun (ctx, ()) (e : DriverNameAmended) => do
    let changed ← Session.write ctx (ReadModel.amend e.driverId e.name)
    if changed ≠ 1 then throw s!"driver {e.driverId} missing from read model"

/-- Finds the driver of an id. -/
def byId : QueryHandler (beside O) (Scene W) where
  input := .uuid
  output := .view
  inputs := [.stateless]
  run := fun _ (id : Uuid) => Session.read (ReadModel.find id)

/-- Takes note of an event from the stream. -/
def noteEvent (e : (beside O).EventType) : EventHandler (beside O) (Scene W) e where
  inputs := [.event]
  run := fun _ _ => pure ()

/-- The key of the query for a driver. -/
def byIdKey : String := "GET_DRIVER_BY_ID"

/-- The processing group of the stream handlers. -/
def groupName : String := "drivers"

/-- All registrations of drivers, in order. -/
def registrations (today : Date) : List (Registration (beside O) (Scene W)) :=
  [.creation .register (registerHandler today),
   .mutation .amendName amendNameHandler,
   .state registeredState,
   .state nameAmendedState,
   .domainEvent .registered projectRegistered,
   .domainEvent .nameAmended projectNameAmended,
   .query byIdKey byId,
   .group groupName 2,
   .streamEvent groupName .registered (noteEvent .registered),
   .streamEvent groupName .nameAmended (noteEvent .nameAmended)]

end Chronicle.Driver
