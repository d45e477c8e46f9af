/-
Chronicle/Registry/Dispatch.lean

Finding the handlers of a command, an event, a stored event or a query, and
calling them.
-/
import Chronicle.Registry.Basic

namespace Chronicle.Registry

variable {D : Domain} {σ : Type}

/-- Calls the handler of a command with the state of the aggregate, which a
creation command must not find and any other command has to find. -/
def dispatchCommand (r : Registry D σ) (c : D.CommandType)
    (state : Option (D.State (D.aggregateOf c))) (command : D.Command c) (ctx : HandlerContext D) :
    Task σ (D.State (D.aggregateOf c) × EventBuffer D) := do
  match Tagged.find? c r.commands with
  | none => throw (.commandHandlerNotFound (D.commandName c))
  | some h =>
    match D.target command with
    | none => throw (.noTargetIdentifier (D.commandName c))
    | some id =>
      match h, state with
      | .creation _, some _ => throw (.aggregateAlreadyExists id)
      | .mutation _, none => throw (.aggregateNotFound id)
      | .creation h, none => h.call ctx command
      | .mutation h, some state => h.call ctx state command

/-- A command that succeeds has a handler, which is called without a state if it is a
creation, and with the one that was found otherwise. -/
theorem dispatchCommand_cases {r : Registry D σ} {c : D.CommandType}
    {state : Option (D.State (D.aggregateOf c))} {command : D.Command c} {ctx : HandlerContext D}
    {result : D.State (D.aggregateOf c) × EventBuffer D} {s s' : σ}
    (hrun : (r.dispatchCommand c state command ctx).run s = (.ok result, s')) :
    (∃ h, Tagged.find? c r.commands = some (.creation h) ∧ state = none ∧
      (h.call ctx command).run s = (.ok result, s')) ∨
    ∃ h d, Tagged.find? c r.commands = some (.mutation h) ∧ state = some d ∧
      (h.call ctx d command).run s = (.ok result, s') := by
  unfold dispatchCommand at hrun
  split at hrun
  · cases hrun
  · rename_i h hfind
    split at hrun
    · cases hrun
    · rcases h with h | h
      · rcases state with _ | d
        · exact .inl ⟨h, hfind, rfl, hrun⟩
        · cases hrun
      · rcases state with _ | d
        · cases hrun
        · exact .inr ⟨h, d, hfind, rfl, hrun⟩

/-- The state handler for an aggregate and an event, applied to the event. -/
def stateChange? (a : D.AggregateType) (e : AnyEvent D) (h : StateHandler D) :
    Option (D.State a → D.State a) :=
  if ha : h.aggregate = a then
    (e.as? h.event).map fun event state => ha ▸ h.apply (ha ▸ state) event
  else none

/-- Applies an event to the state of an aggregate. -/
def dispatchState (r : Registry D σ) (a : D.AggregateType) (state : D.State a) (e : AnyEvent D) :
    Except Error (D.State a) :=
  match r.states.findSome? (stateChange? a e) with
  | some change => .ok (change state)
  | none =>
    .error (.commandHandlerNotFound
      s!"state handler for {e.typeName} on {D.aggregateName a}")

/-- Calls handlers with an event, in order, up to the first that fails. -/
def callAll {e : D.EventType} (event : D.Event e) (ctx : HandlerContext D) :
    List (EventHandler D σ e) → Task σ Unit
  | [] => pure ()
  | h :: hs => do
    h.call ctx event
    callAll event ctx hs

/-- Calls the domain event handlers for an event. -/
def dispatchDomain (r : Registry D σ) (e : AnyEvent D) (ctx : HandlerContext D) : Task σ Unit :=
  callAll e.event ctx (Tagged.select e.type r.domainHandlers)

/-- Calls a stream event handler with an event, which has to be of its type. -/
def callStream (e : AnyEvent D) (ctx : HandlerContext D)
    (h : Σ e : D.EventType, EventHandler D σ e) : Task σ Unit :=
  match e.as? h.1 with
  | some event => h.2.call ctx event
  | none =>
    throw (.definition s!"event {e.typeName} dispatched to a handler for {D.eventName h.1}")

/-- The stream event handlers of a group for events of a name, in order. -/
def streamHandlers (r : Registry D σ) (group typeName : String) :
    List (Σ e : D.EventType, EventHandler D σ e) :=
  match r.groups.get? group with
  | some g => g.handlers.filter fun h => D.eventName h.1 == typeName
  | none => []

/-- Calls the stream event handlers of a group for an event. -/
def dispatchStream (r : Registry D σ) (group : String) (e : AnyEvent D) (ctx : HandlerContext D) :
    Task σ Unit :=
  (r.streamHandlers group e.typeName).forM (callStream e ctx)

/-- Whether a group has a handler for events of a name. -/
def handles (r : Registry D σ) (group typeName : String) : Bool :=
  (r.groups.get? group).any (·.handles typeName)

/-- Reads a stored event; `none` when no handler knows its name. -/
def decode (r : Registry D σ) (typeName payload : String) : Except Error (Option (AnyEvent D)) :=
  match r.decoders.get? typeName with
  | some e => (AnyEvent.read e payload).map some
  | none => .ok none

/-- Calls the handler of a query, which has to be of the expected types. -/
def dispatchQuery (r : Registry D σ) (key : String) (input output : D.ValueType)
    (value : D.Value input) (ctx : HandlerContext D) : Task σ (D.Value output) := do
  match r.queries.get? key with
  | none => throw (.queryHandlerNotFound key)
  | some h =>
    if hi : h.input = input then
      if ho : h.output = output then
        callWith ctx h.inputs fun values => ho ▸ h.run values (hi ▸ value)
      else mismatch h
    else mismatch h
where
  /-- The query is known under other types. -/
  mismatch (h : QueryHandler D σ) : Task σ (D.Value output) :=
    throw (.definition
      (s!"query {key} maps {D.valuePath h.input} to {D.valuePath h.output}, "
        ++ s!"not {D.valuePath input} to {D.valuePath output}"))

end Chronicle.Registry
