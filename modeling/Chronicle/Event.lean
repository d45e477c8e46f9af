/-
Chronicle/Event.lean

Events: the facts a command produces, together with their type, in the order in
which its handler emitted them; events as they are stored; and what a handler
can learn about the event it is given.
-/
import Chronicle.Domain
import Chronicle.Metadata
import Chronicle.Text.Quoted

namespace Chronicle

/-- An event of any type. -/
structure AnyEvent (D : Domain) where
  type : D.EventType
  event : D.Event type

namespace AnyEvent

variable {D : Domain}

/-- The name under which the event is stored. -/
def typeName (e : AnyEvent D) : String := D.eventName e.type

/-- The stored text of the event. -/
def payload (e : AnyEvent D) : Except Error String :=
  (D.eventCodec e.type).serialize e.typeName e.event

/-- The event as one of the given type, if it is of that very type. -/
def as? (e : AnyEvent D) (t : D.EventType) : Option (D.Event t) :=
  if h : e.type = t then some (h ▸ e.event) else none

/-- Reads an event of a type from its stored text. -/
def read (t : D.EventType) (payload : String) : Except Error (AnyEvent D) :=
  ((D.eventCodec t).deserialize (D.eventName t) payload).map fun e => ⟨t, e⟩

/-- The description of an event shows its name only. -/
def describe (e : AnyEvent D) : String :=
  Text.describe "AnyEvent" [("type_name", Text.quote e.typeName)]

@[simp] theorem as?_self (t : D.EventType) (e : D.Event t) :
    (AnyEvent.mk t e).as? t = some e := by
  simp [as?]

end AnyEvent

/-- The events emitted so far, oldest first. -/
structure EventBuffer (D : Domain) where
  events : List (AnyEvent D) := []

namespace EventBuffer

variable {D : Domain}

/-- Adds an event behind the others. -/
def emit (b : EventBuffer D) (e : AnyEvent D) : EventBuffer D := ⟨b.events ++ [e]⟩

/-- The number of events. -/
def size (b : EventBuffer D) : Nat := b.events.length

/-- Whether no event was emitted. -/
def isEmpty (b : EventBuffer D) : Bool := b.events.isEmpty

/-- The description shows every event. -/
def describe (b : EventBuffer D) : String :=
  Text.describe "EventBuffer"
    [("events", "[" ++ ", ".intercalate (b.events.map AnyEvent.describe) ++ "]")]

end EventBuffer

/-- An event as it is stored. -/
structure EventRecord where
  globalSequence : Int
  aggregateGlobalId : Int
  typeName : String
  payload : String
  metadata : Metadata

/-- The stored event, read as one of the given type. -/
def EventRecord.decode {D : Domain} (r : EventRecord) (t : D.EventType) : Except Error (D.Event t) :=
  (D.eventCodec t).deserialize r.typeName r.payload

/-- What a handler can learn about its event.  The sequence is known once the
event is stored, so handlers that run before that see none. -/
structure EventInfo where
  typeName : String
  aggregateGlobalId : Int
  globalSequence : Option Int
  metadata : Metadata

end Chronicle
