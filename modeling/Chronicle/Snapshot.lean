/-
Chronicle/Snapshot.lean

The state of one aggregate between its load and its save, with the sequence that
was stored when it was loaded.
-/
import Chronicle.Domain

namespace Chronicle

/-- An aggregate's state and where it stands in the event log.  The global id is
given by the storage when the aggregate is first saved. -/
structure Snapshot (D : Domain) (a : D.AggregateType) where
  globalId : Option Int
  businessId : Uuid
  typeName : String
  state : Option (D.State a)
  initialSequence : Int
  sequence : Int

namespace Snapshot

variable {D : Domain} {a : D.AggregateType}

/-- A snapshot that was never saved. -/
def fresh (id : Uuid) : Snapshot D a := ⟨none, id, D.aggregateName a, none, 0, 0⟩

/-- Whether the aggregate was saved before. -/
def exists? (s : Snapshot D a) : Bool := s.globalId.isSome

/-- The snapshot after the events up to a sequence. -/
def advanceTo (s : Snapshot D a) (sequence : Int) : Snapshot D a := { s with sequence }

/-- The snapshot with another state. -/
def withState (s : Snapshot D a) (state : Option (D.State a)) : Snapshot D a := { s with state }

/-- The snapshot of a row that has a number now. -/
def savedAs (s : Snapshot D a) (globalId : Int) : Snapshot D a :=
  { s with globalId := some globalId }

end Snapshot

end Chronicle
