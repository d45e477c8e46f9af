/-
Chronicle/Store/EventLog.lean

The append-only log of events.  Sequences increase in the order of appends, and
no committed sequence is given again.
-/
import Chronicle.Event
import Chronicle.Store.UnitOfWork

namespace Chronicle.Store

variable {D : Domain} {R : Type}

/-- Appends an event of an aggregate in the unit of work of a context, and gives
its sequence. -/
def append (ctx : ExecutionContext) (globalId : Int) (e : AnyEvent D) (metadata : Metadata) :
    Task (Store R) Int := do
  let payload ← MonadExcept.ofExcept e.payload
  statement ctx fun db => db.insertEvent ⟨globalId, e.typeName, payload, metadata.text⟩

/-- A stored event with its metadata read. -/
def recordOf (sequence : Int) (row : EventRow) : Except Error EventRecord := do
  let metadata ← Metadata.codec.deserialize row.typeName row.metadata
  return ⟨sequence, row.aggregateGlobalId, row.typeName, row.payload, metadata⟩

/-- The committed events of an aggregate, oldest first. -/
def eventsOf (globalId : Int) : Task (Store R) (List EventRecord) := do
  let t ← queryCommitted Database.eventTable
  let rows := t.rows.filter fun r => r.2.aggregateGlobalId == globalId
  MonadExcept.ofExcept (rows.mapM fun r => recordOf r.1 r.2)

end Chronicle.Store
