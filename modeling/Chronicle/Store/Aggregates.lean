/-
Chronicle/Store/Aggregates.lean

Loading and saving the snapshots of aggregates.

A save compares the stored sequence with the one that was loaded.  When they
differ, or when somebody else inserted the aggregate first, the save is a
conflict and writes nothing.
-/
import Chronicle.Snapshot
import Chronicle.Store.UnitOfWork

namespace Chronicle.Store

variable {D : Domain} {R : Type}

/-- The snapshot of a row.  The row must be of the aggregate's type and hold a
state. -/
def snapshotOf (a : D.AggregateType) (id : Uuid) :
    Option (Int × AggregateRow) → Except Error (Snapshot D a)
  | none => .error (.notFound id)
  | some (globalId, row) =>
    if row.typeName ≠ D.aggregateName a then
      .error (.serialization (D.aggregateName a) (.storedAs id row.typeName))
    else
      match (D.stateCodec a).optional.deserialize row.typeName row.state with
      | .error e => .error e
      | .ok none => .error (.serialization row.typeName (.noState id))
      | .ok (some state) =>
        .ok ⟨some globalId, id, row.typeName, some state, row.sequence, row.sequence⟩

/-- Loads an aggregate in the unit of work of a context. -/
def load (ctx : ExecutionContext) (a : D.AggregateType) (id : Uuid) :
    Task (Store R) (Snapshot D a) := do
  let row ← query ctx fun db => db.findAggregate id
  MonadExcept.ofExcept (snapshotOf a id row)

/-- Loads the committed aggregate. -/
def loadCommitted (a : D.AggregateType) (id : Uuid) : Task (Store R) (Snapshot D a) := do
  let row ← queryCommitted fun db => db.findAggregate id
  MonadExcept.ofExcept (snapshotOf a id row)

/-- The stored text of the state in a snapshot. -/
def stateText {a : D.AggregateType} (s : Snapshot D a) : Except Error String :=
  (D.stateCodec a).optional.serialize s.typeName s.state

/-- Saves a snapshot and gives the number of its row. -/
def save (ctx : ExecutionContext) {a : D.AggregateType} (s : Snapshot D a) :
    Task (Store R) Int := do
  let state ← MonadExcept.ofExcept (stateText s)
  match s.globalId with
  | some globalId =>
    let swapped ← statement ctx fun db =>
      db.swapAggregate globalId s.initialSequence s.sequence state
    if swapped then return globalId
    else throw (.conflict s.businessId s.initialSequence)
  | none =>
    let db ← current ctx
    match db.insertAggregate ⟨s.businessId, s.typeName, s.sequence, state⟩ with
    | .ok (globalId, db) =>
      modify fun s => { s with unit := some ⟨ctx, db⟩ }
      return globalId
    | .error (.duplicate _) => throw (.conflict s.businessId s.initialSequence)
    | .error fault => throw (.database fault)

end Chronicle.Store
