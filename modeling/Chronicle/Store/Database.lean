/-
Chronicle/Store/Database.lean

The tables of the engine: one row per aggregate, and the log of events.

Both number their rows.  A number is one more than the greatest number ever
given by the table, and a statement that fails gives none.  The tables that
domain event handlers keep, the read model `R`, are stored beside them, so that
they are committed and rolled back together.
-/
import Chronicle.Error

namespace Chronicle

/-! ### Numbered tables -/

/-- Rows in increasing order of their numbers, and the greatest number given. -/
structure Table (α : Type) where
  rows : List (Int × α)
  issued : Int
  deriving DecidableEq, Repr

namespace Table

variable {α : Type}

/-- The table without rows. -/
def empty : Table α := ⟨[], 0⟩

/-- The row of a number. -/
def get? (t : Table α) (key : Int) : Option α := (t.rows.find? fun r => r.1 == key).map (·.2)

/-- The number that the next row gets. -/
def next (t : Table α) : Int := t.issued + 1

/-- Adds a row behind the others, under the next number. -/
def insert (t : Table α) (row : α) : Table α := ⟨t.rows ++ [(t.next, row)], t.next⟩

/-- Changes the rows that satisfy a condition. -/
def update (t : Table α) (p : Int → α → Bool) (f : α → α) : Table α :=
  { t with rows := t.rows.map fun r => if p r.1 r.2 then (r.1, f r.2) else r }

/-- Removes the rows that satisfy a condition. -/
def erase (t : Table α) (p : Int → α → Bool) : Table α :=
  { t with rows := t.rows.filter fun r => !p r.1 r.2 }

/-- The number of rows that satisfy a condition. -/
def count (t : Table α) (p : Int → α → Bool) : Nat := t.rows.countP fun r => p r.1 r.2

/-- The first row that satisfies a condition. -/
def find? (t : Table α) (p : α → Bool) : Option (Int × α) := t.rows.find? fun r => p r.2

@[simp] theorem rows_insert (t : Table α) (row : α) :
    (t.insert row).rows = t.rows ++ [(t.next, row)] := rfl

@[simp] theorem issued_insert (t : Table α) (row : α) : (t.insert row).issued = t.next := rfl

@[simp] theorem issued_update (t : Table α) (p : Int → α → Bool) (f : α → α) :
    (t.update p f).issued = t.issued := rfl

end Table

/-! ### The tables of the engine -/

/-- The stored snapshot of an aggregate.  The state is kept as JSON text. -/
structure AggregateRow where
  identifier : Uuid
  typeName : String
  sequence : Int
  state : String
  deriving DecidableEq, Repr

/-- A stored event, with payload and metadata as JSON text. -/
structure EventRow where
  aggregateGlobalId : Int
  typeName : String
  payload : String
  metadata : String
  deriving DecidableEq, Repr

/-- The content of the storage.  A table is absent until it is created. -/
structure Database (R : Type) where
  aggregates : Option (Table AggregateRow)
  events : Option (Table EventRow)
  readModel : R
  deriving DecidableEq, Repr

namespace Database

variable {R : Type}

/-- The storage before any table is created. -/
def blank (readModel : R) : Database R := ⟨none, none, readModel⟩

/-- Creates the tables of the engine that do not exist yet. -/
def migrate (db : Database R) : Database R :=
  { db with
    aggregates := some (db.aggregates.getD Table.empty)
    events := some (db.events.getD Table.empty) }

/-- The table of aggregates. -/
def aggregateTable (db : Database R) : Except StorageFault (Table AggregateRow) :=
  match db.aggregates with
  | some t => .ok t
  | none => .error (.missingTable "aggregate")

/-- The table of events. -/
def eventTable (db : Database R) : Except StorageFault (Table EventRow) :=
  match db.events with
  | some t => .ok t
  | none => .error (.missingTable "event")

/-- The row of a business id, which is unique. -/
def findAggregate (db : Database R) (id : Uuid) :
    Except StorageFault (Option (Int × AggregateRow)) := do
  return (← db.aggregateTable).find? fun row => row.identifier == id

/-- Inserts the row of an aggregate and gives its number. -/
def insertAggregate (db : Database R) (row : AggregateRow) :
    Except StorageFault (Int × Database R) := do
  let t ← db.aggregateTable
  if (t.find? fun r => r.identifier == row.identifier).isSome then
    .error (.duplicate "aggregate.aggregate_identifier")
  else return (t.next, { db with aggregates := some (t.insert row) })

/-- Sets state and sequence of the row with a number, provided that it still
has the expected sequence.  The answer says whether it had. -/
def swapAggregate (db : Database R) (globalId expected sequence : Int) (state : String) :
    Except StorageFault (Bool × Database R) := do
  let t ← db.aggregateTable
  let p := fun (key : Int) (row : AggregateRow) => key == globalId && row.sequence == expected
  return (0 < t.count p,
    { db with aggregates := some (t.update p fun row => { row with state, sequence }) })

/-- Appends an event, which has to refer to an aggregate, and gives its number. -/
def insertEvent (db : Database R) (row : EventRow) : Except StorageFault (Int × Database R) := do
  let t ← db.eventTable
  if ((db.aggregates.getD Table.empty).get? row.aggregateGlobalId).isSome then
    return (t.next, { db with events := some (t.insert row) })
  else .error .foreignKey

end Database

end Chronicle
