/-
Chronicle/Session.lean

All state that commands, queries and stream handlers share: the store, the
critical sections, the metrics, and the outside world `W` in which handlers have
effects of their own.
-/
import Chronicle.CriticalSection.Table
import Chronicle.Metrics
import Chronicle.Store.UnitOfWork

namespace Chronicle

/-- The shared state. -/
structure Session (R W : Type) where
  store : Store R
  sections : CriticalSections
  metrics : Metrics
  /-- How many execution contexts have been created. -/
  contexts : Nat
  world : W

/-- Work of a handler, which fails with a text of its own. -/
abbrev Work (σ : Type) := ExceptT String (StateM σ)

/-- The work of a handler as part of a task. -/
def Work.asTask {σ α : Type} (w : Work σ α) : Task σ α :=
  ExceptT.mk do
    match ← w.run with
    | .ok a => return .ok a
    | .error text => return .error (.handler text)

namespace Session

variable {R W α : Type}

/-- A session that nothing has happened in. -/
def start (db : Database R) (world : W) : Session R W :=
  ⟨Store.ofDatabase db, CriticalSections.empty, Metrics.empty, 0, world⟩

/-- A task on the store. -/
def onStore (t : Task (Store R) α) : Task (Session R W) α :=
  ExceptT.mk fun s =>
    let (answer, store) := t.run s.store
    (answer, { s with store })

/-- A statement of a handler in the unit of work of its context. -/
def write (ctx : ExecutionContext)
    (f : Database R → Except StorageFault (α × Database R)) : Work (Session R W) α := do
  let s ← get
  match s.store.pending? ctx with
  | none => throw Error.noUnitOfWork.message
  | some db =>
    match f db with
    | .error fault => throw fault.message
    | .ok (a, db) =>
      set { s with store := { s.store with unit := some ⟨ctx, db⟩ } }
      return a

/-- A handler's read of what is committed. -/
def read (f : Database R → Except StorageFault α) : Work (Session R W) α := do
  match f (← get).store.committed with
  | .error fault => throw fault.message
  | .ok a => return a

/-- A new execution context, which has no unit of work. -/
def newContext : StateM (Session R W) ExecutionContext := fun s =>
  (⟨s.contexts⟩, { s with contexts := s.contexts + 1 })

/-- Changes the metrics. -/
def measure (f : Metrics → Metrics) : StateM (Session R W) Unit :=
  modify fun s => { s with metrics := f s.metrics }

/-- Shows in the metrics how many sections are occupied. -/
def measureSections : StateM (Session R W) Unit :=
  modify fun s => { s with metrics := s.metrics.setOccupied s.sections.size }

end Session

end Chronicle
