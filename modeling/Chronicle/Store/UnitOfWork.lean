/-
Chronicle/Store/UnitOfWork.lean

Units of work: what a command writes becomes visible as a whole or not at all.

A unit of work belongs to an execution context, of which every clone is the same
context.  Between `acquire` and the next `commit` or `rollback` the context is
active.  The storage has one writer, so while one context is active no other one
can become so.

Each of the three asks the storage, which may refuse: `verdict` is its answer.  A
context gives up its unit of work before it has the answer, and what is then neither
committed nor rolled back is dropped, which rolls it back.
-/
import Chronicle.Store.Database

namespace Chronicle

/-- Work on a state that may fail; what was changed before a failure stays. -/
abbrev Task (σ : Type) := ExceptT Error (StateM σ)

/-- The scope of one caller, which holds at most one unit of work. -/
structure ExecutionContext where
  key : Nat
  deriving DecidableEq, Repr, Inhabited

/-- The description of a context shows nothing of it. -/
def ExecutionContext.describe (_ : ExecutionContext) : String := "ExecutionContext \x7b .. \x7d"

/-- The unit of work of a context, as it would be committed. -/
structure UnitOfWork (R : Type) where
  owner : ExecutionContext
  pending : Database R
  deriving DecidableEq, Repr

/-- The committed storage, and the unit of work in progress. -/
structure Store (R : Type) where
  committed : Database R
  unit : Option (UnitOfWork R)
  deriving DecidableEq, Repr

namespace Store

variable {R α : Type}

/-- A store with no unit of work. -/
def ofDatabase (db : Database R) : Store R := ⟨db, none⟩

/-- The uncommitted storage of a context, if it is active. -/
def pending? (s : Store R) (ctx : ExecutionContext) : Option (Database R) :=
  match s.unit with
  | some u => if u.owner = ctx then some u.pending else none
  | none => none

/-- Whether a context has a unit of work. -/
def isActive (s : Store R) (ctx : ExecutionContext) : Bool := (s.pending? ctx).isSome

/-- Whether a context would have to wait before it can start a unit of work. -/
def isHeldBy (s : Store R) (ctx : ExecutionContext) : Bool :=
  match s.unit with
  | some u => u.owner ≠ ctx
  | none => false

/-- Starts a unit of work. -/
def acquire (ctx : ExecutionContext) (verdict : Except StorageFault Unit := .ok ()) :
    Task (Store R) Unit := do
  let s ← get
  match s.unit with
  | none =>
    match verdict with
    | .ok () => set { s with unit := some ⟨ctx, s.committed⟩ }
    | .error fault => throw (.database fault)
  | some u => if u.owner = ctx then throw .unitOfWorkActive else throw (.database .busy)

/-- The uncommitted storage of an active context. -/
def current (ctx : ExecutionContext) : Task (Store R) (Database R) := do
  match (← get).pending? ctx with
  | some db => return db
  | none => throw .noUnitOfWork

/-- Makes the writes of the unit of work permanent, or rolls them back if the storage
refuses them. -/
def commit (ctx : ExecutionContext) (verdict : Except StorageFault Unit := .ok ()) :
    Task (Store R) Unit := do
  let db ← current ctx
  modify fun s => { s with unit := none }
  match verdict with
  | .ok () => modify fun s => { s with committed := db }
  | .error fault => throw (.database fault)

/-- Gives up the unit of work, numbers included. -/
def rollback (ctx : ExecutionContext) (verdict : Except StorageFault Unit := .ok ()) :
    Task (Store R) Unit := do
  let _ ← current ctx
  modify fun s => { s with unit := none }
  match verdict with
  | .ok () => return
  | .error fault => throw (.database fault)

/-- Runs a statement in the unit of work of a context. -/
def statement (ctx : ExecutionContext)
    (f : Database R → Except StorageFault (α × Database R)) : Task (Store R) α := do
  let db ← current ctx
  match f db with
  | .ok (a, db) =>
    modify fun s => { s with unit := some ⟨ctx, db⟩ }
    return a
  | .error fault => throw (.database fault)

/-- Reads in the unit of work of a context. -/
def query (ctx : ExecutionContext) (f : Database R → Except StorageFault α) :
    Task (Store R) α := do
  let db ← current ctx
  match f db with
  | .ok a => return a
  | .error fault => throw (.database fault)

/-- Reads what is committed. -/
def queryCommitted (f : Database R → Except StorageFault α) : Task (Store R) α := do
  match f (← get).committed with
  | .ok a => return a
  | .error fault => throw (.database fault)

end Store

end Chronicle
