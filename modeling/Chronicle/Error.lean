/-
Chronicle/Error.lean

What can go wrong in the engine, as causes.  `Error.kind` is the short name that
metrics use, and `Error.message` the whole text.
-/
import Chronicle.Uuid

namespace Chronicle

/-- Why a text and a value could not be turned into each other. -/
inductive SerializationFault where
  /-- The text is no JSON of the expected shape. -/
  | malformed
  /-- The text is JSON, but no change record. -/
  | noChangeRecord
  /-- The aggregate is stored under another type. -/
  | storedAs (id : Uuid) (typeName : String)
  /-- The aggregate has been inserted and never saved. -/
  | noState (id : Uuid)
  /-- No handler knows the type of the event. -/
  | noDecoder
  /-- The type itself refuses the value. -/
  | refused (reason : String)
  deriving DecidableEq, Repr

/-- Why the storage rejected a statement. -/
inductive StorageFault where
  | foreignKey
  | missingTable (name : String)
  | duplicate (column : String)
  /-- Another unit of work holds the store, and the time to wait for it is over. -/
  | busy
  /-- A fault that another storage reports. -/
  | reported (text : String)
  deriving DecidableEq, Repr

/-- What went wrong. -/
inductive Error where
  | notFound (id : Uuid)
  | definition (text : String)
  | unsatisfiedDependency (text : String)
  | serialization (typeName : String) (fault : SerializationFault)
  | conflict (id : Uuid) (expected : Int)
  | noTargetIdentifier (command : String)
  | aggregateAlreadyExists (id : Uuid)
  | aggregateNotFound (id : Uuid)
  | commandHandlerNotFound (name : String)
  | queryHandlerNotFound (key : String)
  | unitOfWorkActive
  | noUnitOfWork
  | handler (text : String)
  | database (fault : StorageFault)
  | broker (text : String)
  deriving DecidableEq, Repr

/-- The text of a serialization fault. -/
def SerializationFault.message : SerializationFault → String
  | malformed => "<json>"
  | noChangeRecord => "data did not match any variant of untagged enum ChangeRecord"
  | storedAs id typeName => s!"aggregate {id} is stored as {typeName}"
  | noState id => s!"aggregate {id} has no state"
  | noDecoder => "no decoder registered"
  | refused reason => reason

/-- The text of a storage fault. -/
def StorageFault.message : StorageFault → String
  | foreignKey => "error returned from database: (code: 787) FOREIGN KEY constraint failed"
  | missingTable name => s!"error returned from database: (code: 1) no such table: {name}"
  | duplicate column => s!"error returned from database: (code: 2067) UNIQUE constraint failed: {column}"
  | busy => "error returned from database: (code: 5) database is locked"
  | reported text => text

namespace Error

/-- The short name of the kind of error. -/
def kind : Error → String
  | notFound _ => "not_found"
  | definition _ => "definition"
  | unsatisfiedDependency _ => "unsatisfied_dependency"
  | serialization _ _ => "serialization"
  | conflict _ _ => "conflict"
  | noTargetIdentifier _ => "no_target_identifier"
  | aggregateAlreadyExists _ => "aggregate_already_exists"
  | aggregateNotFound _ => "aggregate_not_found"
  | commandHandlerNotFound _ => "command_handler_not_found"
  | queryHandlerNotFound _ => "query_handler_not_found"
  | unitOfWorkActive => "unit_of_work_active"
  | noUnitOfWork => "no_unit_of_work"
  | handler _ => "handler"
  | database _ => "database"
  | broker _ => "broker"

/-- The whole text. -/
def message : Error → String
  | notFound id => s!"Aggregate {id} was not found"
  | definition text => s!"Illegal domain definition: {text}"
  | unsatisfiedDependency text => s!"Unsatisfied dependency: {text}"
  | serialization typeName fault => s!"Serialization failed for {typeName}: {fault.message}"
  | conflict id expected =>
    s!"Aggregate {id} was modified concurrently (expected event sequence {expected})"
  | noTargetIdentifier command =>
    s!"Command {command} did not provide a target aggregate identifier"
  | aggregateAlreadyExists id =>
    s!"Attempted to send a creation command for {id}, which already exists"
  | aggregateNotFound id =>
    s!"Attempted to send a mutation command for {id}, which does not exist"
  | commandHandlerNotFound name => s!"No command handler registered for {name}"
  | queryHandlerNotFound key => s!"No query handler registered for key {key}"
  | unitOfWorkActive => "A unit of work is already active for this execution context"
  | noUnitOfWork => "No unit of work is active for this execution context"
  | handler text => s!"Handler failed: {text}"
  | database fault => s!"Database error: {fault.message}"
  | broker text => s!"Broker error: {text}"

end Error

end Chronicle
