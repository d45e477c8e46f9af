/-
Chronicle/Driver/ReadModel.lean

The table of drivers that queries read.  Domain event handlers write it in the
unit of work of the command, so it always agrees with the event log.
-/
import Chronicle.Driver.Basic
import Chronicle.Store.Database

namespace Chronicle.Driver

/-- What queries show of a driver. -/
structure DriverView where
  driverId : Uuid
  name : String
  dateOfBirth : Date
  deriving DecidableEq

/-- The table, which is absent until it is created. -/
abbrev ReadModel := Option (Table DriverView)

namespace ReadModel

/-- Creates the table if it does not exist. -/
def migrate (db : Database ReadModel) : Database ReadModel :=
  { db with readModel := some (db.readModel.getD Table.empty) }

/-- The table. -/
def table (db : Database ReadModel) : Except StorageFault (Table DriverView) :=
  match db.readModel with
  | some t => .ok t
  | none => .error (.missingTable "driver")

/-- Inserts a driver, whose id must be new. -/
def insert (view : DriverView) (db : Database ReadModel) :
    Except StorageFault (Unit × Database ReadModel) := do
  let t ← table db
  if (t.find? fun v => v.driverId == view.driverId).isSome then
    .error (.duplicate "driver.driver_id")
  else return ((), { db with readModel := some (t.insert view) })

/-- Amends the name of a driver, and tells how many rows that changed. -/
def amend (id : Uuid) (name : String) (db : Database ReadModel) :
    Except StorageFault (Nat × Database ReadModel) := do
  let t ← table db
  let p := fun (_ : Int) (v : DriverView) => v.driverId == id
  return (t.count p, { db with readModel := some (t.update p fun v => { v with name }) })

/-- The driver of an id. -/
def find (id : Uuid) (db : Database ReadModel) : Except StorageFault (Option DriverView) := do
  return ((← table db).find? fun v => v.driverId == id).map (·.2)

end ReadModel

open Json

/-- How views are written. -/
def viewCodec : Codec DriverView where
  encode v := .ok (.ofMembers
    [("driver_id", .text v.driverId.toString), ("name", .text v.name),
     ("date_of_birth", .text v.dateOfBirth.toString)])
  decode t := do
    match ← t.fields? ["driver_id", "name", "date_of_birth"] with
    | [id, name, date] =>
      return ⟨← Codec.uuid.required id, ← Codec.text.required name, ← Codec.date.required date⟩
    | _ => none

end Chronicle.Driver
