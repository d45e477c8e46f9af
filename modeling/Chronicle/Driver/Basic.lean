/-
Chronicle/Driver/Basic.lean

Drivers, who are registered with a name and a date of birth and may have their
name amended later: the rules of the business.

Command handlers check their input and emit events; only the state handlers
change a driver.  Names are kept without the white space around them, and have
between one and 120 characters.
-/
import Chronicle.Codec

namespace Chronicle

/-- A driver. -/
structure Driver where
  id : Uuid
  name : String
  dateOfBirth : Option Date
  deriving DecidableEq

namespace Driver

/-- The driver that nothing is known about. -/
def blank : Driver := ⟨Uuid.zero, "", none⟩

/-- The command to register a driver. -/
structure RegisterDriver where
  id : Uuid
  name : String
  dateOfBirth : Date
  deriving DecidableEq

/-- The command to amend a driver's name. -/
structure AmendDriverName where
  id : Uuid
  name : String
  deriving DecidableEq

/-- A driver was registered. -/
structure DriverRegistered where
  driverId : Uuid
  name : String
  dateOfBirth : Date
  deriving DecidableEq

/-- A driver's name was amended. -/
structure DriverNameAmended where
  driverId : Uuid
  name : String
  deriving DecidableEq

/-! ### Rules -/

/-- The greatest number of characters in a name. -/
def maxNameLength : Nat := 120

/-- Which rule a command breaks. -/
inductive Fault where
  | emptyName
  | nameTooLong
  | bornInFuture (date : Date)
  deriving DecidableEq

namespace Fault

/-- The name of a broken rule. -/
def name : Fault → String
  | emptyName => "EmptyName"
  | nameTooLong => "NameTooLong"
  | bornInFuture _ => "BornInFuture"

/-- The text of a broken rule. -/
def message : Fault → String
  | emptyName => "Driver name cannot be empty"
  | nameTooLong => s!"Driver name is longer than {maxNameLength} characters"
  | bornInFuture date => s!"Date of birth {date} is in the future"

end Fault

/-- The name that is kept. -/
def validName (name : String) : Except Fault String :=
  let name := Text.trim name
  if name.isEmpty then .error .emptyName
  else if maxNameLength < name.length then .error .nameTooLong
  else .ok name

/-- What registering emits, on a given day. -/
def register (today : Date) (c : RegisterDriver) : Except Fault DriverRegistered := do
  let name ← validName c.name
  if c.dateOfBirth.isAfter today then throw (.bornInFuture c.dateOfBirth)
  else return ⟨c.id, name, c.dateOfBirth⟩

/-- What amending emits: nothing if the driver has the name already. -/
def amendName (d : Driver) (c : AmendDriverName) : Except Fault (Option DriverNameAmended) := do
  let name ← validName c.name
  if name = d.name then return none
  else return some ⟨c.id, name⟩

/-- The driver after a registration. -/
def onRegistered (_ : Driver) (e : DriverRegistered) : Driver :=
  ⟨e.driverId, e.name, some e.dateOfBirth⟩

/-- The driver after an amendment. -/
def onNameAmended (d : Driver) (e : DriverNameAmended) : Driver := { d with name := e.name }

/-! ### Stored forms -/

open Json

/-- How drivers are stored. -/
def codec : Codec Driver where
  encode d := do
    let date ← Codec.date.optional.encode d.dateOfBirth
    return .ofMembers
      [("id", .text d.id.toString), ("name", .text d.name), ("date_of_birth", date)]
  decode t := do
    match ← t.fields? ["id", "name", "date_of_birth"] with
    | [id, name, date] =>
      return ⟨← Codec.uuid.required id, ← Codec.text.required name, ← Codec.date.orAbsent date⟩
    | _ => none

/-- How registrations are stored. -/
def registeredCodec : Codec DriverRegistered where
  encode e := .ok (.ofMembers
    [("driver_id", .text e.driverId.toString), ("name", .text e.name),
     ("date_of_birth", .text e.dateOfBirth.toString)])
  decode t := do
    match ← t.fields? ["driver_id", "name", "date_of_birth"] with
    | [id, name, date] =>
      return ⟨← Codec.uuid.required id, ← Codec.text.required name, ← Codec.date.required date⟩
    | _ => none

/-- How amendments are stored. -/
def nameAmendedCodec : Codec DriverNameAmended where
  encode e := .ok (.ofMembers [("driver_id", .text e.driverId.toString), ("name", .text e.name)])
  decode t := do
    match ← t.fields? ["driver_id", "name"] with
    | [id, name] => return ⟨← Codec.uuid.required id, ← Codec.text.required name⟩
    | _ => none

end Driver

end Chronicle
