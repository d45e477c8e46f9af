/-
Chronicle/Codec.lean

How the values of a type are stored as JSON text.

A codec writes a value as a tree, which the type may refuse with a reason, and
reads a tree.  `Codec.RoundTrips` is the law of a sound codec.
-/
import Chronicle.Date
import Chronicle.Error
import Chronicle.Json.Value

namespace Chronicle

open Json

variable {α : Type}

/-- How the values of a type are written and read. -/
structure Codec (α : Type) where
  encode : α → Except String Tree
  decode : Tree → Option α

namespace Codec

/-- What is written is read back as the same value. -/
def RoundTrips (c : Codec α) : Prop :=
  ∀ a t, c.encode a = .ok t → c.decode t = some a

/-- No value is written as null. -/
def NeverNull (c : Codec α) : Prop :=
  ∀ a, c.encode a ≠ .ok .null

/-- The text of a value; an error names the type under `label`. -/
def serialize (c : Codec α) (label : String) (a : α) : Except Error String :=
  match c.encode a with
  | .ok t => .ok t.render
  | .error reason => .error (.serialization label (.refused reason))

/-- The value of a text; an error names the type under `label`. -/
def deserialize (c : Codec α) (label : String) (text : String) : Except Error α :=
  match (Tree.read? text).bind c.decode with
  | some a => .ok a
  | none => .error (.serialization label .malformed)

/-- The text that is written for the value of a text. -/
def normalize (c : Codec α) (label : String) (text : String) : Except Error String := do
  c.serialize label (← c.deserialize label text)

/-- An absent value is written as null. -/
def optional (c : Codec α) : Codec (Option α) where
  encode
    | none => .ok .null
    | some a => c.encode a
  decode
    | .null => some none
    | t => (c.decode t).map some

/-- Texts. -/
def text : Codec String where
  encode s := .ok (.text s)
  decode
    | .string s => s
    | _ => none

/-- Signed 64-bit integers. -/
def int64 : Codec Int64 where
  encode n := .ok (.int n.toInt)
  decode
    | .number n =>
      match n.number? with
      | some (.int i) =>
        if isSigned64 i then some (Int64.ofInt i) else none
      | _ => none
    | _ => none

/-- Identifiers, as texts. -/
def uuid : Codec Uuid where
  encode id := .ok (.text id.toString)
  decode
    | .string s => s.bind Uuid.parse?
    | _ => none

/-- Dates, as texts. -/
def date : Codec Date where
  encode d := .ok (.text d.toString)
  decode
    | .string s => s.bind Date.parse?
    | _ => none

/-- Lists. -/
def list (c : Codec α) : Codec (List α) where
  encode as := (as.mapM c.encode).map .array
  decode
    | .array items => items.mapM c.decode
    | _ => none

/-- The value of a field that has to be present. -/
def required (c : Codec α) : Option Tree → Option α
  | some t => c.decode t
  | none => none

/-- The value of a field that may be left out. -/
def orAbsent (c : Codec α) : Option Tree → Option (Option α)
  | some t => c.optional.decode t
  | none => some none

end Codec

end Chronicle
