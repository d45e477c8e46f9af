/-
Chronicle/Envelope.lean

Change records of the event log, as they come from the broker.

A record is an object whose member `payload` holds the body, or the body itself.
The body has one field `after`: null when the record carries no event, or the row
of an event.  Rows give both numbers as integers or as texts, and metadata as the
text of a map.  Body and row may also be arrays of their fields in order; unknown
members are ignored, and a known member must not be repeated.
-/
import Chronicle.Broker
import Chronicle.Metadata
import Chronicle.Text.Blank
import Chronicle.Text.Digits

namespace Chronicle

open Json

/-- A stored event as it comes from the broker. -/
structure Envelope where
  typeName : String
  globalSequence : Int
  aggregateGlobalId : Int
  payload : String
  metadata : Metadata

namespace Envelope

/-- An integer in decimal form with an optional sign. -/
def signedValue? : List Char → Option Int
  | '-' :: cs => (Text.number? cs).map fun n => -(n : Int)
  | '+' :: cs => (Text.number? cs).map fun n => (n : Int)
  | cs => (Text.number? cs).map fun n => (n : Int)

/-- An integer of 64 bits, as such or as a text with white space around it. -/
def integer? : Tree → Option Int
  | .number n =>
    match n.number? with
    | some (.int i) => if isSigned64 i then some i else none
    | _ => none
  | .string (some s) => (signedValue? (Text.trimChars s.toList)).filter isSigned64
  | _ => none

/-- The text of a string. -/
def text? : Tree → Option String
  | .string s => s
  | _ => none

/-- The row of an event, with its metadata still as text. -/
structure Row where
  typeName : String
  globalSequence : Int
  aggregateGlobalId : Int
  payload : String
  metadata : String
  deriving DecidableEq, Repr

/-- The fields of a row, in order. -/
def rowFields : List String :=
  ["class_name", "global_sequence", "aggregate_global_id", "payload", "metadata"]

/-- The row that a tree describes. -/
def row? (t : Tree) : Option Row := do
  match ← t.fields? rowFields with
  | [some name, some sequence, some id, some payload, some metadata] =>
    return ⟨← text? name, ← integer? sequence, ← integer? id, ← text? payload, ← text? metadata⟩
  | _ => none

/-- The body that a tree describes: the row of an event, or no event. -/
def body? (t : Tree) : Option (Option Row) := do
  match ← t.fields? ["after"] with
  | [some .null] => return none
  | [some t] => return some (← row? t)
  | _ => none

/-- The body in a wrapper. -/
def wrapped? (t : Tree) : Option (Option Row) := do
  match t with
  | .object _ =>
    match ← t.fields? ["payload"] with
    | [some t] => body? t
    | _ => none
  | _ => none

/-- The body of a change record, which is looked for in a wrapper first. -/
def record? (t : Tree) : Option (Option Row) := (wrapped? t).or (body? t)

/-- Whether all of a tree stands for values, and it is not nested too deeply. -/
def isSound (t : Tree) : Bool := t.depth ≤ Tree.depthLimit && (Value.ofTree? t).isSome

/-- The longest text that is the UTF-8 form of at most the first `n` bytes. -/
def textUpTo (bytes : ByteArray) (n : Nat) : List Char :=
  match String.fromUTF8? (bytes.extract 0 n) with
  | some s => s.toList
  | none =>
    match n with
    | 0 => []
    | n + 1 => textUpTo bytes n

/-- The text that bytes begin with, and whether it is all of them. -/
def textOf (bytes : ByteArray) : List Char × Bool :=
  match String.fromUTF8? bytes with
  | some s => (s.toList, true)
  | none => (textUpTo bytes bytes.size, false)

/-- The tree that a record begins with, and whether only blank space follows. -/
def tree? (bytes : ByteArray) : Option (Tree × Bool) := do
  let (cs, all) := textOf bytes
  let (t, rest) ← Tree.readFirst? cs
  if isSound t then some (t, all && (skipBlank rest).isEmpty) else none

/-- The event in a change record, if it carries one.  What follows the record is
looked at only when the record itself is one. -/
def decode (bytes : ByteArray) : Except Error (Option Envelope) :=
  match tree? bytes with
  | none => .error (.serialization "envelope" .malformed)
  | some (t, complete) =>
    match record? t, complete with
    | none, _ => .error (.serialization "envelope" .noChangeRecord)
    | some _, false => .error (.serialization "envelope" .malformed)
    | some none, true => .ok none
    | some (some row), true => do
      let metadata ← Metadata.codec.deserialize row.typeName row.metadata
      return some ⟨row.typeName, row.globalSequence, row.aggregateGlobalId, row.payload, metadata⟩

end Envelope

end Chronicle
