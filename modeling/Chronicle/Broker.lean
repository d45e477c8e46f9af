/-
Chronicle/Broker.lean

What workers need from a broker: records in batches, and the four calls of a
consumer.  A committed offset is the one to read next.
-/
import Chronicle.Error

namespace Chronicle

/-- A partition of a topic. -/
structure TopicPartition where
  topic : String
  partition : Int
  deriving DecidableEq, Repr

/-- Partitions are ordered by topic and then by number. -/
def TopicPartition.before (a b : TopicPartition) : Bool :=
  a.topic < b.topic || (a.topic == b.topic && a.partition < b.partition)

/-- One record.  A deleted record has no value. -/
structure StreamRecord where
  topic : String
  partition : Int
  offset : Int
  value : Option ByteArray

/-- The partition a record is in. -/
def StreamRecord.place (r : StreamRecord) : TopicPartition := ⟨r.topic, r.partition⟩

/-- An offset for each of some partitions, in the order of the partitions. -/
abbrev Offsets := List (TopicPartition × Int)

namespace Offsets

/-- Changes the offset of a partition, given the one it has so far. -/
def alter (place : TopicPartition) (f : Option Int → Int) : Offsets → Offsets
  | [] => [(place, f none)]
  | (p, offset) :: rest =>
    if place.before p then (place, f none) :: (p, offset) :: rest
    else if place = p then (p, f (some offset)) :: rest
    else (p, offset) :: alter place f rest

/-- Behind the last of the records in every partition. -/
def behind (records : List StreamRecord) : Offsets :=
  records.foldl (fun (os : Offsets) r => os.alter r.place fun _ => r.offset + 1) []

/-- At the first of the records in every partition. -/
def start (records : List StreamRecord) : Offsets :=
  records.foldl (fun (os : Offsets) r => os.alter r.place fun o => o.getD r.offset) []

end Offsets

/-- The connection of one worker, with all of its effects on the state. -/
structure Consumer (σ : Type) where
  /-- Asks for records, waiting for some time, and takes a limited number.  There
  is no answer when the call never ends by itself. -/
  poll : Nat → Nat → StateM σ (Option (Except Error (List StreamRecord)))
  commit : Offsets → StateM σ (Except Error Unit)
  /-- Moves the positions from which records are read. -/
  rewind : Offsets → StateM σ (Except Error Unit)
  close : StateM σ (Except Error Unit)

/-- Connects a worker of a group. -/
abbrev Connect (σ : Type) := String → Nat → StateM σ (Except Error (Consumer σ))

end Chronicle
