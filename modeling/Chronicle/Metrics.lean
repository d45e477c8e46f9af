/-
Chronicle/Metrics.lean

What is counted while commands and stream records are processed.

A family that is told apart by labels is a `Series`: a value for every
combination of label values that ever occurred.  Combinations are told apart by a
hash of 64 bits, which takes in the bytes of the values one after another without
marks between them.  Those with one hash share one value, under the labels of the
first: values that read the same, and others whose hashes happen to agree.
`Metrics.Exposition` writes all of it as text.
-/
namespace Chronicle

/-- Values by the values of their labels. -/
abbrev Series (α : Type) := List (List String × α)

namespace Series

variable {α : Type}

/-- Takes a byte into a hash, as FNV-1a does. -/
def absorb (hash : UInt64) (byte : UInt8) : UInt64 := (hash ^^^ byte.toUInt64) * 0x100000001b3

/-- What label values are told apart by. -/
def key (labels : List String) : UInt64 :=
  labels.foldl (fun hash label => label.toUTF8.data.foldl absorb hash) 0xcbf29ce484222325

/-- The value for some label values. -/
def get? (s : Series α) (labels : List String) : Option α :=
  (s.find? fun p => key p.1 == key labels).map (·.2)

/-- Changes the value for some label values, which starts as `start`. -/
def update (labels : List String) (start : α) (f : α → α) : Series α → Series α
  | [] => [(labels, f start)]
  | p :: s => if key p.1 = key labels then (p.1, f p.2) :: s else p :: update labels start f s

/-- Counts one more. -/
def increment (s : Series Nat) (labels : List String) : Series Nat :=
  s.update labels 0 (· + 1)

/-- What has been counted for some label values. -/
def count (s : Series Nat) (labels : List String) : Nat := (s.get? labels).getD 0

/-- What has been counted for all label values that satisfy a condition. -/
def total (s : Series Nat) (p : List String → Bool) : Nat :=
  ((s.filter fun e => p e.1).map (·.2)).foldl (· + ·) 0

end Series

/-- Durations, counted by the smallest bound that they do not exceed. -/
structure Histogram where
  /-- One count for each bound, and one for what exceeds them all. -/
  buckets : List Nat
  sum : Float
  count : Nat
  deriving Repr

namespace Histogram

/-- The bounds, in seconds, each with its text. -/
def bounds : List (Float × String) :=
  [(0.001, "0.001"), (0.005, "0.005"), (0.01, "0.01"), (0.05, "0.05"),
   (0.1, "0.1"), (0.5, "0.5"), (1.0, "1"), (5.0, "5")]

/-- The histogram of no duration. -/
def empty : Histogram := ⟨List.replicate (bounds.length + 1) 0, 0.0, 0⟩

/-- Counts a value at the first bound that it does not exceed. -/
def place (x : Float) : List (Float × String) → List Nat → List Nat
  | b :: bs, n :: ns => if x ≤ b.1 then (n + 1) :: ns else n :: place x bs ns
  | [], n :: ns => (n + 1) :: ns
  | _, [] => []

/-- Counts a duration. -/
def observe (h : Histogram) (seconds : Float) : Histogram :=
  ⟨place seconds bounds h.buckets, h.sum + seconds, h.count + 1⟩

end Histogram

/-- All families. -/
structure Metrics where
  /-- By command and outcome. -/
  commands : Series Nat
  /-- By command. -/
  durations : Series Histogram
  conflicts : Nat
  /-- By event type. -/
  appended : Series Nat
  /-- By group and event type. -/
  processed : Series Nat
  /-- By group and reason. -/
  failed : Series Nat
  /-- By group. -/
  backoffs : Series Nat
  /-- By group, topic and partition. -/
  committed : Series Int
  occupied : Int
  deriving Repr

namespace Metrics

/-- Nothing counted yet. -/
def empty : Metrics := ⟨[], [], 0, [], [], [], [], [], 0⟩

/-- A command that came to an end.  Conflicts are counted apart as well. -/
def recordCommand (m : Metrics) (command : String) (seconds : Float) (outcome : String) : Metrics :=
  { m with
    commands := m.commands.increment [command, outcome]
    durations := m.durations.update [command] Histogram.empty (·.observe seconds)
    conflicts := if outcome = "conflict" then m.conflicts + 1 else m.conflicts }

/-- An event in the log. -/
def recordAppended (m : Metrics) (eventType : String) : Metrics :=
  { m with appended := m.appended.increment [eventType] }

/-- A stream record that was handled. -/
def recordProcessed (m : Metrics) (group eventType : String) : Metrics :=
  { m with processed := m.processed.increment [group, eventType] }

/-- A stream record or a poll that failed. -/
def recordFailed (m : Metrics) (group reason : String) : Metrics :=
  { m with failed := m.failed.increment [group, reason] }

/-- A pause after a failure. -/
def recordBackoff (m : Metrics) (group : String) : Metrics :=
  { m with backoffs := m.backoffs.increment [group] }

/-- The offset up to which a partition is committed. -/
def recordCommit (m : Metrics) (group topic : String) (partition offset : Int) : Metrics :=
  { m with committed := m.committed.update [group, topic, s!"{partition}"] 0 fun _ => offset }

/-- The number of ids with a command under way or waiting, as an integer of 64
bits with a sign. -/
def setOccupied (m : Metrics) (n : Nat) : Metrics :=
  { m with occupied := (Int64.ofNat n).toInt }

end Metrics

end Chronicle
