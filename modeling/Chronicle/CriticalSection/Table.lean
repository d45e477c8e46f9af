/-
Chronicle/CriticalSection/Table.lean

One command at a time for each aggregate id.

A table keeps a mutex for every id on which somebody works or waits, together
with the number of those.  Whoever wants an id registers, which creates the entry
when it is the first one, then queues for the id's mutex and obtains it in turn.
On the way out the mutex is released before the registration is given back, and
the last one removes the entry; a later caller gets a fresh mutex.

`CriticalSections.step?` gives these steps one by one, so that any interleaving of
them can be followed.
-/
import Chronicle.Text.Quoted
import Chronicle.Uuid

namespace Chronicle

/-- The entry of an id. -/
structure Slot where
  mutex : Nat
  holders : Nat
  deriving DecidableEq, Repr

/-- How far a ticket has come. -/
inductive Phase where
  /-- In the table, and not yet in the mutex's queue. -/
  | registered
  /-- In the queue.  The first in the queue of a mutex has been granted it. -/
  | queued
  /-- It holds the guard of the mutex. -/
  | holding
  /-- It has given up guard or place, and is still in the table. -/
  | released
  deriving DecidableEq, Repr

/-- Somebody who works or waits on an id. -/
structure Ticket where
  key : Nat
  id : Uuid
  mutex : Nat
  phase : Phase
  deriving DecidableEq, Repr

/-- All entries, all tickets that are registered, and the queues of all mutexes
in one line of mutexes and tickets. -/
structure CriticalSections where
  table : List (Uuid × Slot)
  tickets : List Ticket
  line : List (Nat × Nat)
  nextMutex : Nat
  nextTicket : Nat
  deriving DecidableEq, Repr

namespace CriticalSections

/-- Nobody works on any id. -/
def empty : CriticalSections := ⟨[], [], [], 0, 0⟩

/-- The number of ids on which somebody works or waits. -/
def size (s : CriticalSections) : Nat := s.table.length

/-- Whether nobody works on any id. -/
def isEmpty (s : CriticalSections) : Bool := s.table.isEmpty

/-- The description shows how many ids are occupied. -/
def describe (s : CriticalSections) : String :=
  Text.describe "CriticalSections" [("occupied", s!"{s.size}")]

/-- The entry of an id. -/
def slot? (s : CriticalSections) (id : Uuid) : Option Slot :=
  (s.table.find? fun e => e.1 == id).map (·.2)

/-- The ticket of a key. -/
def ticket? (s : CriticalSections) (key : Nat) : Option Ticket :=
  s.tickets.find? fun t => t.key == key

/-- The ticket to which a mutex is granted: the first in its queue. -/
def granted? (s : CriticalSections) (mutex : Nat) : Option Nat :=
  (s.line.find? fun e => e.1 == mutex).map (·.2)

/-- Changes the entry of an id. -/
def setSlot (s : CriticalSections) (id : Uuid) (slot : Slot) : CriticalSections :=
  { s with table := s.table.map fun e => if e.1 = id then (id, slot) else e }

/-- Moves a ticket to a phase. -/
def setPhase (s : CriticalSections) (key : Nat) (phase : Phase) : CriticalSections :=
  { s with tickets := s.tickets.map fun t => if t.key = key then { t with phase } else t }

/-! ### The steps -/

/-- What a ticket does next. -/
inductive Step where
  | register (id : Uuid)
  | queue (key : Nat)
  | obtain (key : Nat)
  | unlock (key : Nat)
  | abandon (key : Nat)
  | leave (key : Nat)
  deriving DecidableEq, Repr

/-- Enters the table under the next key. -/
def register (s : CriticalSections) (id : Uuid) : CriticalSections :=
  match s.slot? id with
  | some slot =>
    { s.setSlot id { slot with holders := slot.holders + 1 } with
      tickets := s.tickets ++ [⟨s.nextTicket, id, slot.mutex, .registered⟩]
      nextTicket := s.nextTicket + 1 }
  | none =>
    { s with
      table := s.table ++ [(id, ⟨s.nextMutex, 1⟩)]
      tickets := s.tickets ++ [⟨s.nextTicket, id, s.nextMutex, .registered⟩]
      nextMutex := s.nextMutex + 1
      nextTicket := s.nextTicket + 1 }

/-- Joins the queue of the mutex. -/
def queue? (s : CriticalSections) (t : Ticket) : Option CriticalSections :=
  if t.phase = .registered then
    some { s.setPhase t.key .queued with line := s.line ++ [(t.mutex, t.key)] }
  else none

/-- Takes the guard of a mutex that has been granted. -/
def obtain? (s : CriticalSections) (t : Ticket) : Option CriticalSections :=
  if t.phase = .queued ∧ s.granted? t.mutex = some t.key then some (s.setPhase t.key .holding)
  else none

/-- Drops out of the queue, which passes the mutex on to the next in it. -/
def dropOut (s : CriticalSections) (t : Ticket) : CriticalSections :=
  { s.setPhase t.key .released with line := s.line.filter fun e => e.2 ≠ t.key }

/-- Releases a guard. -/
def unlock? (s : CriticalSections) (t : Ticket) : Option CriticalSections :=
  if t.phase = .holding then some (s.dropOut t) else none

/-- Stops waiting. -/
def abandon? (s : CriticalSections) (t : Ticket) : Option CriticalSections :=
  if t.phase = .registered ∨ t.phase = .queued then some (s.dropOut t) else none

/-- Gives the registration back; the last one removes the entry. -/
def leave? (s : CriticalSections) (t : Ticket) : Option CriticalSections :=
  if t.phase = .released then
    let s' := { s with tickets := s.tickets.filter fun u => u.key ≠ t.key }
    match s.slot? t.id with
    | some slot =>
      if slot.holders = 1 then some { s' with table := s'.table.filter fun e => e.1 ≠ t.id }
      else some (s'.setSlot t.id { slot with holders := slot.holders - 1 })
    | none => some s'
  else none

/-- One step, if it is possible. -/
def step? (s : CriticalSections) : Step → Option CriticalSections
  | .register id => some (s.register id)
  | .queue key => (s.ticket? key).bind s.queue?
  | .obtain key => (s.ticket? key).bind s.obtain?
  | .unlock key => (s.ticket? key).bind s.unlock?
  | .abandon key => (s.ticket? key).bind s.abandon?
  | .leave key => (s.ticket? key).bind s.leave?

/-- The steps that are possible, in order. -/
def perform (s : CriticalSections) (steps : List Step) : CriticalSections :=
  steps.foldl (fun s step => (s.step? step).getD s) s

/-- Whether a ticket holds its guard. -/
def isHeld (s : CriticalSections) (key : Nat) : Bool :=
  s.tickets.any fun t => t.key == key && t.phase == .holding

/-- Enters the section of an id, as far as it is free, under the next key. -/
def enter (s : CriticalSections) (id : Uuid) : CriticalSections :=
  s.perform [.register id, .queue s.nextTicket, .obtain s.nextTicket]

/-- Leaves a section that is held, or stops waiting for it. -/
def exit (s : CriticalSections) (key : Nat) : CriticalSections :=
  s.perform [.unlock key, .abandon key, .leave key]

end CriticalSections

end Chronicle
