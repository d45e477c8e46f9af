/-
Chronicle/CriticalSection/Tickets.lean

Tickets with names.  Entering under a name creates a new ticket and then drops
the one that had the name.  A new ticket registers when it is looked at for the
first time, and after every change all waiting tickets are looked at in the order
of their names.
-/
import Chronicle.CriticalSection.Table
import Chronicle.Dictionary

namespace Chronicle

/-- Where a named ticket stands. -/
inductive Standing where
  /-- Created, and not looked at yet. -/
  | fresh (id : Uuid)
  | waiting (key : Nat)
  | held (key : Nat)
  deriving DecidableEq, Repr

/-- The critical sections and the named tickets for them. -/
structure Tickets where
  sections : CriticalSections
  named : Dictionary Standing

namespace Tickets

/-- No ticket. -/
def empty : Tickets := ⟨CriticalSections.empty, Dictionary.empty⟩

/-- What happens to named tickets. -/
inductive Step where
  | enter (name : String) (id : Uuid)
  | leave (name : String)
  deriving DecidableEq, Repr

/-- The sections after a ticket is dropped. -/
def drop (s : CriticalSections) : Standing → CriticalSections
  | .fresh _ => s
  | .waiting key | .held key => s.exit key

/-- Drops the ticket of a name, if there is one, from the sections. -/
def dropNamed (t : Tickets) (name : String) : CriticalSections :=
  match t.named.get? name with
  | some standing => drop t.sections standing
  | none => t.sections

/-- The change itself. -/
def change (t : Tickets) : Step → Tickets
  | .enter name id => ⟨t.dropNamed name, t.named.insert name (.fresh id)⟩
  | .leave name => ⟨t.dropNamed name, t.named.erase name⟩

/-- Looks at the ticket of a name: a new one registers and queues, and one to
which the mutex is granted obtains it. -/
def look (t : Tickets) (name : String) : Tickets :=
  let obtain (s : CriticalSections) (key : Nat) : Tickets :=
    let s := s.perform [.obtain key]
    ⟨s, t.named.insert name (if s.isHeld key then .held key else .waiting key)⟩
  match t.named.get? name with
  | some (.fresh id) =>
    obtain (t.sections.perform [.register id, .queue t.sections.nextTicket]) t.sections.nextTicket
  | some (.waiting key) => obtain t.sections key
  | some (.held _) | none => t

/-- A change, and then a look at all tickets. -/
def step (t : Tickets) (s : Step) : Tickets :=
  let t := t.change s
  t.named.keys.foldl look t

/-- The names of the tickets that hold their sections. -/
def held (t : Tickets) : List String :=
  (t.named.entries.filter fun e => e.2 matches .held _).map (·.1)

/-- The names of the tickets that wait. -/
def waiting (t : Tickets) : List String :=
  (t.named.entries.filter fun e => !(e.2 matches .held _)).map (·.1)

end Tickets

end Chronicle
