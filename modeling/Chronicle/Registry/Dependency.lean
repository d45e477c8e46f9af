/-
Chronicle/Registry/Dependency.lean

Values that handlers share.  There is at most one for every type, and it is found
by the type's identity.
-/
import Chronicle.Domain
import Chronicle.Tagged
import Chronicle.Text.Quoted

namespace Chronicle

/-- The shared values. -/
structure Dependencies (D : Domain) where
  entries : List (Σ t : TypeId D, t.Carrier)

namespace Dependencies

variable {D : Domain}

/-- No shared value. -/
def empty : Dependencies D := ⟨[]⟩

/-- Shares a value, in place of an earlier one of its type. -/
def insert (d : Dependencies D) (t : TypeId D) (value : t.Carrier) : Dependencies D :=
  ⟨(d.entries.filter fun e => e.1 ≠ t) ++ [⟨t, value⟩]⟩

/-- The shared value of a type. -/
def get? (d : Dependencies D) (t : TypeId D) : Option t.Carrier := Tagged.find? t d.entries

/-- Whether a value of a type is shared. -/
def contains (d : Dependencies D) (t : TypeId D) : Bool := (d.get? t).isSome

/-- The number of shared values. -/
def size (d : Dependencies D) : Nat := d.entries.length

/-- Whether no value is shared. -/
def isEmpty (d : Dependencies D) : Bool := d.entries.isEmpty

/-- The description counts the values. -/
def describe (d : Dependencies D) : String :=
  Text.describe "DependencyRegister" [("entries", s!"{d.size}")]

end Dependencies

end Chronicle
