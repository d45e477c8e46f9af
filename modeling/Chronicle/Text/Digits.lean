/-
Chronicle/Text/Digits.lean

The ten ASCII digits, and the numbers that runs of them denote.
-/
namespace Chronicle.Text

/-- Whether a character is one of the ten digits. -/
def isDigit (c : Char) : Bool := 48 ≤ c.toNat && c.toNat < 58

/-- The number that digits denote, most significant first. -/
def number (ds : List Char) : Nat := ds.foldl (fun n c => n * 10 + (c.toNat - 48)) 0

/-- The number that characters denote, provided that they are digits, and at
least one. -/
def number? (cs : List Char) : Option Nat :=
  if cs ≠ [] ∧ cs.all isDigit then some (number cs) else none

end Chronicle.Text
