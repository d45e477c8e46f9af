/-
Chronicle/Decimal/Notation.lean

Where the point of a decimal number is written: at its place, or behind the
first digit.  Which of the two a format uses, and for which numbers, is a matter
of the format.
-/
import Chronicle.Decimal.Shortest

namespace Chronicle.Decimal

/-- The decimal digits of a number, most significant first. -/
def digitsOf (n : Nat) : List (Fin 10) :=
  (Nat.toDigits 10 n).map fun c => Fin.ofNat 10 (c.toNat - 48)

/-- The digit nought. -/
def zeroDigit : Fin 10 := ⟨0, by decide⟩

/-- A decimal number around its point. -/
structure Positional where
  whole : Nat
  fraction : List (Fin 10)
  deriving DecidableEq, Repr

/-- The exponent in scientific notation, with one digit before the point. -/
def Scientific.magnitude (s : Scientific) : Int :=
  (digitsOf s.digits).length - 1 + s.exponent

/-- The number with the point at its place. -/
def Scientific.positional (s : Scientific) : Positional :=
  if 0 ≤ s.exponent then ⟨s.digits * Nat.pow 10 s.exponent.toNat, []⟩
  else
    let places := (-s.exponent).toNat
    let ds := digitsOf (s.digits % Nat.pow 10 places)
    ⟨s.digits / Nat.pow 10 places, List.replicate (places - ds.length) zeroDigit ++ ds⟩

/-- The number with its point behind the first digit. -/
def Scientific.normal (s : Scientific) : Positional :=
  match digitsOf s.digits with
  | [] => ⟨0, []⟩
  | d :: ds => ⟨d.val, ds⟩

end Chronicle.Decimal
