/-
Chronicle/Decimal/Shortest.lean

The shortest decimal that reads back as a given binary number.

A finite positive double is `m · 2^q`.  The decimals that round to it fill the
interval between the midpoints to its two neighbours, ends included when `m` is
even.  Of all multiples of a power of ten in that interval, those of the
greatest power have the fewest digits; of these the nearest is taken.  Which of
two equally near ones that is, is a matter of the format.  All comparisons are in
exact natural arithmetic.
-/
namespace Chronicle.Decimal

/-- A positive binary number `mantissa · 2 ^ exponent`.  `narrow` says that the
number below is half as far as the number above, as it is at a power of two. -/
structure Binary where
  mantissa : Nat
  exponent : Int
  narrow : Bool
  deriving DecidableEq, Repr

/-- A positive decimal number `digits · 10 ^ exponent`. -/
structure Scientific where
  digits : Nat
  exponent : Int
  deriving DecidableEq, Repr

/-- Which of two equally near decimals is taken. -/
inductive Tie where
  /-- The one that is even in its last digit. -/
  | toEven
  /-- The greater one. -/
  | away
  deriving DecidableEq, Repr

/-- Whether the lower one of `below` and `below + 1` is taken on a tie. -/
def Tie.takesBelow : Tie → Nat → Bool
  | .toEven, below => below % 2 = 0
  | .away, _ => false

/-- The factor of `base ^ exponent` above the fraction bar. -/
def numerator (base : Nat) (exponent : Int) : Nat := Nat.pow base exponent.toNat

/-- The factor of `base ^ exponent` below the fraction bar. -/
def denominator (base : Nat) (exponent : Int) : Nat := Nat.pow base (-exponent).toNat

/-- Whether `d · 10 ^ k` lies in the interval of decimals that round to `b`. -/
def Binary.admits (b : Binary) (d : Nat) (k : Int) : Bool :=
  let binaryScale := numerator 2 (b.exponent - 2) * denominator 10 k
  let decimalScale := numerator 10 k * denominator 2 (b.exponent - 2)
  let low := (4 * b.mantissa - (if b.narrow then 1 else 2)) * binaryScale
  let high := (4 * b.mantissa + 2) * binaryScale
  let x := d * decimalScale
  0 < d && (if b.mantissa % 2 = 0 then low ≤ x && x ≤ high else low < x && x < high)

/-- The multiple of `10 ^ k` that stands for `b`, if one lies in its interval:
the nearer one of the two around `b`. -/
def Binary.onGrid? (b : Binary) (tie : Tie) (k : Int) : Option Nat :=
  let binaryScale := numerator 2 b.exponent * denominator 10 k
  let decimalScale := numerator 10 k * denominator 2 b.exponent
  let v := b.mantissa * binaryScale
  let below := v / decimalScale
  let rest := v % decimalScale
  match b.admits below k, b.admits (below + 1) k with
  | true, true =>
    if 2 * rest < decimalScale then some below
    else if decimalScale < 2 * rest then some (below + 1)
    else if tie.takesBelow below then some below else some (below + 1)
  | true, false => some below
  | false, true => some (below + 1)
  | false, false => none

/-- Looks for the greatest power of ten with a multiple in the interval, from
`k` down over `steps` further powers. -/
def Binary.search (b : Binary) (tie : Tie) (k : Int) : Nat → Scientific
  | 0 => ⟨b.mantissa, b.exponent⟩
  | steps + 1 =>
    match b.onGrid? tie k with
    | some d => ⟨d, k⟩
    | none => b.search tie (k - 1) steps

/-- The shortest decimal that rounds to `b`.  No double reaches `10 ^ 309`, and
the grid of `10 ^ -343` is finer than any interval. -/
def Binary.shortest (b : Binary) (tie : Tie) : Scientific := b.search tie 309 653

/-- A double, taken apart. -/
inductive Parts where
  | zero (negative : Bool)
  | finite (negative : Bool) (b : Binary)
  | infinite (negative : Bool)
  | nan
  deriving DecidableEq, Repr

/-- The bit of a mantissa that is not stored. -/
def hiddenBit : Nat := Nat.pow 2 52

/-- The parts of a double: sign, eleven bits of exponent, 52 bits of mantissa. -/
def parts (x : Float) : Parts :=
  let bits : Nat := x.toBits.toNat
  let negative := decide (Nat.pow 2 63 ≤ bits)
  let exponent : Nat := bits / hiddenBit % 2048
  let fraction : Nat := bits % hiddenBit
  if exponent = 2047 then
    if fraction = 0 then .infinite negative else .nan
  else if exponent = 0 then
    if fraction = 0 then .zero negative
    else .finite negative ⟨fraction, -1074, false⟩
  else
    .finite negative ⟨hiddenBit + fraction, (exponent : Int) - 1075, decide (fraction = 0 ∧ exponent ≠ 1)⟩

end Chronicle.Decimal
