/-
Chronicle/Json/Number.lean

The number a numeral stands for.  Integers that fit 64 bits, with or without a
sign, are exact; everything else is a double.

A double is formed from the leading digits that fit 64 bits and a power of ten:
one conversion and one multiplication or division, each correctly rounded, so
the result may be a neighbour of the nearest double.  Digits behind the first
one that does not fit move the power of ten when they stand before the point,
and are dropped behind it.
-/
import Chronicle.Json.Tree
import Chronicle.Decimal.Notation

namespace Chronicle.Json

/-- A number. -/
inductive Number where
  | int (n : Int)
  | float (x : Float)
  deriving DecidableEq, Repr, Inhabited

/-- Whether an integer fits 64 bits with a sign. -/
def isSigned64 (n : Int) : Bool := Int64.minValue.toInt ≤ n && n ≤ Int64.maxValue.toInt

/-- The greatest unsigned 64-bit integer. -/
def maxUnsigned : Nat := 0xffffffffffffffff

/-- The greatest exponent that is taken as it stands. -/
def maxExponent : Nat := 0x7fffffff

/-- The leading digits that fit 64 bits, and how many digits are left over. -/
def takeWhole (significand : Nat) : List (Fin 10) → Nat × Nat
  | [] => (significand, 0)
  | d :: ds =>
    if significand * 10 + d.val ≤ maxUnsigned then takeWhole (significand * 10 + d.val) ds
    else (significand, ds.length + 1)

/-- Appends fraction digits as long as they fit 64 bits, and counts them. -/
def takeFraction (significand : Nat) : List (Fin 10) → Nat × Nat
  | [] => (significand, 0)
  | d :: ds =>
    if significand * 10 + d.val ≤ maxUnsigned then
      let (s, n) := takeFraction (significand * 10 + d.val) ds
      (s, n + 1)
    else (significand, 0)

/-- A power of ten as a double. -/
def powerOfTen (n : Nat) : Float := Float.ofScientific 1 false n

/-- Divides by `10 ^ 308` until the rest of a negative exponent is within reach. -/
def scaleDown (f : Float) (n : Nat) : Nat → Float
  | 0 => f / powerOfTen n
  | steps + 1 =>
    if n ≤ 308 then f / powerOfTen n
    else if f == 0 then f
    else scaleDown (f / powerOfTen 308) (n - 308) steps

/-- `significand · 10 ^ exponent` as a double; `none` when it is too large. -/
def scale? (significand : Nat) (exponent : Int) : Option Float :=
  let f := Float.ofNat significand
  if 0 ≤ exponent then
    if exponent ≤ 308 then
      let x := f * powerOfTen exponent.toNat
      if x.isInf then none else some x
    else if significand = 0 then some f
    else none
  else some (scaleDown f (-exponent).toNat 4)

/-- The size of a numeral as a double. -/
def Numeral.float? (n : Numeral) : Option Float :=
  let (s, left) := takeWhole 0 (Decimal.digitsOf n.whole)
  let (s, places) := takeFraction s n.fraction
  let start : Int := (left : Int) - places
  match n.exponent with
  | none => scale? s start
  | some e =>
    if e.natAbs ≤ maxExponent then scale? s (start + e)
    else if s ≠ 0 ∧ 0 < e then none
    else some 0

/-- The number a numeral stands for; `none` when it exceeds every double. -/
def Numeral.number? (n : Numeral) : Option Number :=
  let signed (x : Float) : Number := .float (if n.negative then -x else x)
  if n.fraction.isEmpty ∧ n.exponent = none ∧ n.whole ≤ maxUnsigned then
    if !n.negative then some (.int n.whole)
    else if 0 < n.whole ∧ isSigned64 (-n.whole) then some (.int (-n.whole))
    else some (signed (Float.ofNat n.whole))
  else n.float?.map signed

/-- How a double is written: positionally, with at least one digit behind the
point, for magnitudes from `10 ^ -5` up to `10 ^ 15`, else with an exponent. -/
def Numeral.ofDecimal (negative : Bool) (s : Decimal.Scientific) : Numeral :=
  if -5 ≤ s.magnitude ∧ s.magnitude ≤ 15 then
    let p := s.positional
    ⟨negative, p.whole, if p.fraction.isEmpty then [Decimal.zeroDigit] else p.fraction, none⟩
  else
    let p := s.normal
    ⟨negative, p.whole, p.fraction, some s.magnitude⟩

/-- The tree of a number.  Of two equally near decimals the even one stands for a
double.  What is no number is written as null. -/
def Number.tree : Number → Tree
  | .int n => .int n
  | .float x =>
    match Decimal.parts x with
    | .zero negative => .number ⟨negative, 0, [Decimal.zeroDigit], none⟩
    | .finite negative b => .number (Numeral.ofDecimal negative (b.shortest .toEven))
    | .infinite _ | .nan => .null

end Chronicle.Json
