/-
Chronicle/Uuid.lean

Identifiers of 128 bits.  They are written as 32 lower-case hexadecimal digits in
groups of 8, 4, 4, 4 and 12; read are also upper-case digits, digits without
hyphens, and the grouped form in braces or behind `urn:uuid:`.
-/
namespace Chronicle

/-- An identifier. -/
structure Uuid where
  bits : BitVec 128
  deriving DecidableEq, Repr, Inhabited

namespace Uuid

/-- The identifier that has no bit set. -/
def zero : Uuid := ⟨0#128⟩

/-- The hexadecimal digit of a value below 16. -/
def digit (n : Nat) : Char := if n < 10 then Char.ofNat (48 + n) else Char.ofNat (87 + n)

/-- The value of a hexadecimal digit of either case. -/
def digitValue? (c : Char) : Option Nat :=
  let n := c.toNat
  if 48 ≤ n ∧ n < 58 then some (n - 48)
  else if 97 ≤ n ∧ n < 103 then some (n - 87)
  else if 65 ≤ n ∧ n < 71 then some (n - 55)
  else none

/-- The lowest `count` hexadecimal digits of `n`, behind which `rest` follows. -/
def digitsOnto (n : Nat) : Nat → List Char → List Char
  | 0, rest => rest
  | count + 1, rest => digitsOnto (n / 16) count (digit (n % 16) :: rest)

/-- The 32 hexadecimal digits. -/
def hexDigits (u : Uuid) : List Char := digitsOnto u.bits.toNat 32 []

/-- Puts the hyphens between the groups. -/
def group (ds : List Char) : List Char :=
  ds.take 8 ++ '-' :: (ds.drop 8).take 4 ++ '-' :: (ds.drop 12).take 4
    ++ '-' :: (ds.drop 16).take 4 ++ '-' :: ds.drop 20

/-- The grouped form. -/
def toString (u : Uuid) : String := String.ofList (group u.hexDigits)

instance : ToString Uuid := ⟨toString⟩

/-- The identifier of exactly 32 digits. -/
def ofHexDigits? (cs : List Char) : Option Uuid :=
  if cs.length = 32 then
    (cs.foldlM (fun n c => (digitValue? c).map (n * 16 + ·)) 0).map fun n => ⟨BitVec.ofNat 128 n⟩
  else none

/-- The identifier of the grouped form, whose hyphens have fixed places. -/
def ofGrouped? (cs : List Char) : Option Uuid :=
  if cs.length = 36 ∧ cs[8]? = some '-' ∧ cs[13]? = some '-' ∧ cs[18]? = some '-'
      ∧ cs[23]? = some '-' then
    ofHexDigits? (cs.take 8 ++ (cs.drop 9).take 4 ++ (cs.drop 14).take 4
      ++ (cs.drop 19).take 4 ++ cs.drop 24)
  else none

/-- The mark in front of the grouped form in a name, in letters of any case. -/
def nameMark : List Char := ['u', 'r', 'n', ':', 'u', 'u', 'i', 'd', ':']

/-- The identifier that a text names, in any of its forms. -/
def parse? (s : String) : Option Uuid :=
  let cs := s.toList
  if cs.length = 32 then ofHexDigits? cs
  else if cs.length = 36 then ofGrouped? cs
  else if cs.length = 38 ∧ cs.head? = some '\x7b' ∧ cs.getLast? = some '\x7d' then
    ofGrouped? ((cs.drop 1).take 36)
  else if cs.length = 45 ∧ (cs.take 9).map Char.toLower = nameMark then ofGrouped? (cs.drop 9)
  else none

end Uuid

end Chronicle
