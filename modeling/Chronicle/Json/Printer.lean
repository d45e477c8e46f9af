/-
Chronicle/Json/Printer.lean

JSON text of a tree: compact, with the shortest escape of each character that
needs one.  Everything printed is read back as the same tree by `Json.Reader`.
-/
import Chronicle.Json.Tree

namespace Chronicle.Json

/-- The lower-case hexadecimal digit of a value below 16. -/
def hexDigit (n : Nat) : Char :=
  if n < 10 then Char.ofNat (48 + n) else Char.ofNat (87 + n)

/-- The decimal digits of a number, most significant first. -/
def decimalDigits (n : Nat) : List Char := Nat.toDigits 10 n

/-- The digit of a value below ten. -/
def digitChar (d : Fin 10) : Char := Char.ofNat (48 + d.val)

/-- How a character is written inside a string: quotes, backslashes and the
control characters are escaped, all others stand for themselves. -/
def escape (c : Char) : List Char :=
  if c = '"' then ['\\', '"']
  else if c = '\\' then ['\\', '\\']
  else if c = '\x08' then ['\\', 'b']
  else if c = '\x0c' then ['\\', 'f']
  else if c = '\n' then ['\\', 'n']
  else if c = '\r' then ['\\', 'r']
  else if c = '\t' then ['\\', 't']
  else if c.toNat < 0x20 then
    ['\\', 'u', '0', '0', hexDigit (c.toNat / 16), hexDigit (c.toNat % 16)]
  else [c]

/-- A string literal with its quotes.  One that stands for no text is written
as a lone surrogate. -/
def Literal.print : Literal → List Char
  | some s => '"' :: (s.toList.flatMap escape ++ ['"'])
  | none => ['"', '\\', 'u', 'd', '8', '0', '0', '"']

/-- The exponent part, always with its sign. -/
def exponentText : Option Int → List Char
  | none => []
  | some e => 'e' :: (if e < 0 then '-' else '+') :: decimalDigits e.natAbs

/-- A numeral, digit by digit. -/
def Numeral.print (n : Numeral) : List Char :=
  (if n.negative then ['-'] else []) ++ decimalDigits n.whole
    ++ (if n.fraction.isEmpty then [] else '.' :: n.fraction.map digitChar)
    ++ exponentText n.exponent

mutual

/-- The compact text of a tree. -/
def Tree.print : Tree → List Char
  | .null => ['n', 'u', 'l', 'l']
  | .bool true => ['t', 'r', 'u', 'e']
  | .bool false => ['f', 'a', 'l', 's', 'e']
  | .number n => n.print
  | .string s => Literal.print s
  | .array [] => ['[', ']']
  | .array (t :: ts) => '[' :: (t.print ++ printItems ts)
  | .object [] => ['\x7b', '\x7d']
  | .object ((k, t) :: ms) => '\x7b' :: (Literal.print k ++ ':' :: (t.print ++ printMembers ms))

/-- The items behind the first one, and the closing bracket. -/
def printItems : List Tree → List Char
  | [] => [']']
  | t :: ts => ',' :: (t.print ++ printItems ts)

/-- The members behind the first one, and the closing brace. -/
def printMembers : List (Literal × Tree) → List Char
  | [] => ['\x7d']
  | (k, t) :: ms => ',' :: (Literal.print k ++ ':' :: (t.print ++ printMembers ms))

end

/-- The compact text of a tree, as a string. -/
def Tree.render (t : Tree) : String := String.ofList t.print

end Chronicle.Json
