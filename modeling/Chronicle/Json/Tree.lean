/-
Chronicle/Json/Tree.lean

The JSON text format as a tree that keeps what was written: numerals digit by
digit, members in order and with repetitions, and string literals that stand
for no text because their escapes name half of a surrogate pair.

`Tree` lies between text and meaning.  `Json.Reader` and `Json.Printer` relate
it to characters; `Json.Value` gives the meaning of a whole tree; the codecs of
the domains read and write the trees of their own records.
-/
namespace Chronicle.Json

/-- A numeral as it is written.  `whole` has no leading zero, so a natural
number holds it; `fraction` lists the digits behind the point, and is empty
exactly when there is no point. -/
structure Numeral where
  negative : Bool
  whole : Nat
  fraction : List (Fin 10)
  exponent : Option Int
  deriving DecidableEq, Repr, Inhabited

/-- The numeral of an integer. -/
def Numeral.ofInt (n : Int) : Numeral :=
  ⟨decide (n < 0), n.natAbs, [], none⟩

/-- The text of a string literal; `none` when it holds an unpaired surrogate. -/
abbrev Literal := Option String

/-- A JSON text, as written. -/
inductive Tree where
  | null
  | bool (b : Bool)
  | number (n : Numeral)
  | string (s : Literal)
  | array (items : List Tree)
  | object (members : List (Literal × Tree))
  deriving Repr, Inhabited

namespace Tree

/-- The tree of an integer. -/
def int (n : Int) : Tree := number (Numeral.ofInt n)

/-- The tree of a text. -/
def text (s : String) : Tree := string (some s)

/-- An object with the given member names, in order. -/
def ofMembers (members : List (String × Tree)) : Tree :=
  object (members.map fun m => (some m.1, m.2))

mutual

/-- How many arrays and objects are nested around the innermost value. -/
def depth : Tree → Nat
  | array items => depthItems items + 1
  | object members => depthMembers members + 1
  | _ => 0

/-- The greatest depth among the items. -/
def depthItems : List Tree → Nat
  | [] => 0
  | t :: ts => max t.depth (depthItems ts)

/-- The greatest depth among the members. -/
def depthMembers : List (Literal × Tree) → Nat
  | [] => 0
  | (_, t) :: ts => max t.depth (depthMembers ts)

end

/-- The deepest nesting that is read where values are kept. -/
def depthLimit : Nat := 127

/-- The fields of a record, in the order of `names`: an object, whose other
members are skipped and whose known members occur at most once, or an array of
exactly the fields in order. -/
def fields? (names : List String) : Tree → Option (List (Option Tree))
  | array items => if items.length = names.length then some (items.map some) else none
  | object members =>
    if members.all (fun m => m.1.isSome)
        && names.all (fun n => (members.filter fun m => m.1 == some n).length ≤ 1) then
      some (names.map fun n => (members.find? fun m => m.1 == some n).map (·.2))
    else none
  | _ => none

end Tree

end Chronicle.Json
