/-
Chronicle/Json/Value.lean

JSON values.  A value forgets how its text was written: the members of an object
are ordered by name, and of repeated members the last one counts.

Main definitions: `Value.ofTree?`, which fails on literals that stand for no
text and on numbers beyond every double, and `Value.tree`.
-/
import Chronicle.Dictionary
import Chronicle.Json.Number
import Chronicle.Json.Printer
import Chronicle.Json.Reader

namespace Chronicle.Json

/-- A JSON value. -/
inductive Value where
  | null
  | bool (b : Bool)
  | number (n : Number)
  | string (s : String)
  | array (items : List Value)
  | object (members : List (String × Value))
  deriving BEq, Repr, Inhabited

namespace Value

mutual

/-- The value of a tree. -/
def ofTree? : Tree → Option Value
  | .null => some .null
  | .bool b => some (.bool b)
  | .number n => n.number?.map .number
  | .string s => s.map .string
  | .array items => (ofItems? items).map .array
  | .object members => (ofMembers? members []).map .object

/-- The values of the items. -/
def ofItems? : List Tree → Option (List Value)
  | [] => some []
  | t :: ts => do
    let v ← ofTree? t
    let vs ← ofItems? ts
    return v :: vs

/-- Adds the members to those already read; a later member replaces an earlier
one of its name. -/
def ofMembers? : List (Literal × Tree) → List (String × Value) → Option (List (String × Value))
  | [], seen => some seen
  | (k, t) :: ms, seen => do
    let key ← k
    let v ← ofTree? t
    ofMembers? ms (insertEntry key v seen)

end

mutual

/-- The tree of a value. -/
def tree : Value → Tree
  | .null => .null
  | .bool b => .bool b
  | .number n => n.tree
  | .string s => .text s
  | .array items => .array (treeItems items)
  | .object members => .object (treeMembers members)

/-- The trees of the items. -/
def treeItems : List Value → List Tree
  | [] => []
  | v :: vs => v.tree :: treeItems vs

/-- The trees of the members. -/
def treeMembers : List (String × Value) → List (Literal × Tree)
  | [] => []
  | (k, v) :: ms => (some k, v.tree) :: treeMembers ms

end

/-- An integer. -/
def int (n : Int) : Value := number (.int n)

/-- An object of the given members, of which later ones replace earlier ones. -/
def ofMembers (members : List (String × Value)) : Value :=
  object (members.foldl (fun ms m => insertEntry m.1 m.2 ms) [])

/-- The compact text of a value. -/
def render (v : Value) : String := v.tree.render

/-- The value of a text, nested at most as deep as values are read. -/
def read? (text : String) : Option Value := do
  let t ← Tree.read? text
  if t.depth ≤ Tree.depthLimit then ofTree? t else none

/-- The member of a name, if the value is an object that has it. -/
def member? (v : Value) (name : String) : Option Value :=
  match v with
  | .object members => valueOf? name members
  | _ => none

end Value

end Chronicle.Json
