/-
Chronicle/Metadata.lean

The immutable map of values that travels with every event of a command, such as
a correlation id.  Its text depends on the map alone, as keys are in code point
order and members of nested objects are too.
-/
import Chronicle.Codec

namespace Chronicle

open Json

/-- A map from names to JSON values. -/
abbrev Metadata := Dictionary Value

namespace Metadata

/-- The tree of a map: its members in order. -/
def tree (m : Metadata) : Tree := .object (Value.treeMembers m.entries)

/-- The compact text of a map. -/
def text (m : Metadata) : String := m.tree.render

/-- The map of an object; values may be nested up to the limit that holds for
the whole tree. -/
def ofTree? (t : Tree) : Option Metadata :=
  if t.depth ≤ Tree.depthLimit then
    match t with
    | .object members => ofMembers members Dictionary.empty
    | _ => none
  else none
where
  /-- Adds the members in order; of repeated names the last one counts. -/
  ofMembers : List (Literal × Tree) → Metadata → Option Metadata
    | [], m => some m
    | (k, t) :: ms, m => do
      let key ← k
      let v ← Value.ofTree? t
      ofMembers ms (m.insert key v)

/-- How a map is stored. -/
def codec : Codec Metadata := ⟨fun m => .ok m.tree, ofTree?⟩

end Metadata

end Chronicle
