/-
Chronicle/Proofs/Json/Values.lean

Which values, and which maps of metadata, are read back from their texts.

A tree keeps what was written and a value what was meant, so a value is not always
what its tree stands for: a double may come back as a neighbour, and members that
are out of order would be put in order.  A `Value.Plain` value has neither, and
what its tree stands for is the value (`Value.ofTree?_tree`).

Main result: plain metadata is read back from its text (`Metadata.Plain.read_text`).
-/
import Chronicle.Metadata
import Chronicle.Proofs.Json.RoundTrip

namespace Chronicle

open Json

namespace Json

/-! ### Integers -/

/-- An integer of 64 bits, with or without a sign. -/
def Number.Exact : Number → Prop
  | .int n => Int64.minValue.toInt ≤ n ∧ n ≤ maxUnsigned
  | .float _ => False

/-- Integers are what their numerals stand for. -/
theorem number?_ofInt {n : Int} (h : (Number.int n).Exact) :
    (Numeral.ofInt n).number? = some (.int n) := by
  obtain ⟨hmin, hmax⟩ := h
  have hvalues : Int64.minValue.toInt = -9223372036854775808 ∧
      Int64.maxValue.toInt = 9223372036854775807 := by decide
  have hbound : maxUnsigned = 18446744073709551615 := rfl
  rw [hvalues.1] at hmin
  rw [hbound] at hmax
  have hwhole : n.natAbs ≤ maxUnsigned := by
    rw [hbound]
    omega
  unfold Numeral.number? Numeral.ofInt
  dsimp only
  rw [if_pos ⟨rfl, rfl, hwhole⟩]
  -- below zero there are only integers with a sign
  by_cases hn : n < 0
  · have habs : -(n.natAbs : Int) = n := by omega
    have hsigned : isSigned64 n = true := by
      unfold isSigned64
      rw [hvalues.1, hvalues.2, Bool.and_eq_true, decide_eq_true_iff, decide_eq_true_iff]
      omega
    rw [habs, hsigned, decide_eq_true hn, if_neg (by decide), if_pos ⟨by omega, rfl⟩]
  · have habs : (n.natAbs : Int) = n := by omega
    rw [habs, decide_eq_false hn]
    rfl

theorem exact_of_isSigned64 {n : Int} (h : isSigned64 n = true) : (Number.int n).Exact := by
  unfold isSigned64 at h
  rw [Bool.and_eq_true, decide_eq_true_iff, decide_eq_true_iff] at h
  have hmax : Int64.maxValue.toInt ≤ (maxUnsigned : Int) := by decide
  exact ⟨h.1, Int.le_trans h.2 hmax⟩

/-! ### Plain values -/

namespace Value

mutual

/-- A value without doubles, with the members of its objects in order. -/
def Plain : Value → Prop
  | .number n => n.Exact
  | .array items => PlainItems items
  | .object members => Ordered members ∧ PlainMembers members
  | _ => True

/-- All items are plain. -/
def PlainItems : List Value → Prop
  | [] => True
  | v :: vs => v.Plain ∧ PlainItems vs

/-- The values of all members are plain. -/
def PlainMembers : List (String × Value) → Prop
  | [] => True
  | (_, v) :: ms => v.Plain ∧ PlainMembers ms

end

/-- The first of the members that are left comes behind all that were read. -/
theorem lt_of_ordered {seen ms : List (String × Value)} {k : String} {v : Value}
    (h : Ordered (seen ++ (k, v) :: ms)) : ∀ e ∈ seen, e.1 < k :=
  fun e he => (List.pairwise_append.1 h).2.2 e he (k, v) List.mem_cons_self

mutual

/-- A plain value is what its tree stands for. -/
theorem ofTree?_tree : ∀ v : Value, v.Plain → ofTree? v.tree = some v
  | .null, _ => rfl
  | .bool _, _ => rfl
  | .string _, _ => rfl
  | .number (.int n), h => by
    show (Numeral.ofInt n).number?.map number = _
    rw [number?_ofInt h]
    rfl
  | .array items, h => by
    show (ofItems? (treeItems items)).map array = _
    rw [ofItems?_tree items h]
    rfl
  | .object members, h => by
    show (ofMembers? (treeMembers members) []).map object = _
    rw [ofMembers?_tree members [] h.2 h.1]
    rfl

theorem ofItems?_tree : ∀ vs : List Value, PlainItems vs → ofItems? (treeItems vs) = some vs
  | [], _ => rfl
  | v :: vs, h => by
    show (ofTree? v.tree >>= fun v => ofItems? (treeItems vs) >>= fun vs => some (v :: vs)) = _
    rw [ofTree?_tree v h.1, ofItems?_tree vs h.2]
    rfl

/-- Members are added to those that were read before. -/
theorem ofMembers?_tree : ∀ ms seen : List (String × Value), PlainMembers ms →
    Ordered (seen ++ ms) → ofMembers? (treeMembers ms) seen = some (seen ++ ms)
  | [], seen, _, _ => by
    rw [List.append_nil]
    rfl
  | (k, v) :: ms, seen, h, hordered => by
    show (ofTree? v.tree >>= fun v => ofMembers? (treeMembers ms) (insertEntry k v seen)) = _
    have hsplit : seen ++ (k, v) :: ms = (seen ++ [(k, v)]) ++ ms := by
      rw [List.append_assoc]
      rfl
    rw [ofTree?_tree v h.1]
    show ofMembers? (treeMembers ms) (insertEntry k v seen) = _
    -- keys come in order, so the new entry goes behind the others
    rw [insertEntry_of_lt (lt_of_ordered hordered), hsplit]
    exact ofMembers?_tree ms _ h.2 (hsplit ▸ hordered)

end

end Value

end Json

/-! ### Metadata -/

namespace Metadata

/-- Metadata of plain values, which are nested at most as deep as is read. -/
structure Plain (m : Metadata) : Prop where
  members : Value.PlainMembers m.entries
  depth : m.tree.depth ≤ Tree.depthLimit

theorem ofMembers_tree {ms : List (String × Value)} (h : Value.PlainMembers ms) (m m' : Metadata)
    (hm' : m'.entries = m.entries ++ ms) :
    ofTree?.ofMembers (Value.treeMembers ms) m = some m' := by
  induction ms generalizing m with
  | nil =>
    rw [List.append_nil] at hm'
    rw [Dictionary.ext hm']
    rfl
  | cons e ms ih =>
    obtain ⟨k, v⟩ := e
    have hordered : Ordered (m.entries ++ (k, v) :: ms) := hm' ▸ m'.ordered
    show (Value.ofTree? v.tree >>= fun v =>
      ofTree?.ofMembers (Value.treeMembers ms) (m.insert k v)) = _
    rw [Value.ofTree?_tree v h.1]
    refine ih h.2 (m.insert k v) ?_
    show _ = insertEntry k v m.entries ++ ms
    rw [hm', insertEntry_of_lt (Value.lt_of_ordered hordered), List.append_assoc]
    rfl

/-- Plain metadata is what its tree stands for. -/
theorem Plain.ofTree?_tree {m : Metadata} (h : m.Plain) : ofTree? m.tree = some m := by
  unfold ofTree?
  rw [if_pos h.depth]
  show ofTree?.ofMembers (Value.treeMembers m.entries) Dictionary.empty = _
  exact ofMembers_tree h.members _ _ rfl

/-- Plain metadata is read back from its text. -/
theorem Plain.read_text {m : Metadata} (h : m.Plain) (label : String) :
    codec.deserialize label m.text = .ok m := by
  have hdecode : codec.decode m.tree = some m := h.ofTree?_tree
  show codec.deserialize label m.tree.render = _
  rw [Codec.deserialize_render, hdecode]

end Metadata

end Chronicle
