/-
Chronicle/Proofs/Metadata.lean

Metadata is canonical, and is read back from its text.

Two lists of pairs make the same metadata, and so the same text, if they give the same last
value for each key (`Dictionary.ofList_congr`).  Nested objects are made in the same way, so
that this holds on every level (`Value.ofMembers_eq`).

Metadata of plain values is plain if it is not nested too deeply (`plain_ofList`), and plain
is whatever is read from a text, if there are no doubles in it (`Value.plain_of_ofTree?`).

Main result: `metadata_of_pairs`.
-/
import Chronicle.Proofs.Dictionary
import Chronicle.Proofs.Json.Values

namespace Chronicle

open Json

/-! ### Objects -/

namespace Json.Value

/-- An object is made of its members as a dictionary is. -/
theorem ofMembers_eq (members : List (String × Value)) :
    ofMembers members = object (Dictionary.ofList members).entries := by
  have hentries : (members.foldl (fun ms m => insertEntry m.1 m.2 ms) []) =
      (Dictionary.ofList members).entries := by
    induction members using List.reverseRecOn with
    | nil => rfl
    | append_singleton members m ih =>
      rw [Dictionary.ofList, List.foldl_append, List.foldl_append, ih]
      rfl
  rw [ofMembers, hentries]

theorem plainMembers_iff {ms : List (String × Value)} :
    PlainMembers ms ↔ ∀ m ∈ ms, m.2.Plain := by
  induction ms with
  | nil => simp [PlainMembers]
  | cons m ms ih => simp [PlainMembers, ih]

/-- Last values are among those that are given. -/
theorem plainMembers_ofList {pairs : List (String × Value)} (h : ∀ p ∈ pairs, p.2.Plain) :
    PlainMembers (Dictionary.ofList pairs).entries := by
  refine plainMembers_iff.2 fun e he => ?_
  have hget : (Dictionary.ofList pairs).get? e.1 = some e.2 :=
    (valueOf?_eq_some_iff (Dictionary.ofList pairs).ordered.nodup).2 he
  rw [Dictionary.get?_ofList] at hget
  exact h e (List.mem_reverse.1 (mem_of_valueOf? hget))

/-- An object of plain values is plain, in whatever order and however often its members are
given. -/
theorem plain_ofMembers {members : List (String × Value)} (h : ∀ m ∈ members, m.2.Plain) :
    (ofMembers members).Plain := by
  rw [ofMembers_eq]
  exact ⟨(Dictionary.ofList members).ordered, plainMembers_ofList h⟩

/-! ### Values of texts -/

mutual

/-- The value has no doubles in it. -/
def WithoutDoubles : Value → Prop
  | .number (.float _) => False
  | .array items => WithoutDoublesItems items
  | .object members => WithoutDoublesMembers members
  | _ => True

/-- No item has doubles in it. -/
def WithoutDoublesItems : List Value → Prop
  | [] => True
  | v :: vs => v.WithoutDoubles ∧ WithoutDoublesItems vs

/-- No member has doubles in it. -/
def WithoutDoublesMembers : List (String × Value) → Prop
  | [] => True
  | (_, v) :: ms => v.WithoutDoubles ∧ WithoutDoublesMembers ms

end

theorem withoutDoublesMembers_iff {ms : List (String × Value)} :
    WithoutDoublesMembers ms ↔ ∀ m ∈ ms, m.2.WithoutDoubles := by
  induction ms with
  | nil => simp [WithoutDoublesMembers]
  | cons m ms ih => simp [WithoutDoublesMembers, ih]

/-- A numeral that stands for an integer stands for one of 64 bits. -/
theorem exact_of_number? {numeral : Numeral} {n : Int} (h : numeral.number? = some (.int n)) :
    (Number.int n).Exact := by
  unfold Numeral.number? at h
  dsimp only at h
  split at h
  · rename_i hwhole
    split at h
    · cases h
      have hmin : Int64.minValue.toInt ≤ 0 := by decide
      exact ⟨by omega, by omega⟩
    · split at h
      · rename_i hsigned
        cases h
        exact exact_of_isSigned64 hsigned.2
      · cases h
  · rcases hfloat : numeral.float? with _ | x
    · rw [hfloat] at h
      cases h
    · rw [hfloat] at h
      cases h

mutual

/-- What is read from a text is plain, if there are no doubles in it. -/
theorem plain_of_ofTree? : ∀ (t : Tree) {v : Value}, ofTree? t = some v → v.WithoutDoubles →
    v.Plain
  | .null, _, h, _ => by
    cases h
    trivial
  | .bool _, _, h, _ => by
    cases h
    trivial
  | .string _, _, h, _ => by
    obtain ⟨s, -, rfl⟩ := Option.map_eq_some_iff.1 h
    trivial
  | .number numeral, _, h, hdoubles => by
    obtain ⟨n, hn, rfl⟩ := Option.map_eq_some_iff.1 h
    cases n with
    | int n => exact exact_of_number? hn
    | float x => exact hdoubles.elim
  | .array items, _, h, hdoubles => by
    obtain ⟨vs, hvs, rfl⟩ := Option.map_eq_some_iff.1 h
    exact plainItems_of_ofItems? items hvs hdoubles
  | .object members, _, h, hdoubles => by
    obtain ⟨ms, hms, rfl⟩ := Option.map_eq_some_iff.1 h
    obtain ⟨hordered, hplain⟩ := plainMembers_of_ofMembers? members hms .nil nofun
    exact ⟨hordered, plainMembers_iff.2 fun m hm =>
      hplain m hm (withoutDoublesMembers_iff.1 hdoubles m hm)⟩

theorem plainItems_of_ofItems? : ∀ (ts : List Tree) {vs : List Value}, ofItems? ts = some vs →
    WithoutDoublesItems vs → PlainItems vs
  | [], _, h, _ => by
    cases h
    trivial
  | t :: ts, _, h, hdoubles => by
    obtain ⟨v, hv, h⟩ := Option.bind_eq_some_iff.1 h
    obtain ⟨vs, hvs, h⟩ := Option.bind_eq_some_iff.1 h
    cases h
    exact ⟨plain_of_ofTree? t hv hdoubles.1, plainItems_of_ofItems? ts hvs hdoubles.2⟩

/-- A member that is replaced later may have doubles in it. -/
theorem plainMembers_of_ofMembers? : ∀ (members : List (Literal × Tree))
    {seen ms : List (String × Value)}, ofMembers? members seen = some ms → Ordered seen →
    (∀ m ∈ seen, m.2.WithoutDoubles → m.2.Plain) →
    Ordered ms ∧ ∀ m ∈ ms, m.2.WithoutDoubles → m.2.Plain
  | [], _, _, h, hordered, hseen => by
    cases h
    exact ⟨hordered, hseen⟩
  | (k, t) :: rest, seen, _, h, hordered, hseen => by
    obtain ⟨key, -, h⟩ := Option.bind_eq_some_iff.1 h
    obtain ⟨v, hv, h⟩ := Option.bind_eq_some_iff.1 h
    have hordered' := pairwise_insertEntry key v hordered
    refine plainMembers_of_ofMembers? rest h hordered' fun m hm => ?_
    have hget := (valueOf?_eq_some_iff (Ordered.nodup hordered')).2 hm
    rw [valueOf?_insertEntry] at hget
    split at hget
    · rw [← Option.some.inj hget]
      exact plain_of_ofTree? t hv
    · exact hseen m (mem_of_valueOf? hget)

end

end Json.Value

/-! ### Metadata -/

namespace Metadata

/-- Metadata of plain values that is not nested too deeply is plain. -/
theorem plain_ofList {pairs : List (String × Value)} (hplain : ∀ p ∈ pairs, p.2.Plain)
    (hdepth : (tree (Dictionary.ofList pairs)).depth ≤ Tree.depthLimit) :
    Plain (Dictionary.ofList pairs) :=
  ⟨Value.plainMembers_ofList hplain, hdepth⟩

/-- **Metadata is canonical.**  The metadata of a list of pairs, in any order and with any
repetitions:

* holds for each key the last value given, and has exactly the keys that are given, each
  once, in code point order;
* has a text that is the same for all lists that give the same last values, such as any
  other order of pairs with different keys;
* is read back from its text, if its values are plain and not nested too deeply. -/
theorem metadata_of_pairs (pairs : List (String × Value)) :
    let m : Metadata := Dictionary.ofList pairs
    (∀ key, m.get? key = lastValue? pairs key ∧
      (m.contains key ↔ key ∈ pairs.map Prod.fst) ∧ (key ∈ m.keys ↔ key ∈ pairs.map Prod.fst)) ∧
    m.keys.Pairwise (· < ·) ∧ m.size = (pairs.map Prod.fst).dedup.length ∧
    (∀ pairs', (∀ key, lastValue? pairs' key = lastValue? pairs key) →
      Metadata.text (Dictionary.ofList pairs') = m.text) ∧
    (∀ pairs', pairs'.Perm pairs → (pairs.map Prod.fst).Nodup →
      Metadata.text (Dictionary.ofList pairs') = m.text) ∧
    ∀ label, codec.serialize label m = .ok m.text ∧
      ((∀ p ∈ pairs, p.2.Plain) → m.tree.depth ≤ Tree.depthLimit →
        codec.deserialize label m.text = .ok m) := by
  intro m
  refine ⟨fun key => ⟨Dictionary.get?_ofList pairs key, ?_, Dictionary.mem_keys_ofList⟩,
    m.pairwise_keys, Dictionary.size_ofList pairs, fun pairs' h => ?_, fun pairs' h hkeys => ?_,
    fun label => ⟨rfl, fun hplain hdepth => ?_⟩⟩
  · rw [Dictionary.contains, ← Dictionary.mem_keys]
    exact Dictionary.mem_keys_ofList
  · rw [Dictionary.ofList_congr h]
  · rw [Dictionary.ofList_perm h hkeys]
  · exact (plain_ofList hplain hdepth).read_text label

/-- Keys in any order, one of them given twice, with a nested value. -/
theorem nested_metadata_is_read_back :
    let pairs : List (String × Value) :=
      [("user", .object [("ids", .array [.int (-1), .null]), ("name", .string "Ada")]),
        ("step", .int 1), ("step", .int 2)]
    let m : Metadata := Dictionary.ofList pairs
    (∀ p ∈ pairs, p.2.Plain) ∧ m.tree.depth ≤ Tree.depthLimit ∧
      m.keys = ["step", "user"] ∧ m.get? "step" = some (.int 2) ∧
      codec.deserialize "Metadata" m.text = .ok m := by
  intro pairs m
  have hplain : ∀ p ∈ pairs, p.2.Plain := by
    have hint (n : Int) (h : isSigned64 n = true) : (Value.int n).Plain := exact_of_isSigned64 h
    have hids : Ordered [("ids", Value.array [.int (-1), .null]), ("name", .string "Ada")] :=
      List.pairwise_pair.2 (show "ids" < "name" by decide)
    simp only [pairs, List.forall_mem_cons, List.not_mem_nil, false_imp_iff, implies_true, and_true]
    exact ⟨⟨hids, ⟨hint _ (by decide), trivial, trivial⟩, trivial, trivial⟩,
      hint _ (by decide), hint _ (by decide)⟩
  have hdepth : m.tree.depth ≤ Tree.depthLimit := by decide
  obtain ⟨hvalues, -, -, -, -, htext⟩ := metadata_of_pairs pairs
  exact ⟨hplain, hdepth, by decide, (hvalues "step").1, (htext "Metadata").2 hplain hdepth⟩

end Metadata

end Chronicle
