/-
Chronicle/Proofs/Json/Fields.lean

Which members of an object count when the fields of a record are read.

`Tree.valuesOf` collects the values of all members of a name.  An object has the
fields of a record if no name of a field is repeated (`Tree.fields?_object`).  So it
does not matter in which order members come, nor whether there are others between
them (`Tree.fields?_perm`, `Tree.fields?_other`).  A record that is written with all
of its fields has them (`Tree.fields?_self`).
-/
import Chronicle.Json.Tree
import Chronicle.Proofs.Dictionary

namespace Chronicle.Json.Tree

/-- The values of all members of a name, in order. -/
def valuesOf (name : String) (members : List (Literal × Tree)) : List Tree :=
  (members.filter fun m => m.1 == some name).map (·.2)

theorem valuesOf_append (name : String) (xs ys : List (Literal × Tree)) :
    valuesOf name (xs ++ ys) = valuesOf name xs ++ valuesOf name ys := by
  rw [valuesOf, List.filter_append, List.map_append]
  rfl

theorem valuesOf_cons_self (name : String) (t : Tree) (members : List (Literal × Tree)) :
    valuesOf name ((some name, t) :: members) = t :: valuesOf name members := by
  have hname : ((some name : Literal), t).1 == some name := beq_self_eq_true _
  rw [valuesOf, List.filter_cons_of_pos (p := fun m : Literal × Tree => m.1 == some name) hname]
  rfl

theorem valuesOf_cons_of_ne {name other : String} (h : other ≠ name) (t : Tree)
    (members : List (Literal × Tree)) :
    valuesOf name ((some other, t) :: members) = valuesOf name members := by
  have hname : ¬((some other : Literal), t).1 == some name := by simpa using h
  rw [valuesOf, List.filter_cons_of_neg (p := fun m : Literal × Tree => m.1 == some name) hname]
  rfl

/-- An object has the fields if all of its names are texts and none is repeated. -/
theorem fields?_object (names : List String) (members : List (Literal × Tree)) :
    (object members).fields? names =
      if (∀ m ∈ members, m.1.isSome = true) ∧ ∀ n ∈ names, (valuesOf n members).length ≤ 1 then
        some (names.map fun n => (valuesOf n members).head?)
      else none := by
  have hhead (n : String) : (members.find? fun m => m.1 == some n).map (·.2) =
      (valuesOf n members).head? := by
    rw [valuesOf, List.head?_map, List.head?_filter]
  simp only [fields?, hhead, valuesOf, List.length_map, Bool.and_eq_true, List.all_eq_true,
    decide_eq_true_eq]

/-- The order of the members does not matter. -/
theorem fields?_perm {members members' : List (Literal × Tree)} (h : members.Perm members')
    (names : List String) : (object members).fields? names = (object members').fields? names := by
  have hvalues (n : String) : (valuesOf n members).Perm (valuesOf n members') :=
    (h.filter _).map _
  have hiff : ((∀ m ∈ members, m.1.isSome = true) ∧
        ∀ n ∈ names, (valuesOf n members).length ≤ 1) ↔
      (∀ m ∈ members', m.1.isSome = true) ∧ ∀ n ∈ names, (valuesOf n members').length ≤ 1 := by
    simp only [h.mem_iff, (hvalues _).length_eq]
  rw [fields?_object, fields?_object]
  by_cases hfields : (∀ m ∈ members, m.1.isSome = true) ∧
      ∀ n ∈ names, (valuesOf n members).length ≤ 1
  · rw [if_pos hfields, if_pos (hiff.1 hfields)]
    refine congrArg some (List.map_congr_left fun n hn => ?_)
    -- one value at most has one order only
    rcases hone : valuesOf n members with _ | ⟨t, ts⟩
    · have hnil : valuesOf n members' = [] := (hone ▸ hvalues n).nil_eq.symm
      rw [hnil]
    · have hlength := hfields.2 n hn
      rw [hone] at hlength
      obtain rfl : ts = [] := List.length_eq_zero_iff.1 (by simpa using hlength)
      rw [List.singleton_perm.1 (hone ▸ hvalues n)]
  · rw [if_neg hfields, if_neg (mt hiff.2 hfields)]

/-- Members of other names do not matter. -/
theorem fields?_other {name : String} {names : List String} (h : name ∉ names) (t : Tree)
    (xs ys : List (Literal × Tree)) :
    (object (xs ++ (some name, t) :: ys)).fields? names = (object (xs ++ ys)).fields? names := by
  have hvalues : ∀ n ∈ names, valuesOf n (xs ++ (some name, t) :: ys) = valuesOf n (xs ++ ys) := by
    intro n hn
    have hne : name ≠ n := fun heq => h (heq ▸ hn)
    rw [valuesOf_append, valuesOf_append, valuesOf_cons_of_ne hne]
  have hnames : (∀ m ∈ xs ++ (some name, t) :: ys, m.1.isSome = true) ↔
      ∀ m ∈ xs ++ ys, m.1.isSome = true := by
    simp only [List.forall_mem_append, List.forall_mem_cons, Option.isSome_some, true_and]
  have honce : (∀ n ∈ names, (valuesOf n (xs ++ (some name, t) :: ys)).length ≤ 1) ↔
      ∀ n ∈ names, (valuesOf n (xs ++ ys)).length ≤ 1 :=
    forall₂_congr fun n hn => by rw [hvalues n hn]
  have hheads : (names.map fun n => (valuesOf n (xs ++ (some name, t) :: ys)).head?) =
      names.map fun n => (valuesOf n (xs ++ ys)).head? :=
    List.map_congr_left fun n hn => by rw [hvalues n hn]
  rw [fields?_object, fields?_object, hheads]
  simp only [hnames, honce]

/-- Whether a member is the one field does not depend on its value. -/
theorem fields?_only (name : String) (xs ys : List (Literal × Tree)) :
    (∀ t, (object (xs ++ (some name, t) :: ys)).fields? [name] = none) ∨
      ∀ t, (object (xs ++ (some name, t) :: ys)).fields? [name] = some [some t] := by
  have hvalues (t : Tree) : valuesOf name (xs ++ (some name, t) :: ys) =
      valuesOf name xs ++ t :: valuesOf name ys := by
    rw [valuesOf_append, valuesOf_cons_self]
  have hnames (t : Tree) : (∀ m ∈ xs ++ (some name, t) :: ys, m.1.isSome = true) ↔
      ∀ m ∈ xs ++ ys, m.1.isSome = true := by
    simp only [List.forall_mem_append, List.forall_mem_cons, Option.isSome_some, true_and]
  by_cases hfields : (∀ m ∈ xs ++ ys, m.1.isSome = true) ∧ valuesOf name xs = [] ∧
      valuesOf name ys = []
  · obtain ⟨htexts, hxs, hys⟩ := hfields
    refine .inr fun t => ?_
    have hone : valuesOf name (xs ++ (some name, t) :: ys) = [t] := by rw [hvalues, hxs, hys]; rfl
    rw [fields?_object, if_pos ⟨(hnames t).2 htexts, by simp [hone]⟩]
    simp [hone]
  · refine .inl fun t => ?_
    rw [fields?_object, if_neg]
    rintro ⟨htexts, honce⟩
    have hlength := honce name (List.mem_singleton_self name)
    rw [hvalues, List.length_append, List.length_cons] at hlength
    refine hfields ⟨(hnames t).1 htexts, ?_, ?_⟩
    · exact List.length_eq_zero_iff.1 (by omega)
    · exact List.length_eq_zero_iff.1 (by omega)

/-! ### Records as they are written -/

/-- The members of an object, with their names as they are written. -/
theorem valueOf?_members (members : List (String × Tree)) (name : String) :
    ((members.map fun m => ((some m.1 : Literal), m.2)).find? fun m => m.1 == some name).map
      (·.2) = valueOf? name members := by
  induction members with
  | nil => rfl
  | cons m rest ih =>
    obtain ⟨k, t⟩ := m
    rw [List.map_cons, valueOf?]
    by_cases hkey : name = k
    · rw [if_pos hkey, List.find?_cons_of_pos (by simp [hkey])]
      rfl
    · rw [if_neg hkey, List.find?_cons_of_neg (by simpa using Ne.symm hkey), ih]

/-- The fields of an object without repeated names. -/
theorem fields?_ofMembers {members : List (String × Tree)}
    (hkeys : (members.map Prod.fst).Nodup) (names : List String) :
    (ofMembers members).fields? names = some (names.map fun n => valueOf? n members) := by
  have honce (n : String) : ((members.map fun m => ((some m.1 : Literal), m.2)).filter
      fun m => m.1 == some n).length ≤ 1 := by
    calc _ = (members.map Prod.fst).count n := by
          rw [← List.countP_eq_length_filter, List.countP_map, List.count, List.countP_map]
          rfl
      _ ≤ 1 := List.nodup_iff_count.1 hkeys n
  unfold ofMembers fields?
  dsimp only
  rw [if_pos]
  · simp only [valueOf?_members]
  · rw [Bool.and_eq_true, List.all_map, List.all_eq_true, List.all_eq_true]
    exact ⟨fun _ _ => rfl, fun n _ => decide_eq_true (honce n)⟩

/-- A record that is written with all of its fields, in order, has them. -/
theorem fields?_self {members : List (String × Tree)} (hkeys : (members.map Prod.fst).Nodup) :
    (ofMembers members).fields? (members.map Prod.fst) = some (members.map fun m => some m.2) := by
  rw [fields?_ofMembers hkeys, List.map_map]
  refine congrArg some (List.map_congr_left fun m hm => ?_)
  exact (valueOf?_eq_some_iff hkeys).2 hm

/-- The one field of an object with one member. -/
theorem fields?_single (name : String) (t : Tree) :
    (ofMembers [(name, t)]).fields? [name] = some [some t] :=
  fields?_self (List.nodup_singleton name)

end Chronicle.Json.Tree
