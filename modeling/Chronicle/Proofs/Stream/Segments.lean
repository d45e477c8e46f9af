/-
Chronicle/Proofs/Stream/Segments.lean

Offsets of partitions, and the segments of a log between them.

`Offsets.at?` is the offset of a partition.  Those `behind` and at the `start` of
records are the ones behind the last and at the first record of the partition
(`Offsets.at?_behind`, `Offsets.at?_start`).

`Segment log p a b records` says that `records` are all records of a partition
from one offset up to another, in order.  Segments are joined where one ends and
the other begins, and divided between any two records (`Segment.append`,
`Segment.split`).
-/
import Chronicle.Broker

namespace Chronicle

/-! ### The order of partitions -/

namespace TopicPartition

theorem before_iff {a b : TopicPartition} :
    a.before b ↔ a.topic < b.topic ∨ a.topic = b.topic ∧ a.partition < b.partition := by
  simp [before]

theorem before_irrefl (a : TopicPartition) : ¬a.before a := by
  rw [before_iff]
  rintro (h | ⟨-, h⟩)
  · exact String.lt_irrefl _ h
  · exact Int.lt_irrefl _ h

theorem before_trans {a b c : TopicPartition} (hab : a.before b) (hbc : b.before c) :
    a.before c := by
  rw [before_iff] at *
  rcases hab with hab | ⟨hab, hp⟩
  · rcases hbc with hbc | ⟨hbc, -⟩
    · exact .inl (String.lt_trans hab hbc)
    · exact .inl (hbc ▸ hab)
  · rcases hbc with hbc | ⟨hbc, hq⟩
    · exact .inl (hab ▸ hbc)
    · exact .inr ⟨hab.trans hbc, Int.lt_trans hp hq⟩

theorem before_of_not {a b : TopicPartition} (h : ¬a.before b) (hne : a ≠ b) : b.before a := by
  rw [before_iff] at *
  rcases a with ⟨topic, partition⟩
  rcases b with ⟨topic', partition'⟩
  have hle : topic' ≤ topic := String.not_lt.1 fun hlt => h (.inl hlt)
  by_cases htopic : topic' = topic
  · subst htopic
    have hp : ¬partition < partition' := fun hlt => h (.inr ⟨rfl, hlt⟩)
    have hne' : partition ≠ partition' := fun heq => hne (by rw [heq])
    have hlt : partition' < partition := by omega
    exact .inr ⟨rfl, hlt⟩
  · exact .inl (Std.lt_of_le_of_ne hle htopic)

end TopicPartition

/-! ### Offsets -/

namespace Offsets

/-- The offset of a partition, if there is one. -/
def at? (os : Offsets) (p : TopicPartition) : Option Int :=
  (os.find? fun o => o.1 = p).map (·.2)

/-- Every partition has one offset, in the order of the partitions. -/
def Sorted (os : Offsets) : Prop := os.Pairwise fun a b => a.1.before b.1

theorem at?_cons (o : TopicPartition × Int) (os : Offsets) (p : TopicPartition) :
    at? (o :: os) p = if o.1 = p then some o.2 else at? os p := by
  by_cases h : o.1 = p <;> simp [at?, h]

/-- Partitions before all others have no offset. -/
theorem at?_eq_none {os : Offsets} {p : TopicPartition} (h : ∀ o ∈ os, p.before o.1) :
    os.at? p = none := by
  rw [at?, Option.map_eq_none_iff, List.find?_eq_none]
  intro o ho heq
  have hbefore := h o ho
  rw [of_decide_eq_true heq] at hbefore
  exact p.before_irrefl hbefore

theorem mem_partitions_alter {place : TopicPartition} {f : Option Int → Int} {os : Offsets}
    {o : TopicPartition × Int} (h : o ∈ os.alter place f) :
    o.1 = place ∨ ∃ o' ∈ os, o'.1 = o.1 := by
  induction os with
  | nil => exact .inl (congrArg Prod.fst (List.mem_singleton.1 h))
  | cons e os ih =>
    rcases e with ⟨p, offset⟩
    simp only [alter] at h
    split at h
    · rcases List.mem_cons.1 h with rfl | h
      · exact .inl rfl
      · exact .inr ⟨o, h, rfl⟩
    · split at h
      · rename_i hplace
        rcases List.mem_cons.1 h with rfl | h
        · exact .inl hplace.symm
        · exact .inr ⟨o, List.mem_cons_of_mem _ h, rfl⟩
      · rcases List.mem_cons.1 h with rfl | h
        · exact .inr ⟨_, List.mem_cons_self, rfl⟩
        · rcases ih h with h | ⟨o', ho', h⟩
          · exact .inl h
          · exact .inr ⟨o', List.mem_cons_of_mem _ ho', h⟩

theorem Sorted.alter {os : Offsets} (h : os.Sorted) (place : TopicPartition)
    (f : Option Int → Int) : (os.alter place f).Sorted := by
  induction os with
  | nil => exact List.pairwise_singleton _ _
  | cons e os ih =>
    rcases e with ⟨p, offset⟩
    obtain ⟨hhead, htail⟩ := List.pairwise_cons.1 h
    simp only [Offsets.alter]
    split
    · rename_i hbefore
      refine List.pairwise_cons.2 ⟨fun o ho => ?_, h⟩
      rcases List.mem_cons.1 ho with rfl | ho
      · exact hbefore
      · exact TopicPartition.before_trans hbefore (hhead o ho)
    · rename_i hnot
      split
      · exact List.pairwise_cons.2 ⟨hhead, htail⟩
      · rename_i hne
        refine List.pairwise_cons.2 ⟨fun o ho => ?_, ih htail⟩
        rcases mem_partitions_alter ho with heq | ⟨o', ho', heq⟩
        · rw [heq]
          exact TopicPartition.before_of_not hnot hne
        · rw [← heq]
          exact hhead o' ho'

/-- Altering the offset of a partition leaves the others. -/
theorem Sorted.at?_alter {os : Offsets} (h : os.Sorted) (place p : TopicPartition)
    (f : Option Int → Int) :
    (os.alter place f).at? p = if p = place then some (f (os.at? place)) else os.at? p := by
  induction os with
  | nil =>
    by_cases hp : p = place
    · simp [Offsets.alter, at?, hp]
    · simp [Offsets.alter, at?, hp, Ne.symm hp]
  | cons e os ih =>
    rcases e with ⟨q, offset⟩
    obtain ⟨hhead, htail⟩ := List.pairwise_cons.1 h
    simp only [Offsets.alter]
    split
    · rename_i hbefore
      have hnone : at? ((q, offset) :: os) place = none := by
        apply at?_eq_none
        intro o ho
        rcases List.mem_cons.1 ho with rfl | ho
        · exact hbefore
        · exact TopicPartition.before_trans hbefore (hhead o ho)
      rw [at?_cons, hnone]
      by_cases hp : p = place
      · simp [hp]
      · simp [hp, Ne.symm hp]
    · split
      · rename_i hplace
        subst hplace
        rw [at?_cons, at?_cons, at?_cons]
        by_cases hp : p = place
        · simp [hp]
        · simp [hp, Ne.symm hp]
      · rename_i hne
        rw [at?_cons, at?_cons, at?_cons, ih htail]
        by_cases hp : p = place
        · subst hp
          simp [Ne.symm hne]
        · simp [hp]

/-- The one entry of a partition. -/
theorem Sorted.filter_eq {os : Offsets} (h : os.Sorted) (p : TopicPartition) :
    (os.filter fun o => o.1 = p) = ((os.at? p).map fun offset => (p, offset)).toList := by
  induction os with
  | nil => rfl
  | cons e os ih =>
    obtain ⟨hhead, htail⟩ := List.pairwise_cons.1 h
    rw [at?_cons]
    by_cases hp : e.1 = p
    · subst hp
      have hnone : (os.filter fun o => o.1 = e.1) = [] := by
        rw [List.filter_eq_nil_iff]
        intro o ho heq
        have hbefore := hhead o ho
        rw [of_decide_eq_true heq] at hbefore
        exact e.1.before_irrefl hbefore
      simp [hnone]
    · simp [hp, ih htail]

end Offsets

/-! ### Records of a partition -/

/-- The records of a partition among records, in order. -/
def inPartition (p : TopicPartition) (xs : List StreamRecord) : List StreamRecord :=
  xs.filter fun x => x.place = p

@[simp] theorem inPartition_append (p : TopicPartition) (xs ys : List StreamRecord) :
    inPartition p (xs ++ ys) = inPartition p xs ++ inPartition p ys :=
  List.filter_append xs ys

theorem inPartition_cons (p : TopicPartition) (x : StreamRecord) (xs : List StreamRecord) :
    inPartition p (x :: xs) = if x.place = p then x :: inPartition p xs else inPartition p xs := by
  by_cases h : x.place = p <;> simp [inPartition, h]

namespace Offsets

theorem sorted_behind (xs : List StreamRecord) : (behind xs).Sorted :=
  List.foldlRecOn xs _ .nil fun _ h x _ => h.alter x.place _

theorem sorted_start (xs : List StreamRecord) : (start xs).Sorted :=
  List.foldlRecOn xs _ .nil fun _ h x _ => h.alter x.place _

/-- The offset behind the last record of a partition. -/
theorem at?_behind (xs : List StreamRecord) (p : TopicPartition) :
    (behind xs).at? p = (inPartition p xs).getLast?.map fun x => x.offset + 1 := by
  -- the induction is over the records still to come, from any offsets so far
  suffices h : ∀ os : Offsets, os.Sorted →
      (xs.foldl (fun (os : Offsets) x => os.alter x.place fun _ => x.offset + 1) os).at? p =
        ((inPartition p xs).getLast?.map fun x => x.offset + 1).or (os.at? p) by
    rw [behind, h [] .nil]
    exact Option.or_none
  induction xs with
  | nil => exact fun _ _ => rfl
  | cons x xs ih =>
    intro os hos
    rw [List.foldl_cons, ih _ (hos.alter x.place _), hos.at?_alter, inPartition_cons]
    by_cases hp : x.place = p
    · rw [if_pos hp.symm, if_pos hp, List.getLast?_cons]
      rcases (inPartition p xs).getLast? with _ | y
      · rfl
      · rfl
    · rw [if_neg (Ne.symm hp), if_neg hp]

/-- Every offset is behind the last record of its partition. -/
theorem mem_behind {xs : List StreamRecord} {o : TopicPartition × Int} (h : o ∈ behind xs) :
    ∃ x, (inPartition o.1 xs).getLast? = some x ∧ o.2 = x.offset + 1 := by
  have hmem : o ∈ (behind xs).filter fun o' => o'.1 = o.1 :=
    List.mem_filter.2 ⟨h, decide_eq_true rfl⟩
  rw [(sorted_behind xs).filter_eq, at?_behind] at hmem
  rcases hlast : (inPartition o.1 xs).getLast? with _ | x
  · rw [hlast] at hmem
    cases hmem
  · rw [hlast] at hmem
    refine ⟨x, rfl, ?_⟩
    rw [List.mem_singleton.1 hmem]

/-- The offset at the first record of a partition. -/
theorem at?_start (xs : List StreamRecord) (p : TopicPartition) :
    (start xs).at? p = (inPartition p xs).head?.map fun x => x.offset := by
  suffices h : ∀ os : Offsets, os.Sorted →
      (xs.foldl (fun (os : Offsets) x => os.alter x.place fun o => o.getD x.offset) os).at? p =
        (os.at? p).or ((inPartition p xs).head?.map fun x => x.offset) by
    rw [start, h [] .nil]
    rfl
  induction xs with
  | nil =>
    intro os _
    exact Option.or_none.symm
  | cons x xs ih =>
    intro os hos
    rw [List.foldl_cons, ih _ (hos.alter x.place _), hos.at?_alter, inPartition_cons]
    by_cases hp : x.place = p
    · rw [if_pos hp.symm, if_pos hp, hp]
      rcases os.at? p with _ | offset
      · rfl
      · rfl
    · rw [if_neg (Ne.symm hp), if_neg hp]

end Offsets

/-! ### Segments -/

/-- All records of a partition from one offset up to another, in order. -/
structure Segment (log : StreamRecord → Prop) (p : TopicPartition) (a b : Int)
    (records : List StreamRecord) : Prop where
  le : a ≤ b
  increasing : records.Pairwise fun x y => x.offset < y.offset
  mem : ∀ x, x ∈ records ↔ log x ∧ x.place = p ∧ a ≤ x.offset ∧ x.offset < b

namespace Segment

variable {log : StreamRecord → Prop} {p : TopicPartition} {a b c : Int}
  {xs ys : List StreamRecord}

theorem nil (log : StreamRecord → Prop) (p : TopicPartition) (a : Int) :
    Segment log p a a [] := by
  refine ⟨Int.le_refl a, .nil, fun x => ⟨fun h => absurd h List.not_mem_nil, ?_⟩⟩
  rintro ⟨-, -, hle, hlt⟩
  omega

/-- Segments are joined where one ends and the other begins. -/
theorem append (hxs : Segment log p a b xs) (hys : Segment log p b c ys) :
    Segment log p a c (xs ++ ys) := by
  refine ⟨Int.le_trans hxs.le hys.le, ?_, fun x => ?_⟩
  · refine List.pairwise_append.2 ⟨hxs.increasing, hys.increasing, fun x hx y hy => ?_⟩
    have hlt := ((hxs.mem x).1 hx).2.2.2
    have hle := ((hys.mem y).1 hy).2.2.1
    omega
  · have hab := hxs.le
    have hbc := hys.le
    rw [List.mem_append, hxs.mem, hys.mem]
    constructor
    · rintro (⟨hlog, hp, hle, hlt⟩ | ⟨hlog, hp, hle, hlt⟩)
      · exact ⟨hlog, hp, hle, by omega⟩
      · exact ⟨hlog, hp, by omega, hlt⟩
    · rintro ⟨hlog, hp, hle, hlt⟩
      by_cases hb : x.offset < b
      · exact .inl ⟨hlog, hp, hle, hb⟩
      · exact .inr ⟨hlog, hp, by omega, hlt⟩

/-- Where the second of two parts of a segment begins. -/
def cut (b : Int) (ys : List StreamRecord) : Int := (ys.head?.map StreamRecord.offset).getD b

/-- A segment is divided between any two records. -/
theorem split (h : Segment log p a b (xs ++ ys)) :
    Segment log p a (cut b ys) xs ∧ Segment log p (cut b ys) b ys := by
  obtain ⟨hxs, hys, hlt⟩ := List.pairwise_append.1 h.increasing
  rcases ys with _ | ⟨y, ys⟩
  · rw [List.append_nil] at h
    exact ⟨h, nil log p b⟩
  · -- the records before `y` are exactly those with a lower offset
    have hy := (h.mem y).1 (List.mem_append_right _ List.mem_cons_self)
    have hrest := (List.pairwise_cons.1 hys).1
    show Segment log p a y.offset xs ∧ Segment log p y.offset b (y :: ys)
    refine ⟨⟨hy.2.2.1, hxs, fun x => ⟨fun hx => ?_, ?_⟩⟩,
      ⟨Int.le_of_lt hy.2.2.2, hys, fun x => ⟨fun hx => ?_, ?_⟩⟩⟩
    · obtain ⟨hlog, hp, hle, -⟩ := (h.mem x).1 (List.mem_append_left _ hx)
      exact ⟨hlog, hp, hle, hlt x hx y List.mem_cons_self⟩
    · rintro ⟨hlog, hp, hle, hx⟩
      have hmem := (h.mem x).2 ⟨hlog, hp, hle, by omega⟩
      rcases List.mem_append.1 hmem with hmem | hmem
      · exact hmem
      · rcases List.mem_cons.1 hmem with rfl | hmem
        · omega
        · have := hrest x hmem
          omega
    · obtain ⟨hlog, hp, -, hb⟩ := (h.mem x).1 (List.mem_append_right _ hx)
      rcases List.mem_cons.1 hx with rfl | hx
      · exact ⟨hlog, hp, Int.le_refl _, hb⟩
      · exact ⟨hlog, hp, Int.le_of_lt (hrest x hx), hb⟩
    · rintro ⟨hlog, hp, hle, hb⟩
      have hmem := (h.mem x).2 ⟨hlog, hp, by omega, hb⟩
      rcases List.mem_append.1 hmem with hmem | hmem
      · have := hlt x hmem y List.mem_cons_self
        omega
      · exact hmem

/-- The offset behind the last of some records is in a segment of them. -/
theorem behind_mem (h : Segment log p a b (inPartition p xs)) {o : TopicPartition × Int}
    (ho : o ∈ Offsets.behind xs) (hp : o.1 = p) : a < o.2 ∧ o.2 ≤ b := by
  subst hp
  obtain ⟨x, hx, hoffset⟩ := Offsets.mem_behind ho
  obtain ⟨-, -, hle, hlt⟩ := (h.mem x).1 (List.mem_of_getLast? hx)
  omega

end Segment

end Chronicle
