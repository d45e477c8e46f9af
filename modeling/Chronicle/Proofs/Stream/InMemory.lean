/-
Chronicle/Proofs/Stream/InMemory.lean

A reader of records that are all in memory.

Its world is the position in every partition.  A poll takes the records from there
on in the order in which they are listed, so one batch mixes partitions as the
list does, and stops at its limit.  `Reader.inMemory` shows that this is a reader.
-/
import Chronicle.Proofs.Stream.Course

namespace Chronicle

variable {D : Domain} {R : Type} {records : List StreamRecord}

/-- The position in every partition. -/
abbrev Positions := TopicPartition → Int

/-- The records of every partition are listed in order. -/
def InOrder (records : List StreamRecord) : Prop :=
  records.Pairwise fun x y => x.place = y.place → x.offset < y.offset

instance : DecidablePred InOrder := fun records =>
  inferInstanceAs (Decidable (records.Pairwise fun x y => x.place = y.place → x.offset < y.offset))

theorem InOrder.inPartition (h : InOrder records) (p : TopicPartition) :
    (inPartition p records).Pairwise fun x y => x.offset < y.offset := by
  refine List.pairwise_filter.2 (h.imp fun hxy hx hy => hxy ?_)
  rw [of_decide_eq_true hx, of_decide_eq_true hy]

namespace Positions

/-- The records from the positions on. -/
def unread (records : List StreamRecord) (positions : Positions) : List StreamRecord :=
  records.filter fun x => positions x.place ≤ x.offset

/-- The positions behind records. -/
def behind (positions : Positions) (xs : List StreamRecord) : Positions :=
  fun p => ((Offsets.behind xs).at? p).getD (positions p)

theorem mem_unread {positions : Positions} {p : TopicPartition} {x : StreamRecord} :
    x ∈ inPartition p (positions.unread records) ↔
      x ∈ records ∧ x.place = p ∧ positions p ≤ x.offset := by
  simp only [inPartition, unread, List.mem_filter, decide_eq_true_eq]
  constructor
  · rintro ⟨⟨hx, hle⟩, rfl⟩
    exact ⟨hx, rfl, hle⟩
  · rintro ⟨hx, rfl, hle⟩
    exact ⟨⟨hx, hle⟩, rfl⟩

/-- What is unread of a partition goes from the position to behind the last record. -/
theorem segment_unread (hrecords : InOrder records) (positions : Positions) (p : TopicPartition) :
    Segment (· ∈ records) p (positions p) (positions.behind (positions.unread records) p)
      (inPartition p (positions.unread records)) := by
  have hincreasing : (inPartition p (positions.unread records)).Pairwise fun x y =>
      x.offset < y.offset :=
    (hrecords.inPartition p).sublist (List.filter_sublist.filter _)
  rw [behind, Offsets.at?_behind]
  rcases hlast : (inPartition p (positions.unread records)).getLast? with _ | last
  · rw [List.getLast?_eq_none_iff.1 hlast]
    exact .nil _ p _
  · have hle := (mem_unread.1 (List.mem_of_getLast? hlast)).2.2
    refine ⟨?_, hincreasing, fun x => ?_⟩
    · show positions p ≤ last.offset + 1
      omega
    rw [mem_unread]
    show _ ↔ _ ∧ _ ∧ _ ∧ x.offset < last.offset + 1
    constructor
    · rintro ⟨hx, hplace, hpos⟩
      refine ⟨hx, hplace, hpos, ?_⟩
      -- no record of the partition is behind its last one
      obtain ⟨xs, heq⟩ := List.getLast?_eq_some_iff.1 hlast
      have hmem := mem_unread.2 ⟨hx, hplace, hpos⟩
      rw [heq] at hmem hincreasing
      rcases List.mem_append.1 hmem with hmem | hmem
      · have := (List.pairwise_append.1 hincreasing).2.2 x hmem last List.mem_cons_self
        omega
      · rw [List.mem_singleton.1 hmem]
        omega
    · rintro ⟨hx, hplace, hpos, -⟩
      exact ⟨hx, hplace, hpos⟩

end Positions

/-- The consumer of records that are all in memory. -/
def Consumer.inMemory (records : List StreamRecord) : Consumer (Session R Positions) where
  poll _ limit := fun s =>
    let xs := s.world.unread records
    let positions p := Segment.cut (s.world.behind xs p) (inPartition p (xs.drop limit))
    (some (.ok (xs.take limit)), { s with world := positions })
  commit _ := pure (.ok ())
  rewind offsets := fun s =>
    (.ok (), { s with world := fun p => (offsets.at? p).getD (s.world p) })
  close := pure (.ok ())

/-- A reader of records that are all in memory, whose handlers do not move it. -/
def Reader.inMemory (hrecords : InOrder records) (r : Registry D (Session R Positions))
    (config : StreamConfig) (group : String) (id : Nat)
    (hhandlers : ∀ typeName, ∀ h ∈ r.streamHandlers group typeName, ∀ values event,
      (h.2.run values event).Respects fun s s' => s'.world = s.world) :
    Reader D R Positions (· ∈ records) where
  worker := ⟨r, config, group, id, .inMemory records⟩
  position positions := positions
  poll_ok := by
    intro timeout limit xs s s' hpoll p
    cases hpoll
    have h := Positions.segment_unread hrecords s.world p
    rw [← List.take_append_drop limit (s.world.unread records), inPartition_append,
      List.take_append_drop] at h
    exact h.split.1
  poll_failed := by
    intro timeout limit answer s s' hpoll hanswer
    cases hpoll
    exact absurd rfl (hanswer _)
  commit := by
    intro offsets answer s s' hcommit
    cases hcommit
    rfl
  rewind_ok := by
    intro offsets s s' hrewind p
    cases hrewind
    rfl
  rewind_failed := by
    intro offsets e s s' hrewind
    cases hrewind
  handlers := hhandlers

end Chronicle
