/-
Chronicle/Proofs/Stream/Delivery.lean

Every record is delivered, in order, and once by each worker.

The invariant of a course, `Course.Sound`, says for every partition up to where
all records are processed.  Between batches that is the position; in a batch it
is where the batch began, and the batch goes from there to the position
(`Course.InBatch`); when the batch is given up it is the first record that was
not processed, to which the consumer is moved back.

Main result: `delivered_in_order`.
-/
import Chronicle.Bench.Vocabulary
import Chronicle.Proofs.Driver.Confined
import Chronicle.Proofs.Stream.InMemory

namespace Chronicle

variable {D : Domain} {R W : Type} {log : StreamRecord → Prop}

namespace Course

variable {origin : TopicPartition → Int} {c : Course D R W log}

/-! ### The invariant -/

/-- All records of a partition from the start up to an offset are processed, in
order, and nothing behind the offset is committed. -/
structure UpTo (c : Course D R W log) (p : TopicPartition) (m : Int)
    (processed : List StreamRecord) : Prop where
  segment : Segment log p (c.start p) m (inPartition p processed)
  commits : ∀ o ∈ c.commits, o.1 = p → o.2 ≤ m

/-- In a batch, everything before it was processed, and it goes up to the position. -/
def InBatch (c : Course D R W log) (done pending : List StreamRecord) : Prop :=
  ∃ before, c.processed = before ++ done ∧
    ∀ p, ∃ base, c.UpTo p base before ∧
      Segment log p base (c.position p) (inPartition p (done ++ pending))

/-- Where the processed records stand, by phase. -/
def Standing (c : Course D R W log) : Prop :=
  match c.phase with
  | .polling | .waiting | .pausing => ∀ p, c.UpTo p (c.position p) c.processed
  | .batch done pending => c.InBatch done pending
  | .handling done record rest _ calls =>
    c.InBatch done (record :: rest) ∧ ∀ call ∈ calls, call.Respects fun s s' =>
      c.reader.position s'.world = c.reader.position s.world
  | .committing done .poll => c.InBatch done []
  | .committing done (.rewind pending) => c.InBatch done pending
  | .committing done .close => ∃ pending, c.InBatch done pending
  | .rewinding pending =>
    ∀ p, c.UpTo p (Segment.cut (c.position p) (inPartition p pending)) c.processed
  | .closing | .closed => True

/-- What holds of every course. -/
structure Sound (origin : TopicPartition → Int) (c : Course D R W log) : Prop where
  standing : c.Standing
  /-- The readers before have processed everything before the start. -/
  earlier : ∀ x, log x → origin x.place ≤ x.offset → x.offset < c.start x.place → x ∈ c.earlier
  increasing : ∀ p, (c.commits.filter fun o => o.1 = p).Pairwise fun a b => a.2 < b.2
  covered : ∀ o ∈ c.commits, ∀ x, log x → x.place = o.1 → origin o.1 ≤ x.offset →
    x.offset < o.2 → x ∈ c.earlier ++ c.processed

/-! ### Moves without a commit -/

theorem UpTo.congr {c' : Course D R W log} {p : TopicPartition} {m : Int}
    {processed : List StreamRecord} (h : c.UpTo p m processed) (hstart : c'.start = c.start)
    (hcommits : c'.commits = c.commits) : c'.UpTo p m processed :=
  ⟨hstart ▸ h.segment, hcommits ▸ h.commits⟩

theorem UpTo.advance {p : TopicPartition} {m m' : Int} {before xs : List StreamRecord}
    (h : c.UpTo p m before) (hxs : Segment log p m m' (inPartition p xs)) :
    c.UpTo p m' (before ++ xs) := by
  refine ⟨?_, fun o ho hp => Int.le_trans (h.commits o ho hp) hxs.le⟩
  rw [inPartition_append]
  exact h.segment.append hxs

/-- The next pending record is done. -/
theorem InBatch.next {c' : Course D R W log} {done rest : List StreamRecord}
    {record : StreamRecord} (h : c.InBatch done (record :: rest)) (hstart : c'.start = c.start)
    (hcommits : c'.commits = c.commits) (hprocessed : c'.processed = c.processed ++ [record])
    (hposition : c'.position = c.position) : c'.InBatch (done ++ [record]) rest := by
  obtain ⟨before, hbefore, hsegments⟩ := h
  refine ⟨before, ?_, fun p => ?_⟩
  · rw [hprocessed, hbefore, List.append_assoc]
  · obtain ⟨base, hbase, hsegment⟩ := hsegments p
    refine ⟨base, hbase.congr hstart hcommits, ?_⟩
    rw [hposition, List.append_assoc]
    exact hsegment

theorem InBatch.congr {c' : Course D R W log} {done pending : List StreamRecord}
    (h : c.InBatch done pending) (hstart : c'.start = c.start) (hcommits : c'.commits = c.commits)
    (hprocessed : c'.processed = c.processed) (hposition : c'.position = c.position) :
    c'.InBatch done pending := by
  obtain ⟨before, hbefore, hsegments⟩ := h
  refine ⟨before, hprocessed.trans hbefore, fun p => ?_⟩
  obtain ⟨base, hbase, hsegment⟩ := hsegments p
  refine ⟨base, hbase.congr hstart hcommits, ?_⟩
  rw [hposition]
  exact hsegment

/-- A course that goes on without a commit stays sound if its records stand well. -/
theorem Sound.move (h : c.Sound origin) {c' : Course D R W log} (xs : List StreamRecord)
    (hstanding : c'.Standing) (hstart : c'.start = c.start) (hearlier : c'.earlier = c.earlier)
    (hcommits : c'.commits = c.commits) (hprocessed : c'.processed = c.processed ++ xs) :
    c'.Sound origin where
  standing := hstanding
  earlier := by
    rw [hstart, hearlier]
    exact h.earlier
  increasing := by
    rw [hcommits]
    exact h.increasing
  covered := by
    intro o ho x hlog hplace hle hlt
    rw [hcommits] at ho
    rw [hearlier, hprocessed, ← List.append_assoc]
    exact List.mem_append_left _ (h.covered o ho x hlog hplace hle hlt)

/-! ### Commits -/

/-- What is done of a batch goes up to the first pending record. -/
theorem InBatch.segment {done pending : List StreamRecord} (h : c.InBatch done pending) :
    ∃ before, c.processed = before ++ done ∧ ∀ p, ∃ base, c.UpTo p base before ∧
      Segment log p base (Segment.cut (c.position p) (inPartition p pending))
        (inPartition p done) := by
  obtain ⟨before, hbefore, hsegments⟩ := h
  refine ⟨before, hbefore, fun p => ?_⟩
  obtain ⟨base, hbase, hsegment⟩ := hsegments p
  rw [inPartition_append] at hsegment
  exact ⟨base, hbase, hsegment.split.1⟩

/-- After a commit of what is done, or none, everything is processed up to the first
pending record. -/
theorem InBatch.upTo {done pending : List StreamRecord} (h : c.InBatch done pending)
    (c' : Course D R W log) (hstart : c'.start = c.start)
    (hprocessed : c'.processed = c.processed) (hposition : c'.position = c.position)
    (hcommits : ∀ o ∈ c'.commits, o ∈ c.commits ∨ o ∈ Offsets.behind done) (p : TopicPartition) :
    c'.UpTo p (Segment.cut (c'.position p) (inPartition p pending)) c'.processed := by
  obtain ⟨before, hbefore, hsegments⟩ := h.segment
  obtain ⟨base, hbase, hsegment⟩ := hsegments p
  have hadvanced := hbase.advance hsegment
  rw [← hbefore] at hadvanced
  rw [hposition, hprocessed]
  refine ⟨hstart ▸ hadvanced.segment, fun o ho hp => ?_⟩
  rcases hcommits o ho with ho | ho
  · exact hadvanced.commits o ho hp
  · exact (hsegment.behind_mem ho hp).2

/-- The offsets behind what is done are behind all that were committed. -/
theorem InBatch.increasing {done pending : List StreamRecord} (h : c.InBatch done pending)
    {p : TopicPartition}
    (hincreasing : (c.commits.filter fun o => o.1 = p).Pairwise fun a b => a.2 < b.2) :
    ((c.commits ++ Offsets.behind done).filter fun o => o.1 = p).Pairwise fun a b =>
      a.2 < b.2 := by
  obtain ⟨before, -, hsegments⟩ := h.segment
  obtain ⟨base, hbase, hsegment⟩ := hsegments p
  rw [List.filter_append]
  refine List.pairwise_append.2 ⟨hincreasing, ?_, fun a ha b hb => ?_⟩
  · -- a commit names a partition once
    rw [(Offsets.sorted_behind done).filter_eq]
    rcases (Offsets.behind done).at? p with _ | offset
    · exact .nil
    · exact List.pairwise_singleton _ _
  · obtain ⟨ha, hap⟩ := List.mem_filter.1 ha
    obtain ⟨hb, hbp⟩ := List.mem_filter.1 hb
    have hle := hbase.commits a ha (of_decide_eq_true hap)
    have hlt := (hsegment.behind_mem hb (of_decide_eq_true hbp)).1
    omega

/-- What lies below a committed offset lies before the start, or was processed since. -/
theorem Sound.covered_of_upTo (h : c.Sound origin) {c' : Course D R W log}
    (hstart : c'.start = c.start) (hearlier : c'.earlier = c.earlier)
    (hupTo : ∀ p, ∃ m, c'.UpTo p m c'.processed) :
    ∀ o ∈ c'.commits, ∀ x, log x → x.place = o.1 → origin o.1 ≤ x.offset → x.offset < o.2 →
      x ∈ c'.earlier ++ c'.processed := by
  intro o ho x hlog hplace hle hlt
  obtain ⟨m, hm⟩ := hupTo o.1
  have hbound := hm.commits o ho rfl
  by_cases hbegun : x.offset < c.start x.place
  · rw [hearlier]
    exact List.mem_append_left _ (h.earlier x hlog (hplace ▸ hle) hbegun)
  · rw [hplace, ← hstart] at hbegun
    have hmem := (hm.segment.mem x).2 ⟨hlog, hplace, by omega, by omega⟩
    exact List.mem_append_right _ (List.mem_filter.1 hmem).1

/-! ### Steps -/

/-- A step in which no record is processed and nothing is committed. -/
theorem Sound.quiet (h : c.Sound origin) {signalled : Bool} (phase : WorkerPhase (Session R W))
    {s : Session R W} (hstep : (c.reader.worker.step signalled c.phase).run c.session = (phase, s))
    (hprocessed : Worker.processedIn c.phase phase = [])
    (hcommitted : c.reader.worker.committedIn c.session c.phase = [])
    (hstanding : { c with phase, session := s }.Standing) : (c.advance signalled).Sound origin := by
  have hadvance : c.advance signalled = { c with phase, session := s } := by
    simp only [Course.advance, hstep, hprocessed, hcommitted, List.append_nil]
  rw [hadvance]
  exact h.move [] hstanding rfl rfl rfl (List.append_nil _).symm

/-- A step in which the first pending record of a batch is processed. -/
theorem Sound.recordDone (h : c.Sound origin) {signalled : Bool}
    {done rest : List StreamRecord} {record : StreamRecord} {s : Session R W}
    (hbatch : c.InBatch done (record :: rest))
    (hstep : (c.reader.worker.step signalled c.phase).run c.session =
      (.batch (done ++ [record]) rest, s))
    (hprocessed : Worker.processedIn c.phase (.batch (done ++ [record]) rest) = [record])
    (hcommitted : c.reader.worker.committedIn c.session c.phase = [])
    (hposition : c.reader.position s.world = c.reader.position c.session.world) :
    (c.advance signalled).Sound origin := by
  have hadvance : c.advance signalled =
      { c with
        phase := .batch (done ++ [record]) rest
        session := s
        processed := c.processed ++ [record] } := by
    simp only [Course.advance, hstep, hprocessed, hcommitted, List.append_nil]
  rw [hadvance]
  exact h.move [record] (hbatch.next rfl rfl rfl hposition) rfl rfl rfl rfl

/-- What was done is committed, or nothing is. -/
theorem committedIn_eq (w : Worker D (Session R W)) (s : Session R W)
    (done : List StreamRecord) (next : AfterCommit) :
    w.committedIn s (.committing done next) = [] ∨
      w.committedIn s (.committing done next) = Offsets.behind done := by
  simp only [Worker.committedIn]
  rcases ((w.consumer.commit (Offsets.behind done)).run s).1 with e | _
  · exact .inl rfl
  · exact .inr rfl

/-- A step in which what is done in a batch is committed, or not. -/
theorem Sound.commit (h : c.Sound origin) {signalled : Bool} {done : List StreamRecord}
    {next : AfterCommit} {s : Session R W} (hphase : c.phase = .committing done next)
    (hstep : (c.reader.worker.step signalled c.phase).run c.session = (Worker.afterCommit next, s))
    (hposition : c.reader.position s.world = c.reader.position c.session.world) :
    (c.advance signalled).Sound origin := by
  have hsession : (c.advance signalled).session = s := by
    simp only [Course.advance, hstep]
  have hphase' : (c.advance signalled).phase = Worker.afterCommit next := by
    simp only [Course.advance, hstep]
  have hprocessed : (c.advance signalled).processed = c.processed := by
    simp only [Course.advance, hstep]
    rw [hphase]
    exact List.append_nil _
  have hposition' : (c.advance signalled).position = c.position := by
    funext p
    show c.reader.position (c.advance signalled).session.world p = _
    rw [hsession, hposition]
    rfl
  have hcommits : (c.advance signalled).commits = c.commits ∨
      (c.advance signalled).commits = c.commits ++ Offsets.behind done := by
    have hcases := committedIn_eq c.reader.worker c.session done next
    rw [← hphase] at hcases
    rcases hcases with heq | heq
    · left
      show c.commits ++ _ = _
      rw [heq, List.append_nil]
    · right
      show c.commits ++ _ = _
      rw [heq]
  have hstanding := h.standing
  rw [Standing, hphase] at hstanding
  -- what comes next stands at the first pending record, or does not care
  obtain ⟨pending, hbatch, hstanding'⟩ : ∃ pending, c.InBatch done pending ∧
      ((∀ p, (c.advance signalled).UpTo p
        (Segment.cut ((c.advance signalled).position p) (inPartition p pending))
        (c.advance signalled).processed) → (c.advance signalled).Standing) := by
    rw [Standing, hphase']
    rcases next with _ | pending | _
    · exact ⟨[], hstanding, fun h => h⟩
    · exact ⟨pending, hstanding, fun h => h⟩
    · obtain ⟨pending, hbatch⟩ := hstanding
      exact ⟨pending, hbatch, fun _ => trivial⟩
  have hupTo := hbatch.upTo (c.advance signalled) rfl hprocessed hposition' ?_
  · refine ⟨hstanding' hupTo, h.earlier, fun p => ?_, ?_⟩
    · rcases hcommits with heq | heq
      · rw [heq]
        exact h.increasing p
      · rw [heq]
        exact hbatch.increasing (h.increasing p)
    · exact h.covered_of_upTo rfl rfl fun p => ⟨_, hupTo p⟩
  · intro o ho
    rcases hcommits with heq | heq
    · exact .inl (heq ▸ ho)
    · rw [heq] at ho
      exact List.mem_append.1 ho

/-- A step keeps a course sound, unless it is a rewind that fails. -/
theorem Sound.advance (h : c.Sound origin)
    (hrewinds : ∀ pending, c.phase = .rewinding pending →
      ((c.reader.worker.consumer.rewind (Offsets.start pending)).run c.session).1 = .ok ())
    (signalled : Bool) : (c.advance signalled).Sound origin := by
  rcases c with ⟨reader, phase, s, start, processed, earlier, commits⟩
  have hstanding := h.standing
  have hstepped := reader.worker.stepped signalled phase s
  rcases hstep : (reader.worker.step signalled phase).run s with ⟨phase', s'⟩
  rw [hstep] at hstepped
  -- where nothing is processed and the position stays, all stand where they stood
  have hstay {phase : WorkerPhase (Session R W)} {s' : Session R W}
      (hupTo : ∀ p, UpTo ⟨reader, phase, s, start, processed, earlier, commits⟩ p
        (reader.position s.world p) processed)
      (hposition : reader.position s'.world = reader.position s.world)
      (phase' : WorkerPhase (Session R W)) (p : TopicPartition) :
      UpTo ⟨reader, phase', s', start, processed, earlier, commits⟩ p
        (reader.position s'.world p) processed := by
    rw [hposition]
    exact (hupTo p).congr rfl rfl
  cases hstepped with
  | signalled => exact h.quiet _ hstep rfl rfl trivial
  | unanswered hpoll =>
    have hposition := reader.poll_failed _ _ _ _ _ hpoll nofun
    exact h.quiet _ hstep rfl rfl (hstay hstanding hposition .waiting)
  | pollFailed hpoll =>
    have hposition := reader.poll_failed _ _ _ _ _ hpoll nofun
    refine h.quiet _ hstep rfl rfl (hstay hstanding ?_ .pausing)
    exact hposition
  | nothing hpoll =>
    refine h.quiet _ hstep rfl rfl fun p => ?_
    have hadvanced := (hstanding p).advance (reader.poll_ok _ _ _ _ _ hpoll p)
    rw [List.append_nil] at hadvanced
    exact hadvanced.congr rfl rfl
  | delivered hne hpoll =>
    refine h.quiet _ hstep rfl rfl ⟨processed, (List.append_nil _).symm, fun p => ?_⟩
    exact ⟨_, (hstanding p).congr rfl rfl, reader.poll_ok _ _ _ _ _ hpoll p⟩
  | waiting => exact h.quiet _ hstep rfl rfl hstanding
  | abandoned => exact h.quiet _ hstep rfl rfl trivial
  | completed => exact h.quiet _ hstep rfl rfl (InBatch.congr hstanding rfl rfl rfl rfl)
  | interrupted done record rest =>
    exact h.quiet _ hstep rfl rfl ⟨record :: rest, InBatch.congr hstanding rfl rfl rfl rfl⟩
  | skipped => exact h.recordDone hstanding hstep rfl rfl rfl
  | faulty => exact h.quiet _ hstep rfl rfl (InBatch.congr hstanding rfl rfl rfl rfl)
  | dispatched done rest s hdelivery =>
    have hcalls := Registry.delivery_respects
      (Q := fun s s' : Session R W => reader.position s'.world = reader.position s.world)
      (fun _ => rfl) (fun hab hbc => hbc.trans hab) reader.handlers hdelivery
    exact h.quiet _ hstep rfl rfl ⟨InBatch.congr hstanding rfl rfl rfl rfl, hcalls⟩
  | called _ done record rest typeName calls hcall =>
    obtain ⟨hbatch, hcalls⟩ := hstanding
    obtain ⟨hrespects, hcalls⟩ := List.forall_mem_cons.1 hcalls
    exact h.quiet _ hstep rfl rfl ⟨hbatch.congr rfl rfl rfl (hrespects.run hcall), hcalls⟩
  | callFailed _ done record rest typeName calls hcall =>
    obtain ⟨hbatch, hcalls⟩ := hstanding
    have hposition := (List.forall_mem_cons.1 hcalls).1.run hcall
    exact h.quiet _ hstep rfl rfl (hbatch.congr rfl rfl rfl hposition)
  | processed => exact h.recordDone hstanding.1 hstep rfl rfl rfl
  | uncommitted => exact h.commit rfl hstep rfl
  | committed _ _ _ hcommit =>
    have hposition := reader.commit _ _ _ _ hcommit
    exact h.commit rfl hstep hposition
  | commitFailed _ _ _ hcommit => exact h.commit rfl hstep (reader.commit _ _ _ _ hcommit)
  | @rewound _ pending answer _ s' hrewind =>
    have hanswer : answer = .ok () := by
      have hok := hrewinds pending rfl
      rw [hrewind] at hok
      exact hok
    subst hanswer
    -- every pending partition is read again from its first record, the others go on
    refine h.quiet _ hstep rfl rfl fun p => ?_
    have hmoved : reader.position s'.world p =
        Segment.cut (reader.position s.world p) (inPartition p pending) := by
      rw [reader.rewind_ok _ _ _ hrewind, Offsets.at?_start]
      rfl
    show UpTo _ p (reader.position s'.world p) processed
    rw [hmoved]
    exact (hstanding p).congr rfl rfl
  | pausing => exact h.quiet _ hstep rfl rfl hstanding
  | awoken => exact h.quiet _ hstep rfl rfl (hstay hstanding rfl .polling)
  | closing => exact h.quiet _ hstep rfl rfl trivial
  | closed => exact h.quiet _ hstep rfl rfl trivial

/-! ### Courses that readers come to -/

theorem Sound.wake (h : c.Sound origin) :
    { c with phase := Worker.wake c.phase }.Sound origin := by
  rcases c with ⟨reader, phase, s, start, processed, earlier, commits⟩
  have hstanding := h.standing
  have hmove (phase' : WorkerPhase (Session R W))
      (h' : Standing ⟨reader, phase', s, start, processed, earlier, commits⟩) :
      Sound origin ⟨reader, phase', s, start, processed, earlier, commits⟩ :=
    h.move [] h' rfl rfl rfl (List.append_nil _).symm
  rcases phase with _ | _ | ⟨done, pending⟩ | ⟨done, record, rest, typeName, calls⟩ |
    ⟨done, next⟩ | pending | _ | _ | _
  case pausing =>
    exact hmove .polling fun p => (hstanding p).congr rfl rfl
  all_goals exact h

theorem Sound.others (h : c.Sound origin) {s : Session R W}
    (hposition : c.reader.position s.world = c.reader.position c.session.world) :
    { c with session := s }.Sound origin := by
  rcases c with ⟨reader, phase, s₀, start, processed, earlier, commits⟩
  have hstanding := h.standing
  refine h.move [] ?_ rfl rfl rfl (List.append_nil _).symm
  have hsame {done pending : List StreamRecord}
      (hbatch : InBatch ⟨reader, phase, s₀, start, processed, earlier, commits⟩ done pending) :
      InBatch ⟨reader, phase, s, start, processed, earlier, commits⟩ done pending :=
    hbatch.congr rfl rfl rfl hposition
  have hupTo {m : Int → TopicPartition → Int}
      (h' : ∀ p, UpTo ⟨reader, phase, s₀, start, processed, earlier, commits⟩ p
        (m (reader.position s₀.world p) p) processed) (p : TopicPartition) :
      UpTo ⟨reader, phase, s, start, processed, earlier, commits⟩ p
        (m (reader.position s.world p) p) processed := by
    rw [show reader.position s.world = reader.position s₀.world from hposition]
    exact (h' p).congr rfl rfl
  rcases phase with _ | _ | ⟨done, pending⟩ | ⟨done, record, rest, typeName, calls⟩ |
    ⟨done, _ | pending | _⟩ | pending | _ | _ | _
  · exact hupTo (m := fun position _ => position) hstanding
  · exact hupTo (m := fun position _ => position) hstanding
  · exact hsame hstanding
  · exact ⟨hsame hstanding.1, hstanding.2⟩
  · exact hsame hstanding
  · exact hsame hstanding
  · obtain ⟨pending, hbatch⟩ : ∃ pending, InBatch _ done pending := hstanding
    exact ⟨pending, hsame hbatch⟩
  · exact hupTo (m := fun position p => Segment.cut position (inPartition p pending)) hstanding
  · exact hupTo (m := fun position _ => position) hstanding
  · trivial
  · trivial

/-- The last offset that was committed in a partition, or none was. -/
theorem committedAt_cases (origin : TopicPartition → Int) (commits : Offsets)
    (p : TopicPartition) :
    ((commits.filter fun o => o.1 = p) = [] ∧ committedAt origin commits p = origin p) ∨
      ∃ os o, (commits.filter fun o => o.1 = p) = os ++ [o] ∧
        committedAt origin commits p = o.2 := by
  rcases hlast : (commits.filter fun o => o.1 = p).getLast? with _ | o
  · refine .inl ⟨List.getLast?_eq_none_iff.1 hlast, ?_⟩
    rw [committedAt, hlast]
    rfl
  · obtain ⟨os, heq⟩ := List.getLast?_eq_some_iff.1 hlast
    refine .inr ⟨os, o, heq, ?_⟩
    rw [committedAt, hlast]
    rfl

/-- Nothing is committed behind the last committed offset. -/
theorem Sound.le_committedAt (h : c.Sound origin) {o : TopicPartition × Int}
    (ho : o ∈ c.commits) : o.2 ≤ committedAt origin c.commits o.1 := by
  have hmem : o ∈ c.commits.filter fun o' => o'.1 = o.1 :=
    List.mem_filter.2 ⟨ho, decide_eq_true rfl⟩
  have hincreasing := h.increasing o.1
  rcases committedAt_cases origin c.commits o.1 with ⟨hnone, -⟩ | ⟨os, last, hlast, heq⟩
  · rw [hnone] at hmem
    cases hmem
  · rw [heq]
    rw [hlast] at hmem hincreasing
    rcases List.mem_append.1 hmem with hmem | hmem
    · exact Int.le_of_lt
        ((List.pairwise_append.1 hincreasing).2.2 o hmem last List.mem_cons_self)
    · exact Int.le_of_eq (congrArg Prod.snd (List.mem_singleton.1 hmem))

/-- Another reader goes on where the committed offsets are. -/
theorem Sound.restart (h : c.Sound origin) {reader : Reader D R W log} {s : Session R W}
    (hposition : ∀ p, reader.position s.world p = committedAt origin c.commits p) :
    (starting origin reader s (c.earlier ++ c.processed) c.commits).Sound origin where
  standing := by
    intro p
    show UpTo _ p (reader.position s.world p) []
    rw [hposition]
    refine ⟨.nil log p _, fun o ho hp => ?_⟩
    rw [← hp]
    exact h.le_committedAt ho
  earlier := by
    intro x hlog hle hlt
    -- what lies below the start was covered by the last commit, if there was one
    rcases committedAt_cases origin c.commits x.place with ⟨-, heq⟩ | ⟨os, last, hlast, heq⟩
    · have hlt' : x.offset < committedAt origin c.commits x.place := hlt
      omega
    · have hmem : last ∈ c.commits.filter fun o => o.1 = x.place := by
        rw [hlast]
        exact List.mem_append_right _ List.mem_cons_self
      obtain ⟨hmem, hplace⟩ := List.mem_filter.1 hmem
      have hplace' := (of_decide_eq_true hplace).symm
      have hlt' : x.offset < committedAt origin c.commits x.place := hlt
      rw [heq] at hlt'
      exact h.covered last hmem x hlog hplace' (hplace' ▸ hle) hlt'
  increasing := h.increasing
  covered := by
    intro o ho x hlog hplace hle hlt
    exact List.mem_append_left _ (h.covered o ho x hlog hplace hle hlt)

theorem sound_starting {reader : Reader D R W log} {s : Session R W}
    (hposition : ∀ p, reader.position s.world p = origin p) :
    (starting origin reader s [] []).Sound origin where
  standing := by
    intro p
    show UpTo _ p (reader.position s.world p) []
    rw [hposition]
    exact ⟨.nil log p _, nofun⟩
  earlier := by
    intro x _ hle hlt
    have hlt' : x.offset < origin x.place := hlt
    omega
  increasing _ := .nil
  covered := nofun

/-- A course of a reader that can always be rewound is sound. -/
theorem Reachable.sound (h : c.Reachable origin Reader.Rewinds) : c.Sound origin := by
  suffices c.reader.Rewinds ∧ c.Sound origin from this.2
  induction h with
  | start reader s hrewinds hposition => exact ⟨hrewinds, sound_starting hposition⟩
  | step signalled _ ih => exact ⟨ih.1, ih.2.advance (fun _ _ => ih.1 _ _) signalled⟩
  | wake _ ih => exact ⟨ih.1, ih.2.wake⟩
  | others s _ hposition ih => exact ⟨ih.1, ih.2.others hposition⟩
  | restart reader s _ hrewinds hposition ih => exact ⟨hrewinds, ih.2.restart hposition⟩

/-! ### Delivery -/

/-- **Every record is delivered in order.**  Take readers that can always be
rewound, one after another, each starting at the committed offsets.  Records may
fail, as may polls and commits, and the signal may come at any step.

* Whenever a reader is about to poll, it has processed in every partition exactly
  the records from its start up to its position, once each and in order.
* The offsets that are committed in a partition increase.
* Every record from the origin up to a committed offset was processed, by this
  reader or by one before it. -/
theorem delivered_in_order (origin : TopicPartition → Int) (c : Course D R W log)
    (h : c.Reachable origin Reader.Rewinds) :
    (c.phase = .polling → ∀ p,
      Segment log p (c.start p) (c.position p) (inPartition p c.processed)) ∧
    (∀ p, (c.commits.filter fun o => o.1 = p).Pairwise fun a b => a.2 < b.2) ∧
    ∀ o ∈ c.commits, ∀ x, log x → x.place = o.1 → origin o.1 ≤ x.offset → x.offset < o.2 →
      x ∈ c.earlier ++ c.processed := by
  have hsound := h.sound
  refine ⟨fun hphase p => ?_, hsound.increasing, hsound.covered⟩
  have hstanding := hsound.standing
  rw [Standing, hphase] at hstanding
  exact (hstanding p).segment

/-- Records in two partitions, all of which are deleted but one that cannot be read. -/
def brokenLog : List StreamRecord :=
  [⟨"events", 0, 0, none⟩, ⟨"events", 1, 0, none⟩, ⟨"events", 0, 1, some ByteArray.empty⟩,
   ⟨"events", 1, 1, none⟩]

/-- A reader of those records. -/
def brokenReader : Reader (Driver.beside Bench.domain) Driver.ReadModel Positions (· ∈ brokenLog) :=
  .inMemory (by decide) (Driver.registry Driver.newYear) .standard Driver.groupName 0
    (Driver.streamHandlers_respect Driver.newYear fun _ => rfl)

/-- A session in which the next record of every partition is its first one. -/
def unreadSession : Session Driver.ReadModel Positions :=
  Session.start ⟨some Table.empty, some Table.empty, some Table.empty⟩ fun _ => 0

/-- The reader has polled, processed two records, failed at the third, committed,
gone back, and is about to poll again after a pause. -/
def failedCourse : Course (Driver.beside Bench.domain) Driver.ReadModel Positions (· ∈ brokenLog) :=
  let c := [false, false, false, false, false, false].foldl advance
    (starting (fun _ => 0) brokenReader unreadSession [] [])
  { c with phase := Worker.wake c.phase }

/-- What was processed of both partitions goes up to the record that cannot be read,
and to the one behind it, which is read again. -/
theorem delivered_before_failure :
    failedCourse.processed = brokenLog.take 2 ∧
      (∀ p, Segment (· ∈ brokenLog) p 0 (failedCourse.position p)
        (inPartition p failedCourse.processed)) ∧
      ∀ x ∈ brokenLog, x.place = ⟨"events", 0⟩ → 0 ≤ x.offset → x.offset < 1 →
        x ∈ failedCourse.processed := by
  have hstart : Reachable (fun _ => 0) Reader.Rewinds
      (starting (fun _ => 0) brokenReader unreadSession [] []) :=
    .start _ _ (fun _ _ => rfl) fun _ => rfl
  have hreachable : failedCourse.Reachable (fun _ => 0) Reader.Rewinds :=
    .wake (List.foldlRecOn _ _ hstart fun _ h signalled _ => .step signalled h)
  obtain ⟨hpolling, -, hcovered⟩ := delivered_in_order (fun _ => 0) failedCourse hreachable
  refine ⟨rfl, hpolling rfl, ?_⟩
  exact hcovered (⟨"events", 0⟩, 1) List.mem_cons_self

end Course

end Chronicle
