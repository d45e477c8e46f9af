/-
Chronicle/Proofs/Stream/Loss.lean

What becomes of records when rewinds may fail.

A worker whose rewind fails goes on polling behind the records that were pending,
and nothing brings these back before the next restart.  A later batch of the
partition may be committed, which puts the committed offset behind them for good.

`Course.Losing` follows a course together with the records that were pending in
rewinds that failed.  A course with losses is compared with the one in which all
records that were passed had been processed: this one is sound
(`Course.Passing`).

Main results: `processed_or_lost`, which says that nothing else is ever left out,
and `lost_behind_commit`, a course in which a record is.
-/
import Chronicle.Proofs.Stream.Delivery
import Chronicle.Proofs.Stream.Shutdown

namespace Chronicle

variable {D : Domain} {R W : Type} {log : StreamRecord → Prop}

/-- The records that are pending in a rewind that fails.  What the worker calls is seen in
`Logged.lostIn_eq_iff`. -/
def Worker.lostIn (w : Worker D (Session R W)) (s : Session R W) :
    WorkerPhase (Session R W) → List StreamRecord
  | .rewinding pending =>
    match ((w.consumer.rewind (Offsets.start pending)).run s).1 with
    | .ok () => []
    | .error _ => pending
  | _ => []

/-- **Losses are calls.**  Records are lost in a step if the worker calls its consumer in it
to go back to the first of them, and the consumer refuses. -/
theorem Logged.lostIn_eq_iff (w : Logged D R W) {phase : WorkerPhase (Session R W)}
    (h : w.Spares phase) (signalled : Bool) (s : Session R W) {positions : Offsets}
    (hpositions : positions ≠ []) :
    Offsets.start (w.worker.lostIn s phase) = positions ↔
      w.calls ((w.worker.step signalled phase).run s).2.world =
          w.calls s.world ++ [.batch (.rewind positions)] ∧
        ∃ e, ((w.worker.consumer.rewind positions).run s).1 = .error e := by
  rw [w.calls_step h signalled s, List.append_cancel_left_eq]
  constructor
  · intro hlost
    cases phase with
    | rewinding pending =>
      rcases hanswer : ((w.worker.consumer.rewind (Offsets.start pending)).run s).1 with e | _
      · simp only [Worker.lostIn, hanswer] at hlost
        subst hlost
        exact ⟨rfl, e, hanswer⟩
      · simp only [Worker.lostIn, hanswer] at hlost
        exact absurd hlost.symm hpositions
    | _ => exact absurd hlost.symm hpositions
  · rintro ⟨hcalls, e, hanswer⟩
    cases phase with
    | rewinding pending =>
      cases hcalls
      simp only [Worker.lostIn, hanswer]
    | polling =>
      cases signalled with
      | _ => cases hcalls
    | committing done next =>
      rw [Logged.callsIn, BatchRun.commitCalls] at hcalls
      split at hcalls
      · cases hcalls
      · cases hcalls
    | _ => cases hcalls

namespace Course

variable {origin : TopicPartition → Int} {P : Reader D R W log → Prop} {c : Course D R W log}
  {lost passed earlier : List StreamRecord}

/-- Courses with the records that were lost on the way, oldest first. -/
inductive Losing (origin : TopicPartition → Int) (P : Reader D R W log → Prop) :
    Course D R W log → List StreamRecord → Prop
  | start (reader : Reader D R W log) (s : Session R W) : P reader →
      (∀ p, reader.position s.world p = origin p) →
      Losing origin P (starting origin reader s [] []) []
  | step {c : Course D R W log} {lost : List StreamRecord} (signalled : Bool) :
      Losing origin P c lost →
      Losing origin P (c.advance signalled) (lost ++ c.reader.worker.lostIn c.session c.phase)
  | wake {c : Course D R W log} {lost : List StreamRecord} :
      Losing origin P c lost → Losing origin P { c with phase := Worker.wake c.phase } lost
  | others {c : Course D R W log} {lost : List StreamRecord} (s : Session R W) :
      Losing origin P c lost → c.reader.position s.world = c.reader.position c.session.world →
      Losing origin P { c with session := s } lost
  | restart {c : Course D R W log} {lost : List StreamRecord} (reader : Reader D R W log)
      (s : Session R W) : Losing origin P c lost → P reader →
      (∀ p, reader.position s.world p = committedAt origin c.commits p) →
      Losing origin P (starting origin reader s (c.earlier ++ c.processed) c.commits) lost

/-- Whatever can be reached, some records were lost on the way, or none. -/
theorem reachable_iff_losing : c.Reachable origin P ↔ ∃ lost, c.Losing origin P lost := by
  constructor
  · intro h
    induction h with
    | start reader s hreader hposition => exact ⟨_, .start reader s hreader hposition⟩
    | step signalled _ ih =>
      obtain ⟨lost, ih⟩ := ih
      exact ⟨_, .step signalled ih⟩
    | wake _ ih =>
      obtain ⟨lost, ih⟩ := ih
      exact ⟨lost, .wake ih⟩
    | others s _ hposition ih =>
      obtain ⟨lost, ih⟩ := ih
      exact ⟨lost, .others s ih hposition⟩
    | restart reader s _ hreader hposition ih =>
      obtain ⟨lost, ih⟩ := ih
      exact ⟨lost, .restart reader s ih hreader hposition⟩
  · rintro ⟨lost, h⟩
    induction h with
    | start reader s hreader hposition => exact .start reader s hreader hposition
    | step signalled _ ih => exact .step signalled ih
    | wake _ ih => exact .wake ih
    | others s _ hposition ih => exact .others s ih hposition
    | restart reader s _ hreader hposition ih => exact .restart reader s ih hreader hposition

/-! ### Rewinds -/

/-- The pending records of a rewind go up to the position. -/
def PendingToPosition (c : Course D R W log) : Prop :=
  ∀ pending, c.phase = .rewinding pending → ∀ p,
    Segment log p (Segment.cut (c.position p) (inPartition p pending)) (c.position p)
      (inPartition p pending)

/-- A rewind comes after a commit, which leaves the position. -/
theorem committing_of_rewinding {signalled : Bool} {pending : List StreamRecord}
    (h : (c.advance signalled).phase = .rewinding pending) :
    (∃ done, c.phase = .committing done (.rewind pending)) ∧
      (c.advance signalled).position = c.position := by
  rcases c with ⟨reader, phase, s, start, processed, earlier, commits⟩
  have hstepped := reader.worker.stepped signalled phase s
  have hphase : ((reader.worker.step signalled phase).run s).1 = .rewinding pending := h
  show _ ∧ (fun p => reader.position ((reader.worker.step signalled phase).run s).2.world p) =
    fun p => reader.position s.world p
  rcases hstep : (reader.worker.step signalled phase).run s with ⟨phase', s'⟩
  rw [hstep] at hstepped hphase
  -- only what follows a commit can be a rewind
  have hnext {next : AfterCommit}
      (h : (Worker.afterCommit next : WorkerPhase (Session R W)) = .rewinding pending) :
      next = .rewind pending := by
    rcases next with _ | pending' | _
    · cases h
    · cases h
      rfl
    · cases h
  cases hstepped with
  | uncommitted => exact ⟨⟨_, congrArg _ (hnext hphase)⟩, rfl⟩
  | committed _ _ _ hcommit =>
    have hposition := reader.commit _ _ _ _ hcommit
    exact ⟨⟨_, congrArg _ (hnext hphase)⟩, hposition⟩
  | commitFailed _ _ _ hcommit =>
    exact ⟨⟨_, congrArg _ (hnext hphase)⟩, reader.commit _ _ _ _ hcommit⟩
  | _ => cases hphase

/-- What is pending in a batch goes up to the position, and still does when the
consumer is to be moved back. -/
theorem Sound.pendingToPosition (h : c.Sound origin) (signalled : Bool) :
    (c.advance signalled).PendingToPosition := by
  intro pending hphase p
  obtain ⟨⟨done, hcommitting⟩, hposition⟩ := committing_of_rewinding hphase
  have hstanding := h.standing
  rw [Standing, hcommitting] at hstanding
  obtain ⟨before, -, hsegments⟩ : c.InBatch done pending := hstanding
  obtain ⟨base, -, hsegment⟩ := hsegments p
  rw [inPartition_append] at hsegment
  rw [hposition]
  exact hsegment.split.2

/-! ### What was passed -/

/-- A course and the records that its reader, and the readers before it, have
passed: those that were processed, and those that were lost.  It would be sound if
all of them had been processed. -/
structure Passing (origin : TopicPartition → Int) (c : Course D R W log)
    (lost passed earlier : List StreamRecord) : Prop where
  sound : { c with processed := passed, earlier }.Sound origin
  pending : c.PendingToPosition
  passed : ∀ x ∈ passed, x ∈ c.processed ∨ x ∈ lost
  earlier : ∀ x ∈ earlier, x ∈ c.earlier ∨ x ∈ lost

/-- Records that a rewind fails to bring back are passed. -/
theorem Passing.lose (h : c.Passing origin lost passed earlier) {pending : List StreamRecord}
    (hphase : c.phase = .rewinding pending) {e : Error}
    (hrewind : ((c.reader.worker.consumer.rewind (Offsets.start pending)).run c.session).1 =
      .error e) (signalled : Bool) :
    (c.advance signalled).Passing origin (lost ++ pending) (passed ++ pending) earlier := by
  rcases c with ⟨reader, phase, s, start, processed, earlier', commits⟩
  obtain rfl : phase = .rewinding pending := hphase
  rcases hrun : (reader.worker.consumer.rewind (Offsets.start pending)).run s with ⟨answer, s'⟩
  obtain rfl : answer = .error e := by
    rw [hrun] at hrewind
    exact hrewind
  have hposition := reader.rewind_failed _ _ _ _ hrun
  have hstep : (reader.worker.step signalled (.rewinding pending)).run s = (.pausing,
      { s' with metrics := s'.metrics.recordBackoff reader.worker.group }) := by
    have hrun' : reader.worker.consumer.rewind (Offsets.start pending) s = (.error e, s') := hrun
    simp only [Worker.step, StateT.run, bind_apply, hrun']
    rfl
  have hadvance : Course.advance ⟨reader, .rewinding pending, s, start, processed, earlier',
      commits⟩ signalled = ⟨reader, .pausing,
        { s' with metrics := s'.metrics.recordBackoff reader.worker.group }, start, processed,
        earlier', commits⟩ := by
    simp only [Course.advance, hstep, Worker.processedIn, Worker.committedIn, List.append_nil]
  rw [hadvance]
  refine ⟨h.sound.move pending (fun p => ?_) rfl rfl rfl rfl, ?_, fun x hx => ?_,
    fun x hx => ?_⟩
  · -- the reader stays where the last pending record was
    show UpTo _ p (reader.position s'.world p) (passed ++ pending)
    rw [hposition]
    exact ((h.sound.standing p).advance (h.pending pending rfl p)).congr rfl rfl
  · rintro _ ⟨⟩
  · rcases List.mem_append.1 hx with hx | hx
    · exact (h.passed x hx).imp_right fun hlost => List.mem_append_left _ hlost
    · exact .inr (List.mem_append_right _ hx)
  · exact (h.earlier x hx).imp_right fun hlost => List.mem_append_left _ hlost

/-- In all other steps just those records are passed that are processed. -/
theorem Passing.process (h : c.Passing origin lost passed earlier)
    (hrewinds : ∀ pending, c.phase = .rewinding pending →
      ((c.reader.worker.consumer.rewind (Offsets.start pending)).run c.session).1 = .ok ())
    (signalled : Bool) :
    (c.advance signalled).Passing origin lost
      (passed ++ Worker.processedIn c.phase (c.advance signalled).phase) earlier where
  sound := h.sound.advance hrewinds signalled
  pending := h.sound.pendingToPosition signalled
  passed := by
    intro x hx
    rcases List.mem_append.1 hx with hx | hx
    · exact (h.passed x hx).imp_left fun hx => List.mem_append_left _ hx
    · exact .inl (List.mem_append_right _ hx)
  earlier := h.earlier

/-- A step, which may be a rewind that fails. -/
theorem Passing.advance (h : c.Passing origin lost passed earlier) (signalled : Bool) :
    ∃ passed', (c.advance signalled).Passing origin
      (lost ++ c.reader.worker.lostIn c.session c.phase) passed' earlier := by
  by_cases hfails : ∃ pending e, c.phase = .rewinding pending ∧
      ((c.reader.worker.consumer.rewind (Offsets.start pending)).run c.session).1 = .error e
  · obtain ⟨pending, e, hphase, hrewind⟩ := hfails
    have hlost : c.reader.worker.lostIn c.session c.phase = pending := by
      simp only [Worker.lostIn, hphase, hrewind]
    rw [hlost]
    exact ⟨_, h.lose hphase hrewind signalled⟩
  · have hrewinds : ∀ pending, c.phase = .rewinding pending →
        ((c.reader.worker.consumer.rewind (Offsets.start pending)).run c.session).1 = .ok () := by
      intro pending hphase
      rcases hanswer : ((c.reader.worker.consumer.rewind (Offsets.start pending)).run
          c.session).1 with e | _
      · exact absurd ⟨pending, e, hphase, hanswer⟩ hfails
      · rfl
    have hlost : c.reader.worker.lostIn c.session c.phase = [] := by
      unfold Worker.lostIn
      split
      · rename_i pending hphase
        rw [hrewinds pending hphase]
      · rfl
    rw [hlost, List.append_nil]
    exact ⟨_, h.process hrewinds signalled⟩

theorem Losing.passing (h : c.Losing origin P lost) :
    ∃ passed earlier, c.Passing origin lost passed earlier := by
  induction h with
  | start reader s _ hposition =>
    exact ⟨[], [], sound_starting hposition, nofun, nofun, nofun⟩
  | step signalled _ ih =>
    obtain ⟨passed, earlier, ih⟩ := ih
    obtain ⟨passed', h⟩ := ih.advance signalled
    exact ⟨passed', earlier, h⟩
  | @wake c _ _ ih =>
    obtain ⟨passed, earlier, ih⟩ := ih
    refine ⟨passed, earlier, ih.sound.wake, fun pending hphase => ?_, ih.passed, ih.earlier⟩
    refine ih.pending pending ?_
    -- nobody is woken in a rewind
    rcases hc : c.phase with _ | _ | _ | _ | _ | _ | _ | _ | _
    all_goals
      rw [hc] at hphase
      cases hphase
    rfl
  | @others c _ s _ hposition ih =>
    obtain ⟨passed, earlier, ih⟩ := ih
    refine ⟨passed, earlier, ih.sound.others hposition, fun pending hphase p => ?_, ih.passed,
      ih.earlier⟩
    show Segment log p (Segment.cut (c.reader.position s.world p) _) (c.reader.position s.world p) _
    rw [hposition]
    exact ih.pending pending hphase p
  | restart reader s _ _ hposition ih =>
    obtain ⟨passed, earlier, ih⟩ := ih
    refine ⟨[], earlier ++ passed, ih.sound.restart hposition, nofun, nofun, fun x hx => ?_⟩
    rcases List.mem_append.1 hx with hx | hx
    · exact (ih.earlier x hx).imp_left fun hx => List.mem_append_left _ hx
    · exact (ih.passed x hx).imp_left fun hx => List.mem_append_right _ hx

/-! ### Losses -/

/-- A record of the log that a commit has declared done. -/
def Committed (origin : TopicPartition → Int) (c : Course D R W log) (x : StreamRecord) : Prop :=
  log x ∧ origin x.place ≤ x.offset ∧ ∃ o ∈ c.commits, o.1 = x.place ∧ x.offset < o.2

/-- **Nothing is left out but by a failed rewind.**  Take any readers, one after
another, each starting at the committed offsets.  Records may fail, as may polls,
commits and rewinds, and the signal may come at any step.

* The offsets that are committed in a partition increase.
* Every record that is committed was processed, by this reader or by one before
  it, or was pending in a rewind that failed.
* So all that is committed was processed exactly if the lost records were, as far
  as they are committed. -/
theorem processed_or_lost (origin : TopicPartition → Int) (P : Reader D R W log → Prop)
    (c : Course D R W log) (lost : List StreamRecord) (h : c.Losing origin P lost) :
    (∀ p, (c.commits.filter fun o => o.1 = p).Pairwise fun a b => a.2 < b.2) ∧
    (∀ x, c.Committed origin x → x ∈ c.earlier ++ c.processed ∨ x ∈ lost) ∧
    ((∀ x, c.Committed origin x → x ∈ c.earlier ++ c.processed) ↔
      ∀ x ∈ lost, c.Committed origin x → x ∈ c.earlier ++ c.processed) := by
  obtain ⟨passed, earlier, hpassing⟩ := h.passing
  have hcovered (x : StreamRecord) (hx : c.Committed origin x) :
      x ∈ c.earlier ++ c.processed ∨ x ∈ lost := by
    obtain ⟨hlog, hle, o, ho, hplace, hlt⟩ := hx
    rcases List.mem_append.1
      (hpassing.sound.covered o ho x hlog hplace.symm (hplace ▸ hle) hlt) with hx | hx
    · exact (hpassing.earlier x hx).imp_left fun hx => List.mem_append_left _ hx
    · exact (hpassing.passed x hx).imp_left fun hx => List.mem_append_right _ hx
  refine ⟨hpassing.sound.increasing, hcovered, fun hall x _ => hall x, fun hlost x hx => ?_⟩
  rcases hcovered x hx with hdone | hlost'
  · exact hdone
  · exact hlost x hlost' hx

/-- Four records of a partition, all of which are deleted but the second, which
cannot be read. -/
def stuckLog : List StreamRecord :=
  [⟨"events", 0, 0, none⟩, ⟨"events", 0, 1, some ByteArray.empty⟩, ⟨"events", 0, 2, none⟩,
   ⟨"events", 0, 3, none⟩]

/-- A reader of those records, two at a time, that can never be rewound. -/
def stuckReader : Reader (Driver.beside Bench.domain) Driver.ReadModel Positions (· ∈ stuckLog) :=
  let base : Reader (Driver.beside Bench.domain) Driver.ReadModel Positions (· ∈ stuckLog) :=
    .inMemory (by decide) (Driver.registry Driver.newYear)
      { StreamConfig.standard with maxPollRecords := 2 } Driver.groupName 0
      (Driver.streamHandlers_keep_world Driver.newYear)
  { base with
    worker := { base.worker with
      consumer := { base.worker.consumer with rewind := fun _ => pure (.error (.broker "stuck")) } }
    rewind_ok := by
      intro offsets s s' hrewind
      cases hrewind
    rewind_failed := by
      intro offsets e s s' hrewind
      cases hrewind
      rfl }

/-- The reader has committed the first record and failed at the second, has not been
moved back to it, and after a pause has gone on to the other two. -/
def stuckCourse : Course (Driver.beside Bench.domain) Driver.ReadModel Positions (· ∈ stuckLog) :=
  let c := [false, false, false, false, false].foldl advance
    (starting (fun _ => 0) stuckReader unreadSession [] [])
  [false, false, false, false, false].foldl advance { c with phase := Worker.wake c.phase }

/-- The second record was pending in the rewind that failed. -/
theorem losing_stuckCourse :
    stuckCourse.Losing (fun _ => 0) (fun _ => True) [⟨"events", 0, 1, some ByteArray.empty⟩] := by
  have hstart : Losing (fun _ => 0) (fun _ => True)
      (starting (fun _ => 0) stuckReader unreadSession [] []) [] :=
    .start _ _ trivial fun _ => rfl
  -- five steps up to the pause, and five more from there
  have hpause := ((((hstart.step false).step false).step false).step false).step false
  exact ((((hpause.wake.step false).step false).step false).step false).step false

/-- All committed records but the second one were processed. -/
theorem processed_but_second :
    stuckCourse.Losing (fun _ => 0) (fun _ => True) [⟨"events", 0, 1, some ByteArray.empty⟩] ∧
      ∀ x, stuckCourse.Committed (fun _ => 0) x →
        x ∈ stuckCourse.earlier ++ stuckCourse.processed ∨
          x = ⟨"events", 0, 1, some ByteArray.empty⟩ := by
  obtain ⟨-, hcovered, -⟩ := processed_or_lost _ _ stuckCourse _ losing_stuckCourse
  exact ⟨losing_stuckCourse, fun x hx => (hcovered x hx).imp_right List.mem_singleton.1⟩

/-- A record that was pending in a failed rewind is committed, and nobody has
processed it. -/
theorem lost_behind_commit :
    stuckCourse.Reachable (fun _ => 0) (fun _ => True) ∧
      ¬∀ x, stuckCourse.Committed (fun _ => 0) x →
        x ∈ stuckCourse.earlier ++ stuckCourse.processed := by
  refine ⟨reachable_iff_losing.2 ⟨_, losing_stuckCourse⟩, fun hall => ?_⟩
  have hcommitted : stuckCourse.Committed (fun _ => 0) ⟨"events", 0, 1, some ByteArray.empty⟩ := by
    refine ⟨List.mem_cons_of_mem _ List.mem_cons_self, by decide, (⟨"events", 0⟩, 4), ?_, rfl, ?_⟩
    · exact List.mem_cons_of_mem _ List.mem_cons_self
    · decide
  -- of the offsets that were processed, none is 1
  have hoffsets : (stuckCourse.earlier ++ stuckCourse.processed).map StreamRecord.offset =
      [0, 2, 3] := rfl
  have hmem := List.mem_map_of_mem (f := StreamRecord.offset) (hall _ hcommitted)
  rw [hoffsets] at hmem
  exact absurd hmem (by decide)

end Course

end Chronicle
