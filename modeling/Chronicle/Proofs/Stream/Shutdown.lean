/-
Chronicle/Proofs/Stream/Shutdown.lean

How a worker ends when the shutdown is signalled.

`Logged` is a worker whose calls of its consumer are listed in its world, all of them from
the first poll to the close.  A step makes the calls of its phase (`Logged.calls_step`), and
what counts as committed is what was called so (`Logged.committedIn_eq_iff`).  A `Shift` is
how far its run has come, with what it has done since its last poll.  The invariant
`Shift.Standing` says for every phase which calls were made since then.  Once the signal is
set no step polls or takes up a record, and every step brings the end nearer
(`Worker.Stepped.untilClosed_lt`).

Main result: whenever the signal comes, at most the record in progress is finished, what
was done is committed in one call, and the consumer is closed once (`shutdown_closes`).
-/
import Chronicle.Proofs.Stream.Batch

namespace Chronicle

variable {D : Domain} {R W : Type}

namespace Worker

/-! ### The way to the end -/

/-- How many steps a signalled worker needs at most until it is closed. -/
def untilClosed : WorkerPhase (Session R W) → Nat
  | .closed => 0
  | .closing => 1
  | .polling | .waiting => 2
  | .pausing => 3
  | .rewinding _ => 4
  | .committing _ _ => 5
  | .batch _ _ => 6
  | .handling _ _ _ _ calls => calls.length + 7

theorem untilClosed_eq_zero {phase : WorkerPhase (Session R W)} (h : untilClosed phase = 0) :
    phase = .closed := by
  cases phase with
  | closed => rfl
  | _ => cases h

theorem untilClosed_wake (phase : WorkerPhase (Session R W)) :
    untilClosed (wake phase) ≤ untilClosed phase := by
  cases phase with
  | pausing => exact Nat.le_succ 2
  | _ => exact Nat.le_refl _

/-- A step of a signalled worker brings its end nearer. -/
theorem Stepped.untilClosed_lt {w : Worker D (Session R W)}
    {phase phase' : WorkerPhase (Session R W)} {s s' : Session R W}
    (h : w.Stepped true phase s phase' s') (hopen : phase ≠ .closed) :
    untilClosed phase' < untilClosed phase := by
  have hafter (next : AfterCommit) : untilClosed (afterCommit (R := R) (W := W) next) < 5 := by
    cases next with
    | poll => exact Nat.lt_of_sub_ne_zero (Nat.succ_ne_zero 2)
    | rewind => exact Nat.lt_succ_self 4
    | close => exact Nat.lt_of_sub_ne_zero (Nat.succ_ne_zero 3)
  cases h with
  | signalled => exact Nat.lt_succ_self 1
  | abandoned => exact Nat.lt_succ_self 1
  | completed => exact Nat.lt_succ_self 5
  | interrupted => exact Nat.lt_succ_self 5
  | called => exact Nat.lt_succ_self _
  | callFailed => simp only [untilClosed]; omega
  | processed => exact Nat.lt_succ_self 6
  | uncommitted => exact hafter _
  | committed => exact hafter _
  | commitFailed => exact hafter _
  | rewound => exact Nat.lt_succ_self 3
  | awoken => exact Nat.lt_succ_self 2
  | closing => exact Nat.lt_succ_self 0
  | closed => exact absurd rfl hopen

theorem Stepped.untilClosed_le {w : Worker D (Session R W)}
    {phase phase' : WorkerPhase (Session R W)} {s s' : Session R W}
    (h : w.Stepped true phase s phase' s') : untilClosed phase' ≤ untilClosed phase - 1 := by
  by_cases hclosed : phase = .closed
  · subst hclosed
    cases h
    exact Nat.zero_le _
  · have := h.untilClosed_lt hclosed
    omega

end Worker

/-! ### Logged workers -/

/-- A call of a consumer. -/
inductive ConsumerCall where
  | poll
  | batch (call : BrokerCall)
  | close
  deriving DecidableEq, Repr

/-- A worker whose calls of its consumer are listed in its world, oldest first.  The
broker may answer as it likes, and do anything else.  Handlers cannot call it. -/
structure Logged (D : Domain) (R W : Type) where
  worker : Worker D (Session R W)
  calls : W → List ConsumerCall
  poll : ∀ timeout limit answer (s s' : Session R W),
    (worker.consumer.poll timeout limit).run s = (answer, s') →
      calls s'.world = calls s.world ++ [.poll]
  commit : ∀ offsets answer (s s' : Session R W),
    (worker.consumer.commit offsets).run s = (answer, s') →
      calls s'.world = calls s.world ++ [.batch (.commit offsets)]
  rewind : ∀ positions answer (s s' : Session R W),
    (worker.consumer.rewind positions).run s = (answer, s') →
      calls s'.world = calls s.world ++ [.batch (.rewind positions)]
  close : ∀ answer (s s' : Session R W), worker.consumer.close.run s = (answer, s') →
    calls s'.world = calls s.world ++ [.close]
  handlers : ∀ typeName, ∀ h ∈ worker.registry.streamHandlers worker.group typeName,
    ∀ values event, (h.2.run values event).Respects fun s s' => calls s'.world = calls s.world

namespace Logged

/-! ### What a step calls -/

variable {phase : WorkerPhase (Session R W)}

/-- The handlers that are still to be called for a record do not call the consumer. -/
def Spares (w : Logged D R W) : WorkerPhase (Session R W) → Prop
  | .handling _ _ _ _ calls =>
    ∀ call ∈ calls, call.Respects fun s s' => w.calls s'.world = w.calls s.world
  | _ => True

/-- The calls of the consumer in a step. -/
def callsIn (signalled : Bool) : WorkerPhase (Session R W) → List ConsumerCall
  | .polling => if signalled then [] else [.poll]
  | .committing done _ => (BatchRun.commitCalls done).map .batch
  | .rewinding pending => [.batch (.rewind (Offsets.start pending))]
  | .closing => [.close]
  | _ => []

/-- No step brings a handler that would call the consumer. -/
theorem Spares.step {w : Logged D R W} (h : w.Spares phase) (signalled : Bool) (s : Session R W) :
    w.Spares ((w.worker.step signalled phase).run s).1 := by
  have hstepped := w.worker.stepped signalled phase s
  rcases hstep : (w.worker.step signalled phase).run s with ⟨phase', s'⟩
  rw [hstep] at hstepped
  have hafter (next : AfterCommit) : w.Spares (Worker.afterCommit next) := by
    cases next with
    | _ => trivial
  cases hstepped with
  | dispatched _ _ _ hdelivery =>
    exact Registry.delivery_respects
      (Q := fun s s' : Session R W => w.calls s'.world = w.calls s.world)
      (fun _ => rfl) (fun hab hbc => hbc.trans hab) w.handlers hdelivery
  | called => exact fun call hcall => h call (List.mem_cons_of_mem _ hcall)
  | uncommitted => exact hafter _
  | committed => exact hafter _
  | commitFailed => exact hafter _
  | _ => trivial

/-- A step makes just the calls of its phase. -/
theorem calls_step (w : Logged D R W) (h : w.Spares phase) (signalled : Bool) (s : Session R W) :
    w.calls ((w.worker.step signalled phase).run s).2.world =
      w.calls s.world ++ callsIn signalled phase := by
  have hstepped := w.worker.stepped signalled phase s
  rcases hstep : (w.worker.step signalled phase).run s with ⟨phase', s'⟩
  rw [hstep] at hstepped
  cases hstepped with
  | unanswered hpoll | pollFailed hpoll | nothing hpoll | delivered _ hpoll =>
    have hpolled := w.poll _ _ _ _ _ hpoll
    exact hpolled
  | called _ _ _ _ _ _ hrun | callFailed _ _ _ _ _ _ hrun =>
    have hkeep := (h _ List.mem_cons_self).run hrun
    exact hkeep.trans (List.append_nil _).symm
  | committed _ _ hdone hcommit | commitFailed _ _ hdone hcommit =>
    have hcommitted := w.commit _ _ _ _ hcommit
    rw [callsIn, BatchRun.commitCalls, if_neg hdone]
    exact hcommitted
  | rewound _ hrewind =>
    have hrewound := w.rewind _ _ _ _ hrewind
    exact hrewound
  | closing _ hclose => exact w.close _ _ _ hclose
  | _ => exact (List.append_nil _).symm

/-- **Commits are calls.**  The offsets that a step commits are those that the worker calls
its consumer with in this step, and the consumer takes them. -/
theorem committedIn_eq_iff (w : Logged D R W) (h : w.Spares phase) (signalled : Bool)
    (s : Session R W) {offsets : Offsets} (hoffsets : offsets ≠ []) :
    w.worker.committedIn s phase = offsets ↔
      w.calls ((w.worker.step signalled phase).run s).2.world =
          w.calls s.world ++ [.batch (.commit offsets)] ∧
        ((w.worker.consumer.commit offsets).run s).1 = .ok () := by
  rw [w.calls_step h signalled s, List.append_cancel_left_eq]
  constructor
  · intro hcommitted
    cases phase with
    | committing done next =>
      rcases hanswer : ((w.worker.consumer.commit (Offsets.behind done)).run s).1 with e | _
      · simp only [Worker.committedIn, hanswer] at hcommitted
        exact absurd hcommitted.symm hoffsets
      · simp only [Worker.committedIn, hanswer] at hcommitted
        have hdone : done ≠ [] := by
          rintro rfl
          exact hoffsets hcommitted.symm
        subst hcommitted
        rw [callsIn, BatchRun.commitCalls, if_neg hdone]
        exact ⟨rfl, hanswer⟩
    | _ => exact absurd hcommitted.symm hoffsets
  · rintro ⟨hcalls, hanswer⟩
    cases phase with
    | committing done next =>
      rw [callsIn, BatchRun.commitCalls] at hcalls
      split at hcalls
      · cases hcalls
      · cases hcalls
        simp only [Worker.committedIn, hanswer]
    | polling =>
      cases signalled with
      | _ => cases hcalls
    | _ => cases hcalls

end Logged

/-- What there is to a step besides the worker: what others do before it, whether a pause
is over, and whether the signal is set. -/
structure Moment (R W : Type) extends Turn R W where
  wakes : Bool

namespace Worker

variable {σ : Type}

/-- The records that come of a poll, if one is made in a step. -/
def polledIn : WorkerPhase σ → WorkerPhase σ → Option (List StreamRecord)
  | .polling, .closing => none
  | .polling, .batch _ records => some records
  | .polling, _ => some []
  | _, _ => none

/-- The record that is taken up in a step: it is skipped, or given to its handlers, or it
turns out that it cannot be read. -/
def takenIn : WorkerPhase σ → WorkerPhase σ → List StreamRecord
  | .batch _ (_ :: _), .committing _ .close => []
  | .batch _ (record :: _), _ => [record]
  | _, _ => []

/-- The record that fails in a step. -/
def givenUpIn : WorkerPhase σ → WorkerPhase σ → List StreamRecord
  | .batch _ (record :: _), .committing _ (.rewind _) => [record]
  | .handling _ record _ _ _, .committing _ _ => [record]
  | _, _ => []

end Worker

/-- What was done since the last poll: of its records, in order, some were taken up, some
of these processed, and some have failed. -/
structure Progress where
  records : List StreamRecord
  taken : List StreamRecord
  processed : List StreamRecord
  failed : List StreamRecord

/-- How far the run of a worker has come. -/
structure Shift (R W : Type) where
  phase : WorkerPhase (Session R W)
  session : Session R W
  progress : Progress

namespace Progress

variable {σ : Type}

/-- What is noted of a step from one phase to another. -/
def note (p : Progress) (phase next : WorkerPhase σ) : Progress :=
  match Worker.polledIn phase next with
  | some records => ⟨records, [], [], []⟩
  | none =>
    { records := p.records
      taken := p.taken ++ Worker.takenIn phase next
      processed := p.processed ++ Worker.processedIn phase next
      failed := p.failed ++ Worker.givenUpIn phase next }

/-- What is noted when nothing is begun. -/
theorem note_of_begins_nothing (p : Progress) {phase next : WorkerPhase σ}
    (hpolled : Worker.polledIn phase next = none) (htaken : Worker.takenIn phase next = []) :
    p.note phase next =
      ⟨p.records, p.taken, p.processed ++ Worker.processedIn phase next,
        p.failed ++ Worker.givenUpIn phase next⟩ := by
  simp only [note, hpolled, htaken, List.append_nil]

/-- Most steps are nothing to note. -/
theorem note_eq (p : Progress) {phase next : WorkerPhase σ}
    (hpolled : Worker.polledIn phase next = none) (htaken : Worker.takenIn phase next = [])
    (hprocessed : Worker.processedIn phase next = [])
    (hfailed : Worker.givenUpIn phase next = []) : p.note phase next = p := by
  rw [p.note_of_begins_nothing hpolled htaken, hprocessed, hfailed, List.append_nil,
    List.append_nil]

/-- How a batch was gone through, by what comes after its commit. -/
inductive Ending (p : Progress) : AfterCommit → Prop
  | completed : p.records = p.processed → p.taken = p.processed → p.failed = [] → Ending p .poll
  | failed {record : StreamRecord} {rest : List StreamRecord} :
      p.records = p.processed ++ record :: rest → p.taken = p.processed ++ [record] →
      p.failed = [record] → Ending p (.rewind (record :: rest))
  | interrupted {record : StreamRecord} {rest : List StreamRecord} :
      p.records = p.processed ++ record :: rest → p.taken = p.processed → p.failed = [] →
      Ending p .close

end Progress

namespace Logged

/-- The calls of the consumer so far. -/
def callsOf (w : Logged D R W) (b : Shift R W) : List ConsumerCall := w.calls b.session.world

/-- One step of the worker. -/
def step (w : Logged D R W) (signalled : Bool) (b : Shift R W) : Shift R W :=
  let next := (w.worker.step signalled b.phase).run b.session
  ⟨next.1, next.2, b.progress.note b.phase next.1⟩

end Logged

namespace Shift

/-- Before the first poll. -/
def start (s : Session R W) : Shift R W := ⟨.polling, s, [], [], [], []⟩

/-- The run right before a step. -/
def before (b : Shift R W) (m : Moment R W) : Shift R W :=
  ⟨if m.wakes then Worker.wake b.phase else b.phase, m.others b.session, b.progress⟩

end Shift

/-- The run of the worker, step by step. -/
def Logged.run (w : Logged D R W) (s : Session R W) (moments : Nat → Moment R W) : Nat → Shift R W
  | 0 => .start s
  | n + 1 => w.step (moments n).signalled ((w.run s moments n).before (moments n))

namespace Shift

variable {w : Logged D R W} {front calls : List ConsumerCall} {p : Progress}
  {phase : WorkerPhase (Session R W)} {b : Shift R W}

/-! ### The invariant -/

/-- The calls from a poll to the next one: a commit of what was processed, and a rewind if
a record failed. -/
def batchCalls (processed : List StreamRecord) (next : AfterCommit) : List ConsumerCall :=
  (BatchRun.commitCalls processed ++ BatchRun.rewindCalls next).map .batch

/-- What holds in a run, by phase, with the calls up to the last poll and all calls. -/
def Standing (w : Logged D R W) (front calls : List ConsumerCall) (p : Progress) :
    WorkerPhase (Session R W) → Prop
  | .batch done pending =>
    p.processed = done ∧ p.records = done ++ pending ∧ p.taken = done ∧ p.failed = [] ∧
      calls = front
  | .handling done record rest _ handlers =>
    p.processed = done ∧ p.records = done ++ record :: rest ∧ p.taken = done ++ [record] ∧
      p.failed = [] ∧ calls = front ∧
      ∀ call ∈ handlers, call.Respects fun s s' => w.calls s'.world = w.calls s.world
  | .committing done next => p.processed = done ∧ p.Ending next ∧ calls = front
  | .rewinding pending =>
    p.Ending (.rewind pending) ∧
      calls = front ++ (BatchRun.commitCalls p.processed).map .batch
  | .polling | .waiting | .pausing | .closing =>
    ∃ next, p.Ending next ∧ calls = front ++ batchCalls p.processed next
  | .closed =>
    ∃ next, p.Ending next ∧ calls = front ++ batchCalls p.processed next ++ [.close]

theorem close_not_mem_batchCalls (processed : List StreamRecord) (next : AfterCommit) :
    .close ∉ batchCalls processed next := by
  simp [batchCalls]

theorem poll_not_mem_batchCalls (processed : List StreamRecord) (next : AfterCommit) :
    .poll ∉ batchCalls processed next := by
  simp [batchCalls]

/-! ### Steps -/

/-- The end of a pause leaves the worker where it stands. -/
theorem Standing.wake (h : Standing w front calls p phase) :
    Standing w front calls p (Worker.wake phase) := by
  cases phase with
  | pausing => exact h
  | _ => exact h

/-- After a commit it depends on the ending what comes next. -/
theorem Standing.afterCommit {next : AfterCommit} (h : p.Ending next)
    (hcalls : calls = front ++ (BatchRun.commitCalls p.processed).map .batch) :
    Standing w front calls p (Worker.afterCommit next) := by
  have hrewind (hnext : BatchRun.rewindCalls next = []) :
      calls = front ++ batchCalls p.processed next := by
    rw [hcalls, batchCalls, hnext, List.append_nil]
  cases next with
  | poll => exact ⟨_, h, hrewind rfl⟩
  | rewind pending => exact ⟨h, hcalls⟩
  | close => exact ⟨_, h, hrewind rfl⟩

/-- What is made of the calls by a step.  Only a poll, which is not made once the signal is
set, begins a new batch. -/
structure Stands (w : Logged D R W) (signalled : Bool) (front calls : List ConsumerCall)
    (processed : List StreamRecord) (p' : Progress) (phase' : WorkerPhase (Session R W))
    (calls' : List ConsumerCall) : Prop where
  standing : ∃ front', Standing w front' calls' p' phase' ∧
    (front' = front ∨ signalled = false ∧
      ∃ next, front' = front ++ batchCalls processed next ++ [.poll])
  grown : calls <+: calls'

/-- A step without a poll. -/
theorem Stands.same {signalled : Bool} {processed : List StreamRecord} {p' : Progress}
    {phase' : WorkerPhase (Session R W)} {late calls' : List ConsumerCall}
    (hlate : calls' = calls ++ late) (h : Standing w front (calls ++ late) p' phase') :
    Stands w signalled front calls processed p' phase' calls' where
  standing := ⟨front, hlate ▸ h, .inl rfl⟩
  grown := hlate ▸ List.prefix_append _ _

/-- A step without any call. -/
theorem Stands.quiet {signalled : Bool} {processed : List StreamRecord} {p' : Progress}
    {phase' : WorkerPhase (Session R W)} {calls' : List ConsumerCall}
    (hcalls : calls' = calls) (h : Standing w front calls p' phase') :
    Stands w signalled front calls processed p' phase' calls' where
  standing := ⟨front, hcalls ▸ h, .inl rfl⟩
  grown := hcalls ▸ List.prefix_refl _

/-- A poll. -/
theorem Stands.polled {processed : List StreamRecord} {p' : Progress}
    {phase' : WorkerPhase (Session R W)} {calls' : List ConsumerCall} {next : AfterCommit}
    (hcalls : calls = front ++ batchCalls processed next) (hcalls' : calls' = calls ++ [.poll])
    (h : Standing w calls' calls' p' phase') :
    Stands w false front calls processed p' phase' calls' where
  standing := ⟨calls', h, .inr ⟨rfl, next, by rw [hcalls', hcalls]⟩⟩
  grown := hcalls' ▸ List.prefix_append _ _

/-- Nothing was done yet since a poll. -/
theorem exists_ending_polled (calls : List ConsumerCall) :
    ∃ next, Progress.Ending ⟨[], [], [], []⟩ next ∧ calls = calls ++ batchCalls [] next :=
  ⟨.poll, .completed rfl rfl rfl, (List.append_nil _).symm⟩

theorem Standing.step {signalled : Bool} {phase' : WorkerPhase (Session R W)} {s s' : Session R W}
    (h : Standing w front (w.calls s.world) p phase)
    (hstep : w.worker.Stepped signalled phase s phase' s') :
    Stands w signalled front (w.calls s.world) p.processed (p.note phase phase') phase'
      (w.calls s'.world) := by
  cases hstep with
  | signalled | waiting | abandoned | pausing | awoken | closed =>
    rw [p.note_eq rfl rfl rfl rfl]
    exact .quiet rfl h
  | unanswered hpoll | pollFailed hpoll | nothing hpoll =>
    obtain ⟨next, -, hcalls⟩ := h
    have hpolled := w.poll _ _ _ _ _ hpoll
    exact .polled hcalls hpolled (exists_ending_polled _)
  | delivered _ hpoll =>
    obtain ⟨next, -, hcalls⟩ := h
    have hpolled := w.poll _ _ _ _ _ hpoll
    exact .polled hcalls hpolled ⟨rfl, rfl, rfl, rfl, rfl⟩
  | completed =>
    obtain ⟨rfl, hrecords, htaken, hfailed, hcalls⟩ := h
    rw [p.note_eq rfl rfl rfl rfl]
    exact .quiet rfl ⟨rfl, .completed (hrecords.trans (List.append_nil _)) htaken hfailed, hcalls⟩
  | interrupted =>
    obtain ⟨rfl, hrecords, htaken, hfailed, hcalls⟩ := h
    rw [p.note_eq rfl rfl rfl rfl]
    exact .quiet rfl ⟨rfl, .interrupted hrecords htaken hfailed, hcalls⟩
  | @skipped done record rest =>
    obtain ⟨rfl, hrecords, htaken, hfailed, hcalls⟩ := h
    refine .quiet rfl ⟨rfl, ?_, congrArg (· ++ [record]) htaken, ?_, hcalls⟩
    · exact hrecords.trans (List.append_assoc _ [record] rest).symm
    · exact (List.append_nil _).trans hfailed
  | @faulty done record rest =>
    obtain ⟨rfl, hrecords, htaken, hfailed, hcalls⟩ := h
    refine .quiet rfl ⟨List.append_nil _, .failed ?_ ?_ ?_, hcalls⟩
    · exact hrecords.trans (congrArg (· ++ record :: rest) (List.append_nil _).symm)
    · exact congrArg (· ++ [record]) (htaken.trans (List.append_nil _).symm)
    · exact congrArg (· ++ [record]) hfailed
  | @dispatched done record rest typeName handlers _ hdelivery =>
    obtain ⟨rfl, hrecords, htaken, hfailed, hcalls⟩ := h
    have hrespects := Registry.delivery_respects
      (Q := fun s s' : Session R W => w.calls s'.world = w.calls s.world)
      (fun _ => rfl) (fun hab hbc => hbc.trans hab) w.handlers hdelivery
    exact .quiet rfl ⟨List.append_nil _, hrecords, congrArg (· ++ [record]) htaken,
      (List.append_nil _).trans hfailed, hcalls, hrespects⟩
  | called _ _ _ _ _ _ hrun =>
    obtain ⟨hprocessed, hrecords, htaken, hfailed, hcalls, hrespects⟩ := h
    rw [p.note_eq rfl rfl rfl rfl]
    exact .quiet ((hrespects _ List.mem_cons_self).run hrun) ⟨hprocessed, hrecords, htaken, hfailed,
      hcalls, fun c hc => hrespects c (List.mem_cons_of_mem _ hc)⟩
  | @callFailed _ done record rest _ _ _ _ _ _ hrun =>
    obtain ⟨rfl, hrecords, htaken, hfailed, hcalls, hrespects⟩ := h
    have hkeep := (hrespects _ List.mem_cons_self).run hrun
    refine .quiet hkeep ⟨List.append_nil _, .failed ?_ ?_ ?_, hcalls⟩
    · exact hrecords.trans (congrArg (· ++ record :: rest) (List.append_nil _).symm)
    · exact (List.append_nil _).trans
        (htaken.trans (congrArg (· ++ [record]) (List.append_nil _).symm))
    · exact congrArg (· ++ [record]) hfailed
  | @processed _ done record rest =>
    obtain ⟨rfl, hrecords, htaken, hfailed, hcalls, -⟩ := h
    refine .quiet rfl ⟨rfl, ?_, (List.append_nil _).trans htaken, ?_, hcalls⟩
    · exact hrecords.trans (List.append_assoc _ [record] rest).symm
    · exact (List.append_nil _).trans hfailed
  | uncommitted =>
    obtain ⟨hprocessed, hending, hcalls⟩ := h
    rw [p.note_eq rfl rfl rfl rfl]
    refine .quiet rfl (.afterCommit hending ?_)
    rw [hprocessed, hcalls]
    exact (List.append_nil _).symm
  | committed _ _ hdone hcommit | commitFailed _ _ hdone hcommit =>
    obtain ⟨rfl, hending, hcalls⟩ := h
    rw [p.note_eq rfl rfl rfl rfl]
    have hcommitted := w.commit _ _ _ _ hcommit
    refine .same hcommitted (.afterCommit hending ?_)
    rw [hcalls, BatchRun.commitCalls, if_neg hdone]
    rfl
  | @rewound _ pending _ _ _ hrewind =>
    obtain ⟨hending, hcalls⟩ := h
    rw [p.note_eq rfl rfl rfl rfl]
    have hrewound := w.rewind _ _ _ _ hrewind
    refine .same hrewound ⟨.rewind pending, hending, ?_⟩
    rw [hcalls, batchCalls, List.map_append, List.append_assoc]
    rfl
  | closing _ hclose =>
    obtain ⟨next, hending, hcalls⟩ := h
    rw [p.note_eq rfl rfl rfl rfl]
    refine .same (w.close _ _ _ hclose) ⟨next, hending, ?_⟩
    rw [hcalls]

/-! ### After the signal -/

/-- Nothing is begun from one point of a run to a later one. -/
structure Winds (w : Logged D R W) (b b' : Shift R W) : Prop where
  records : b'.progress.records = b.progress.records
  taken : b'.progress.taken = b.progress.taken
  processed : b.progress.processed <+: b'.progress.processed
  failed : b.progress.failed <+: b'.progress.failed
  calls : w.callsOf b <+: w.callsOf b'

theorem Winds.refl (w : Logged D R W) (b : Shift R W) : Winds w b b :=
  ⟨rfl, rfl, List.prefix_refl _, List.prefix_refl _, List.prefix_refl _⟩

theorem Winds.trans {b₁ b₂ b₃ : Shift R W} (h : Winds w b₁ b₂) (h' : Winds w b₂ b₃) :
    Winds w b₁ b₃ :=
  ⟨h'.records.trans h.records, h'.taken.trans h.taken, h.processed.trans h'.processed,
    h.failed.trans h'.failed, h.calls.trans h'.calls⟩

end Shift

theorem Worker.Stepped.begins_nothing {w : Worker D (Session R W)}
    {phase phase' : WorkerPhase (Session R W)} {s s' : Session R W}
    (h : w.Stepped true phase s phase' s') :
    polledIn phase phase' = none ∧ takenIn phase phase' = [] := by
  cases h with
  | _ => exact ⟨rfl, rfl⟩

namespace Shift

variable {w : Logged D R W} {front : List ConsumerCall} {b : Shift R W}

/-- A step at some moment of a run. -/
theorem Standing.advance (h : Standing w front (w.callsOf b) b.progress b.phase) (m : Moment R W)
    (hothers : ∀ s, w.calls (m.others s).world = w.calls s.world) :
    let b' := w.step m.signalled (b.before m)
    Stands w m.signalled front (w.callsOf b) b.progress.processed b'.progress b'.phase
      (w.callsOf b') := by
  have hcalls : w.callsOf (b.before m) = w.callsOf b := hothers b.session
  have hbefore : Standing w front (w.callsOf (b.before m)) b.progress (b.before m).phase := by
    rw [hcalls]
    show Standing w front _ _ (if m.wakes then Worker.wake b.phase else b.phase)
    split
    · exact h.wake
    · exact h
  have hstep := hbefore.step (w.worker.stepped m.signalled (b.before m).phase (b.before m).session)
  exact hcalls ▸ hstep

/-- Once the signal is set, a step begins nothing. -/
theorem Standing.winds (h : Standing w front (w.callsOf b) b.progress b.phase) (m : Moment R W)
    (hothers : ∀ s, w.calls (m.others s).world = w.calls s.world)
    (hsignalled : m.signalled = true) :
    let b' := w.step m.signalled (b.before m)
    Standing w front (w.callsOf b') b'.progress b'.phase ∧ Winds w b b' := by
  have hstands := h.advance m hothers
  obtain ⟨front', hstanding, hfront⟩ := hstands.standing
  obtain rfl : front' = front := hfront.resolve_right fun h => by
    rw [hsignalled] at h
    cases h.1
  refine ⟨hstanding, ?_⟩
  have hstepped := w.worker.stepped m.signalled (b.before m).phase (b.before m).session
  rw [hsignalled] at hstepped
  obtain ⟨hpolled, htaken⟩ := hstepped.begins_nothing
  have hprogress := b.progress.note_of_begins_nothing hpolled htaken
  have hnext : (w.step m.signalled (b.before m)).progress =
      b.progress.note (b.before m).phase
        ((w.worker.step true (b.before m).phase).run (b.before m).session).1 := by
    rw [hsignalled]
    rfl
  rw [hprogress] at hnext
  exact ⟨by rw [hnext], by rw [hnext], hnext ▸ List.prefix_append _ _,
    hnext ▸ List.prefix_append _ _, hstands.grown⟩

/-- Once the signal is set, a step brings the end nearer. -/
theorem untilClosed_advance (w : Logged D R W) (b : Shift R W) {m : Moment R W}
    (hsignalled : m.signalled = true) :
    Worker.untilClosed (w.step m.signalled (b.before m)).phase ≤
      Worker.untilClosed b.phase - 1 := by
  have hstepped := w.worker.stepped m.signalled (b.before m).phase (b.before m).session
  have hwake : Worker.untilClosed (b.before m).phase ≤ Worker.untilClosed b.phase := by
    show Worker.untilClosed (if m.wakes then Worker.wake b.phase else b.phase) ≤ _
    split
    · exact Worker.untilClosed_wake b.phase
    · exact Nat.le_refl _
  rw [hsignalled] at hstepped
  have hle := hstepped.untilClosed_le
  rw [← hsignalled] at hle
  exact Nat.le_trans hle (Nat.sub_le_sub_right hwake 1)

/-! ### Runs -/

section

variable {s : Session R W} {moments : Nat → Moment R W}
  (hothers : ∀ n s, w.calls ((moments n).others s).world = w.calls s.world)

include hothers

/-- At any point of a run. -/
theorem standing_run (n : Nat) :
    ∃ cs, Standing w (w.calls s.world ++ cs) (w.callsOf (w.run s moments n))
        (w.run s moments n).progress (w.run s moments n).phase ∧
      .close ∉ cs ∧ (cs = [] ∨ cs.getLast? = some .poll) := by
  induction n with
  | zero =>
    refine ⟨[], ?_, List.not_mem_nil, .inl rfl⟩
    rw [List.append_nil]
    exact exists_ending_polled _
  | succ n ih =>
    obtain ⟨cs, hstanding, hclose, hlast⟩ := ih
    obtain ⟨front, hstanding', hfront⟩ := (hstanding.advance (moments n) (hothers n)).standing
    rcases hfront with rfl | ⟨-, next, rfl⟩
    · exact ⟨cs, hstanding', hclose, hlast⟩
    · refine ⟨cs ++ batchCalls (w.run s moments n).progress.processed next ++ [.poll], ?_, ?_,
        .inr List.getLast?_concat⟩
      · rw [← List.append_assoc, ← List.append_assoc]
        exact hstanding'
      · simp [hclose, close_not_mem_batchCalls]

/-- From the signal on. -/
theorem winds_run {n : Nat} (hsignalled : ∀ m, n ≤ m → (moments m).signalled = true)
    (h : Standing w front (w.callsOf (w.run s moments n)) (w.run s moments n).progress
      (w.run s moments n).phase) (k : Nat) :
    Standing w front (w.callsOf (w.run s moments (n + k))) (w.run s moments (n + k)).progress
        (w.run s moments (n + k)).phase ∧
      Winds w (w.run s moments n) (w.run s moments (n + k)) ∧
      Worker.untilClosed (w.run s moments (n + k)).phase ≤
        Worker.untilClosed (w.run s moments n).phase - k := by
  induction k with
  | zero => exact ⟨h, .refl w _, Nat.le_refl _⟩
  | succ k ih =>
    obtain ⟨hstanding, hwinds, hle⟩ := ih
    have hsignal := hsignalled (n + k) (Nat.le_add_right n k)
    obtain ⟨hstanding', hwinds'⟩ := hstanding.winds (moments (n + k)) (hothers _) hsignal
    have hnearer := untilClosed_advance w (w.run s moments (n + k)) hsignal
    exact ⟨hstanding', hwinds.trans hwinds', Nat.le_trans hnearer (by omega)⟩

/-- A worker that is closed stays so, and makes no more calls. -/
theorem closed_stays {n : Nat} (h : (w.run s moments n).phase = .closed) (k : Nat) :
    (w.run s moments (n + k)).phase = .closed ∧
      w.callsOf (w.run s moments (n + k)) = w.callsOf (w.run s moments n) := by
  induction k with
  | zero => exact ⟨h, rfl⟩
  | succ k ih =>
    obtain ⟨hclosed, hcalls⟩ := ih
    have hbefore : ((w.run s moments (n + k)).before (moments (n + k))).phase = .closed := by
      show (if _ then Worker.wake (w.run s moments (n + k)).phase else _) = _
      rw [hclosed]
      split
      · rfl
      · rfl
    have hstep : (w.worker.step (moments (n + k)).signalled
        ((w.run s moments (n + k)).before (moments (n + k))).phase).run
          ((w.run s moments (n + k)).before (moments (n + k))).session =
        (.closed, (moments (n + k)).others (w.run s moments (n + k)).session) := by
      rw [hbefore]
      rfl
    have hsession : (w.run s moments (n + (k + 1))).session =
        (moments (n + k)).others (w.run s moments (n + k)).session := congrArg Prod.snd hstep
    refine ⟨congrArg Prod.fst hstep, ?_⟩
    rw [Logged.callsOf, hsession, hothers]
    exact hcalls

end

/-- A record that was taken up is processed, or in progress, or has failed. -/
theorem Standing.taken_cases {phase : WorkerPhase (Session R W)} {calls : List ConsumerCall}
    {p : Progress} (h : Standing w front calls p phase) :
    p.taken = p.processed ∧ p.failed = [] ∨
    (∃ done record rest typeName handlers,
      phase = .handling done record rest typeName handlers ∧ p.taken = p.processed ++ [record] ∧
        p.failed = []) ∨
    ∃ record, p.taken = p.processed ++ [record] ∧ p.failed = [record] := by
  have hending {next : AfterCommit} (h : p.Ending next) :
      p.taken = p.processed ∧ p.failed = [] ∨
        ∃ record, p.taken = p.processed ++ [record] ∧ p.failed = [record] := by
    cases h with
    | completed _ htaken hfailed => exact .inl ⟨htaken, hfailed⟩
    | failed _ htaken hfailed => exact .inr ⟨_, htaken, hfailed⟩
    | interrupted _ htaken hfailed => exact .inl ⟨htaken, hfailed⟩
  cases phase with
  | batch =>
    obtain ⟨rfl, -, htaken, hfailed, -⟩ := h
    exact .inl ⟨htaken, hfailed⟩
  | handling =>
    obtain ⟨rfl, -, htaken, hfailed, -⟩ := h
    exact .inr (.inl ⟨_, _, _, _, _, rfl, htaken, hfailed⟩)
  | committing =>
    obtain ⟨-, h, -⟩ := h
    exact (hending h).imp_right .inr
  | rewinding => exact (hending h.1).imp_right .inr
  | polling | waiting | pausing | closing | closed =>
    obtain ⟨_, h, -⟩ := h
    exact (hending h).imp_right .inr

/-- How a run ends that has come to some point when the signal is given. -/
structure Closes (w : Logged D R W) (before : List ConsumerCall) (b b' : Shift R W) : Prop where
  closed : b'.phase = .closed
  /-- No other batch is begun, and no other record of this one. -/
  records : b'.progress.records = b.progress.records
  taken : b'.progress.taken = b.progress.taken
  /-- Only the record in progress may be processed still. -/
  processed : b'.progress.processed = b.progress.processed ∨
    ∃ done record rest typeName handlers,
      b.phase = .handling done record rest typeName handlers ∧
      b'.progress.processed = b.progress.processed ++ [record]
  /-- There is no poll from now on. -/
  late : ∃ late, w.callsOf b' = w.callsOf b ++ late ∧ .poll ∉ late
  /-- There is one close, at the end.  Since the last poll what was processed is committed
  in one call, and there is a rewind if a record failed, and none if the batch was
  interrupted. -/
  calls : ∃ polls next, w.callsOf b' =
      before ++ polls ++ batchCalls b'.progress.processed next ++ [.close] ∧
    .close ∉ polls ++ batchCalls b'.progress.processed next ∧
    (polls = [] ∨ polls.getLast? = some .poll) ∧ b'.progress.Ending next
  committed : ∀ p, (Offsets.behind b'.progress.processed).at? p =
    (inPartition p b'.progress.processed).getLast?.map fun x => x.offset + 1

/-- All calls up to the last poll are among the calls. -/
theorem Standing.front_prefix {phase : WorkerPhase (Session R W)} {calls : List ConsumerCall}
    {p : Progress} (h : Standing w front calls p phase) : front <+: calls := by
  cases phase with
  | batch =>
    obtain ⟨-, -, -, -, rfl⟩ := h
    exact List.prefix_refl _
  | handling =>
    obtain ⟨-, -, -, -, rfl, -⟩ := h
    exact List.prefix_refl _
  | committing =>
    obtain ⟨-, -, rfl⟩ := h
    exact List.prefix_refl _
  | rewinding =>
    obtain ⟨-, rfl⟩ := h
    exact List.prefix_append _ _
  | polling | waiting | pausing | closing =>
    obtain ⟨_, -, rfl⟩ := h
    exact List.prefix_append _ _
  | closed =>
    obtain ⟨_, -, rfl⟩ := h
    exact (List.prefix_append _ _).trans (List.prefix_append _ _)

/-- What was taken up tells which records were processed since. -/
theorem Winds.processed_cases {b' : Shift R W} (hwinds : Winds w b b')
    {calls : List ConsumerCall} (h : Standing w front calls b.progress b.phase) {next : AfterCommit}
    (hending : b'.progress.Ending next) :
    b'.progress.processed = b.progress.processed ∨
      ∃ done record rest typeName handlers,
        b.phase = .handling done record rest typeName handlers ∧
        b'.progress.processed = b.progress.processed ++ [record] := by
  have hend : b'.progress.taken = b'.progress.processed ∧ b'.progress.failed = [] ∨
      ∃ record, b'.progress.taken = b'.progress.processed ++ [record] := by
    cases hending with
    | completed _ htaken hfailed => exact .inl ⟨htaken, hfailed⟩
    | failed _ htaken _ => exact .inr ⟨_, htaken⟩
    | interrupted _ htaken hfailed => exact .inl ⟨htaken, hfailed⟩
  rcases h.taken_cases with ⟨htaken, -⟩ |
    ⟨done, record, rest, typeName, handlers, hphase, htaken, -⟩ | ⟨record, htaken, hfailed⟩
  · rcases hend with ⟨hend, -⟩ | ⟨failed, hend⟩
    · exact .inl (by rw [← hend, hwinds.taken, htaken])
    · -- what is processed stays so
      have hlength := hwinds.processed.length_le
      rw [← htaken, ← hwinds.taken, hend, List.length_append, List.length_singleton] at hlength
      omega
  · rcases hend with ⟨hend, -⟩ | ⟨failed, hend⟩
    · exact .inr ⟨done, record, rest, typeName, handlers, hphase,
        by rw [← hend, hwinds.taken, htaken]⟩
    · rw [hwinds.taken, htaken] at hend
      exact .inl (List.append_inj_left' hend rfl).symm
  · rcases hend with ⟨-, hnone⟩ | ⟨failed, hend⟩
    · -- a record that has failed stays so
      have hprefix := hwinds.failed
      rw [hfailed, hnone] at hprefix
      exact absurd (List.prefix_nil.1 hprefix) (List.cons_ne_nil _ _)
    · rw [hwinds.taken, htaken] at hend
      exact .inl (List.append_inj_left' hend rfl).symm

theorem Winds.closes {before polls : List ConsumerCall} {b' : Shift R W} (hwinds : Winds w b b')
    (h : Standing w (before ++ polls) (w.callsOf b) b.progress b.phase)
    (h' : Standing w (before ++ polls) (w.callsOf b') b'.progress b'.phase)
    (hclosed : b'.phase = .closed) (hclose : .close ∉ polls)
    (hlast : polls = [] ∨ polls.getLast? = some .poll) : Closes w before b b' := by
  rw [hclosed] at h'
  obtain ⟨next, hending, hcalls⟩ := h'
  refine ⟨hclosed, hwinds.records, hwinds.taken, hwinds.processed_cases h hending, ?_,
    ⟨polls, next, hcalls, ?_, hlast, hending⟩, fun p => Offsets.at?_behind _ p⟩
  · obtain ⟨late, hlate⟩ := hwinds.calls
    obtain ⟨early, hearly⟩ := h.front_prefix
    refine ⟨late, hlate.symm, fun hpoll => ?_⟩
    -- whatever was called since the last poll is in the commit, the rewind and the close
    have hsince : early ++ late = batchCalls b'.progress.processed next ++ [.close] := by
      rw [← hlate, ← hearly, List.append_assoc (before ++ polls) early,
        List.append_assoc (before ++ polls)] at hcalls
      exact List.append_cancel_left hcalls
    have hmem : .poll ∈ batchCalls b'.progress.processed next ++ [.close] :=
      hsince ▸ List.mem_append_right _ hpoll
    rcases List.mem_append.1 hmem with hmem | hmem
    · exact poll_not_mem_batchCalls _ _ hmem
    · cases List.mem_singleton.1 hmem
  · rw [List.mem_append]
    rintro (hmem | hmem)
    · exact hclose hmem
    · exact close_not_mem_batchCalls _ _ hmem

/-- **A shutdown.**  Take any run of a worker, whatever its consumer answers to its polls,
commits, rewinds and the close, whatever its handlers do, and whatever others do between its
steps, except to use its consumer.  Pauses may end at any time.  The signal is given before
any step: before a poll or in it, between two records, in one, in a pause.

* The worker is closed some time after that, and does nothing more.
* No record is taken up after the signal, and none is processed but the one in progress.
* There is no poll after the signal.  What was processed since the last one is committed in
  one call, up to the last record in each partition, if anything was processed.  A batch that
  was interrupted is not rewound; if the record in progress fails, the batch is not
  interrupted there but ends as any other one that fails.
* The consumer is closed once, and this is its last call. -/
theorem shutdown_closes (w : Logged D R W) (s : Session R W) (moments : Nat → Moment R W) (n : Nat)
    (hsignalled : ∀ m, (moments m).signalled = decide (n ≤ m))
    (hothers : ∀ m s, w.calls ((moments m).others s).world = w.calls s.world) :
    ∃ last, n ≤ last ∧
      (∀ m, last ≤ m → (w.run s moments m).phase = .closed ∧
        w.callsOf (w.run s moments m) = w.callsOf (w.run s moments last)) ∧
      Closes w (w.calls s.world) (w.run s moments n) (w.run s moments last) := by
  obtain ⟨polls, hstanding, hclose, hlast⟩ := standing_run hothers n
  have hafter (m : Nat) (h : n ≤ m) : (moments m).signalled = true := by
    rw [hsignalled, decide_eq_true h]
  obtain ⟨hstanding', hwinds, hle⟩ := winds_run hothers hafter hstanding
    (Worker.untilClosed (w.run s moments n).phase)
  have hclosed := Worker.untilClosed_eq_zero (Nat.le_zero.1 ((Nat.sub_self _) ▸ hle))
  refine ⟨_, Nat.le_add_right _ _, fun m hm => ?_, hwinds.closes hstanding hstanding' hclosed hclose
    hlast⟩
  obtain ⟨k, rfl⟩ := Nat.exists_eq_add_of_le hm
  exact closed_stays hothers hclosed k

/-- A worker of the drivers' group that gets the same batch from every poll, and the world
of which is the list of its calls. -/
def loggedWorker : Logged (Driver.beside Bench.domain) Driver.ReadModel (List ConsumerCall) where
  worker :=
    { registry := Driver.registry Driver.newYear
      config := .standard
      group := Driver.groupName
      id := 0
      consumer :=
        { poll := fun _ _ s =>
            (some (.ok BatchRun.mixedBatch), { s with world := s.world ++ [.poll] })
          commit := fun offsets s =>
            (.ok (), { s with world := s.world ++ [.batch (.commit offsets)] })
          rewind := fun positions s =>
            (.ok (), { s with world := s.world ++ [.batch (.rewind positions)] })
          close := fun s => (.ok (), { s with world := s.world ++ [.close] }) } }
  calls world := world
  poll := by
    intro timeout limit answer s s' hpoll
    cases hpoll
    rfl
  commit := by
    intro offsets answer s s' hcommit
    cases hcommit
    rfl
  rewind := by
    intro positions answer s s' hrewind
    cases hrewind
    rfl
  close := by
    intro answer s s' hclose
    cases hclose
    rfl
  handlers := Driver.streamHandlers_keep_world Driver.newYear

/-- The run of that worker, with the signal after the second record. -/
def interruptedRun : Nat → Shift Driver.ReadModel (List ConsumerCall) :=
  loggedWorker.run (Session.start ⟨some Table.empty, some Table.empty, some Table.empty⟩ [])
    fun m => ⟨⟨decide (3 ≤ m), id⟩, false⟩

/-- The two records are committed, in their two partitions. -/
theorem interrupted_run_closes :
    ∃ last, (interruptedRun last).phase = .closed ∧
      (interruptedRun last).progress.processed = BatchRun.mixedBatch.take 2 ∧
      (interruptedRun last).session.world =
        [.poll, .batch (.commit [(⟨"events", 0⟩, 5), (⟨"events", 1⟩, 8)]), .close] := by
  obtain ⟨last, -, hclosed, h⟩ := shutdown_closes loggedWorker
    (Session.start ⟨some Table.empty, some Table.empty, some Table.empty⟩ [])
    (fun m => ⟨⟨decide (3 ≤ m), id⟩, false⟩) 3 (fun _ => rfl) fun _ _ => rfl
  have hprocessed : (interruptedRun last).progress.processed = BatchRun.mixedBatch.take 2 := by
    rcases h.processed with heq | ⟨_, _, _, _, _, hphase, -⟩
    · exact heq
    · cases hphase
  -- two records, the commit and the close
  have hsix : (interruptedRun 6).phase = .closed := rfl
  have hstays := (closed_stays (fun _ _ => rfl) hsix last).2
  have hlast := (hclosed (6 + last) (Nat.le_add_left _ _)).2
  exact ⟨last, (hclosed last (Nat.le_refl _)).1, hprocessed, hlast.symm.trans hstays⟩

end Shift

end Chronicle
