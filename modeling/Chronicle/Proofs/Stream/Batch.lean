/-
Chronicle/Proofs/Stream/Batch.lean

How a batch is divided where it ends.

A batch is processed up to the first record that fails, or to the first one before
which the signal is seen.  What is done is committed, and after a failure every
partition that is pending is moved back.  Here a batch is followed alone, whatever
others do between its steps.

`Watched` is a worker whose calls of the broker are listed in its world, and `BatchRun`
is how far it has come in a batch, with the answers for all records and with what
was seen of the signal.  The invariant `BatchRun.Standing` says for every phase what
was tallied so far.

Main result: wherever the batch fails, and wherever the signal is seen, it ends, and it
is divided there (`batch_divided`).
-/
import Chronicle.Bench.Vocabulary
import Chronicle.Proofs.Driver.Confined
import Chronicle.Proofs.Stream.InMemory
import Mathlib.Data.List.Pairwise
import Mathlib.Data.Nat.Find

namespace Chronicle

variable {D : Domain} {R W : Type}

/-! ### Records and offsets -/

namespace StreamRecord

/-- The offset of its partition is behind a record. -/
def Below (x : StreamRecord) (os : Offsets) : Prop :=
  ∃ offset, os.at? x.place = some offset ∧ x.offset < offset

/-- The offset of its partition is at a record or before it. -/
def AtOrAbove (x : StreamRecord) (os : Offsets) : Prop :=
  ∃ offset, os.at? x.place = some offset ∧ offset ≤ x.offset

end StreamRecord

section

variable {done pending : List StreamRecord} (h : InOrder (done ++ pending)) {x : StreamRecord}

include h

/-- What is done is below the offsets behind it, and before what is pending. -/
theorem InOrder.below (hx : x ∈ done) :
    x.Below (Offsets.behind done) ∧ ¬x.AtOrAbove (Offsets.start pending) := by
  obtain ⟨hdone, -, hbetween⟩ := List.pairwise_append.1 h
  constructor
  · have hmem : x ∈ Chronicle.inPartition x.place done :=
      List.mem_filter.2 ⟨hx, decide_eq_true rfl⟩
    have hle := ((InOrder.inPartition hdone x.place).imp
      fun h => Int.le_of_lt h).rel_getLast_of_rel_getLast_getLast hmem (Int.le_refl _)
    refine ⟨_, ?_, Int.lt_add_one_of_le hle⟩
    rw [Offsets.at?_behind, List.getLast?_eq_some_getLast (List.ne_nil_of_mem hmem),
      Option.map_some]
  · rintro ⟨offset, hat, hle⟩
    rw [Offsets.at?_start] at hat
    obtain ⟨first, hfirst, rfl⟩ := Option.map_eq_some_iff.1 hat
    obtain ⟨hpending, hplace⟩ := List.mem_filter.1 (List.mem_of_head? hfirst)
    have := hbetween x hx first hpending (of_decide_eq_true hplace).symm
    omega

/-- What is pending is behind what is done, and at or above the offsets it starts at. -/
theorem InOrder.atOrAbove (hx : x ∈ pending) :
    ¬x.Below (Offsets.behind done) ∧ x.AtOrAbove (Offsets.start pending) := by
  obtain ⟨-, hpending, hbetween⟩ := List.pairwise_append.1 h
  constructor
  · rintro ⟨offset, hat, hlt⟩
    rw [Offsets.at?_behind] at hat
    obtain ⟨last, hlast, rfl⟩ := Option.map_eq_some_iff.1 hat
    obtain ⟨hdone, hplace⟩ := List.mem_filter.1 (List.mem_of_getLast? hlast)
    have := hbetween last hdone x hx (of_decide_eq_true hplace)
    omega
  · have hmem : x ∈ Chronicle.inPartition x.place pending :=
      List.mem_filter.2 ⟨hx, decide_eq_true rfl⟩
    have hle := ((InOrder.inPartition hpending x.place).imp
      fun h => Int.le_of_lt h).rel_head_of_rel_head_head hmem (Int.le_refl _)
    refine ⟨_, ?_, hle⟩
    rw [Offsets.at?_start, List.head?_eq_some_head (List.ne_nil_of_mem hmem), Option.map_some]

end

/-! ### First positions -/

/-- A position up to which nothing is true, and at which nothing is false: of the first
that is true, or behind all that there can be. -/
structure FirstAt (bound : Nat) (bs : List Bool) (k : Nat) : Prop where
  le : k ≤ bound
  before : ∀ i < k, bs[i]? ≠ some true
  here : bs[k]? ≠ some false

theorem firstAt_replicate {bound d k : Nat} :
    FirstAt bound (List.replicate d false) k ↔ d ≤ k ∧ k ≤ bound := by
  constructor
  · rintro ⟨hle, -, hhere⟩
    refine ⟨Nat.le_of_not_lt fun hlt => hhere ?_, hle⟩
    rw [List.getElem?_replicate_of_lt hlt]
  · rintro ⟨hd, hle⟩
    refine ⟨hle, fun i _ => ?_, ?_⟩
    · rw [List.getElem?_replicate]
      split
      · simp
      · simp
    · rw [List.getElem?_replicate, if_neg (Nat.not_lt.2 hd)]
      simp

theorem firstAt_append_true {bound d k : Nat} :
    FirstAt bound (List.replicate d false ++ [true]) k ↔ k = d ∧ k ≤ bound := by
  have hbefore {i : Nat} (h : i < d) :
      (List.replicate d false ++ [true])[i]? = some false := by
    rw [List.getElem?_append_left (by rwa [List.length_replicate]),
      List.getElem?_replicate_of_lt h]
  have hthere : (List.replicate d false ++ [true])[d]? = some true := by
    rw [List.getElem?_append_right (List.length_replicate ▸ Nat.le_refl d), List.length_replicate,
      Nat.sub_self]
    rfl
  constructor
  · rintro ⟨hle, hnone, hhere⟩
    refine ⟨Nat.le_antisymm (Nat.le_of_not_lt fun hlt => hnone d hlt hthere)
      (Nat.le_of_not_lt fun hlt => hhere (hbefore hlt)), hle⟩
  · rintro ⟨rfl, hle⟩
    refine ⟨hle, fun i hi => ?_, ?_⟩
    · rw [hbefore hi]
      simp
    · rw [hthere]
      simp

/-! ### Watched workers -/

/-- A call of a consumer that a batch may make. -/
inductive BrokerCall where
  | commit (offsets : Offsets)
  | rewind (positions : Offsets)
  deriving DecidableEq, Repr

/-- A worker whose calls of the broker are listed in its world, oldest first.  The
broker may answer as it likes, and do anything else.  Handlers cannot call it. -/
structure Watched (D : Domain) (R W : Type) where
  worker : Worker D (Session R W)
  calls : W → List BrokerCall
  commit : ∀ offsets answer (s s' : Session R W),
    (worker.consumer.commit offsets).run s = (answer, s') →
      calls s'.world = calls s.world ++ [.commit offsets]
  rewind : ∀ positions answer (s s' : Session R W),
    (worker.consumer.rewind positions).run s = (answer, s') →
      calls s'.world = calls s.world ++ [.rewind positions]
  handlers : ∀ typeName, ∀ h ∈ worker.registry.streamHandlers worker.group typeName,
    ∀ values event, (h.2.run values event).Respects fun s s' => calls s'.world = calls s.world

/-- What there is to a step besides the worker: what others do before it, and whether the
signal is set. -/
structure Turn (R W : Type) where
  signalled : Bool
  others : Session R W → Session R W

/-- How the processing of a batch ends. -/
inductive BatchOutcome where
  | completed
  | failed
  | interrupted
  deriving DecidableEq, Repr

namespace Worker

variable {σ : Type}

/-- The signal, where it is looked at in a batch: before each record. -/
def seenIn (signalled : Bool) : WorkerPhase σ → List Bool
  | .batch _ (_ :: _) => [signalled]
  | _ => []

/-- The record whose processing begins in a step. -/
def begunIn (signalled : Bool) : WorkerPhase σ → List StreamRecord
  | .batch _ (record :: _) => if signalled then [] else [record]
  | _ => []

/-- Whether a record fails, if its processing ends in a step. -/
def failedIn (w : Worker D (Session R W)) (signalled : Bool) (s : Session R W) :
    WorkerPhase (Session R W) → List Bool
  | .batch _ (record :: _) =>
    if signalled then []
    else
      match w.registry.delivery w.group record with
      | .skip => [false]
      | .fault _ => [true]
      | .deliver _ _ => []
  | .handling _ _ _ _ [] => [false]
  | .handling _ _ _ _ (call :: _) =>
    match (call.run s).1 with
    | .ok () => []
    | .error _ => [true]
  | _ => []

/-- The outcome of the batch, if it is over. -/
def outcome? : WorkerPhase σ → Option BatchOutcome
  | .polling => some .completed
  | .pausing => some .failed
  | .closing => some .interrupted
  | _ => none

end Worker

/-- How far a worker has come in a batch: the records whose processing was begun, whether
each of them failed, and the signal before each record. -/
structure BatchRun (R W : Type) where
  phase : WorkerPhase (Session R W)
  session : Session R W
  begun : List StreamRecord
  failures : List Bool
  signals : List Bool

namespace Watched

/-- One step of the worker. -/
def advance (w : Watched D R W) (turn : Turn R W) (b : BatchRun R W) : BatchRun R W :=
  let s := turn.others b.session
  let next := (w.worker.step turn.signalled b.phase).run s
  { phase := next.1
    session := next.2
    begun := b.begun ++ Worker.begunIn turn.signalled b.phase
    failures := b.failures ++ w.worker.failedIn turn.signalled s b.phase
    signals := b.signals ++ Worker.seenIn turn.signalled b.phase }

/-- The worker after a number of steps from the beginning of a batch. -/
def run (w : Watched D R W) (records : List StreamRecord) (s : Session R W)
    (turns : Nat → Turn R W) : Nat → BatchRun R W
  | 0 => ⟨.batch [] records, s, [], [], []⟩
  | n + 1 => w.advance (turns n) (w.run records s turns n)

/-- The calls of the broker after a step. -/
def callsOf (w : Watched D R W) (b : BatchRun R W) : List BrokerCall := w.calls b.session.world

end Watched

namespace BatchRun

variable {w : Watched D R W} {records : List StreamRecord} {before : List BrokerCall}
  {b : BatchRun R W}

/-! ### The invariant -/

/-- What is noted when some records are done: none of them failed, and the signal was
seen before none of them; and what is noted behind that. -/
structure Tally (b : BatchRun R W) (done begun : List StreamRecord) (failures signals : List Bool) :
    Prop where
  begun : b.begun = done ++ begun
  failures : b.failures = List.replicate done.length false ++ failures
  signals : b.signals = List.replicate done.length false ++ signals

/-- Why a batch is given up or at its end, when some records of it are done. -/
inductive Ending (records : List StreamRecord) (b : BatchRun R W) (done : List StreamRecord) :
    AfterCommit → Prop
  | completed : records = done → b.Tally done [] [] [] → Ending records b done .poll
  | failed {record : StreamRecord} {rest : List StreamRecord} : records = done ++ record :: rest →
      b.Tally done [record] [true] [false] → Ending records b done (.rewind (record :: rest))
  | interrupted {record : StreamRecord} {rest : List StreamRecord} :
      records = done ++ record :: rest → b.Tally done [] [] [true] → Ending records b done .close

/-- The calls of a commit of what is done. -/
def commitCalls (done : List StreamRecord) : List BrokerCall :=
  if done = [] then [] else [.commit (Offsets.behind done)]

/-- The outcome of a batch, by what comes after its commit. -/
def outcomeOf : AfterCommit → BatchOutcome
  | .poll => .completed
  | .rewind _ => .failed
  | .close => .interrupted

/-- The calls of a rewind, if it comes after the commit. -/
def rewindCalls : AfterCommit → List BrokerCall
  | .rewind pending => [.rewind (Offsets.start pending)]
  | _ => []

/-- What holds in a batch, by phase. -/
def Standing (w : Watched D R W) (records : List StreamRecord) (before : List BrokerCall)
    (b : BatchRun R W) : Prop :=
  match b.phase with
  | .batch done pending =>
    records = done ++ pending ∧ b.Tally done [] [] [] ∧ w.callsOf b = before
  | .handling done record rest _ calls =>
    records = done ++ record :: rest ∧ b.Tally done [record] [] [false] ∧ w.callsOf b = before ∧
      ∀ call ∈ calls, call.Respects fun s s' => w.calls s'.world = w.calls s.world
  | .committing done next => b.Ending records done next ∧ w.callsOf b = before
  | .rewinding pending =>
    ∃ done, b.Ending records done (.rewind pending) ∧ w.callsOf b = before ++ commitCalls done
  | .polling => ∃ done, b.Ending records done .poll ∧ w.callsOf b = before ++ commitCalls done
  | .pausing =>
    ∃ done pending, b.Ending records done (.rewind pending) ∧
      w.callsOf b = before ++ commitCalls done ++ [.rewind (Offsets.start pending)]
  | .closing => ∃ done, b.Ending records done .close ∧ w.callsOf b = before ++ commitCalls done
  | .waiting | .closed => False

/-! ### Steps -/

section

variable {b' : BatchRun R W} {done begun begun' : List StreamRecord}
  {failures failures' signals signals' : List Bool}

/-- What else is noted comes behind. -/
theorem Tally.add (h : b.Tally done begun failures signals) (hbegun : b'.begun = b.begun ++ begun')
    (hfailures : b'.failures = b.failures ++ failures')
    (hsignals : b'.signals = b.signals ++ signals') :
    b'.Tally done (begun ++ begun') (failures ++ failures') (signals ++ signals') where
  begun := by rw [hbegun, h.begun, List.append_assoc]
  failures := by rw [hfailures, h.failures, List.append_assoc]
  signals := by rw [hsignals, h.signals, List.append_assoc]

/-- A record that did not fail is done. -/
theorem Tally.next {record : StreamRecord} (h : b.Tally done [record] [false] [false]) :
    b.Tally (done ++ [record]) [] [] [] where
  begun := by rw [h.begun, List.append_nil]
  failures := by rw [h.failures, List.length_append, List.length_singleton, List.replicate_succ',
    List.append_nil]
  signals := by rw [h.signals, List.length_append, List.length_singleton, List.replicate_succ',
    List.append_nil]

theorem Ending.congr {next : AfterCommit} (h : b.Ending records done next)
    (hbegun : b'.begun = b.begun) (hfailures : b'.failures = b.failures)
    (hsignals : b'.signals = b.signals) : b'.Ending records done next := by
  have htally {begun failures signals} (h : b.Tally done begun failures signals) :
      b'.Tally done begun failures signals :=
    ⟨hbegun ▸ h.begun, hfailures ▸ h.failures, hsignals ▸ h.signals⟩
  cases h with
  | completed hrecords h => exact .completed hrecords (htally h)
  | failed hrecords h => exact .failed hrecords (htally h)
  | interrupted hrecords h => exact .interrupted hrecords (htally h)

/-- An ending stays one where nothing is noted. -/
theorem Ending.kept {phase : WorkerPhase (Session R W)} {s : Session R W} {next : AfterCommit}
    (h : Ending records ⟨phase, s, begun, failures, signals⟩ done next)
    (phase' : WorkerPhase (Session R W)) (s' : Session R W) :
    Ending records ⟨phase', s', begun ++ [], failures ++ [], signals ++ []⟩ done next :=
  h.congr (List.append_nil _) (List.append_nil _) (List.append_nil _)

/-- Whatever the broker answers to a commit, it was called once. -/
theorem calls_of_commit {s s' : Session R W} {answer : Except Error Unit} (hdone : done ≠ [])
    (hcommit : (w.worker.consumer.commit (Offsets.behind done)).run s = (answer, s'))
    (hcalls : w.calls s.world = before) : w.calls s'.world = before ++ commitCalls done := by
  rw [w.commit _ _ _ _ hcommit, hcalls, commitCalls, if_neg hdone]

/-- After a commit it depends on the ending what comes next. -/
theorem Ending.standing {next : AfterCommit} (h : b.Ending records done next)
    (hphase : b.phase = Worker.afterCommit next)
    (hcalls : w.callsOf b = before ++ commitCalls done) : b.Standing w records before := by
  unfold Standing
  rw [hphase]
  cases next with
  | poll => exact ⟨done, h, hcalls⟩
  | rewind pending => exact ⟨done, h, hcalls⟩
  | close => exact ⟨done, h, hcalls⟩

end

/-- A step of a batch that is not over, after whatever others have done. -/
theorem Standing.advance (h : b.Standing w records before)
    (hrunning : Worker.outcome? b.phase = none) (turn : Turn R W)
    (hothers : ∀ s, w.calls (turn.others s).world = w.calls s.world) :
    (w.advance turn b).Standing w records before := by
  rcases b with ⟨phase, s₀, begun, failures, signals⟩
  rcases turn with ⟨signalled, others⟩
  obtain ⟨s, hs⟩ : ∃ s, s = others s₀ := ⟨_, rfl⟩
  have hworld : w.calls s.world = w.calls s₀.world := hs ▸ hothers s₀
  rcases hstep : (w.worker.step signalled phase).run s with ⟨phase', s'⟩
  have hadvance : w.advance ⟨signalled, others⟩ ⟨phase, s₀, begun, failures, signals⟩ =
      ⟨phase', s', begun ++ Worker.begunIn signalled phase,
        failures ++ w.worker.failedIn signalled s phase,
        signals ++ Worker.seenIn signalled phase⟩ := by
    simp only [Watched.advance, ← hs, hstep]
  have hstepped := w.worker.stepped signalled phase s
  rw [hstep] at hstepped
  rw [hadvance]
  dsimp only at hstepped
  -- every step adds to the tally what the invariant of its next phase asks for
  cases hstepped with
  | completed =>
    obtain ⟨hrecords, htally, hcalls⟩ := h
    exact ⟨.completed (hrecords.trans (List.append_nil _)) (htally.add rfl rfl rfl),
      hworld.trans hcalls⟩
  | interrupted =>
    obtain ⟨hrecords, htally, hcalls⟩ := h
    exact ⟨.interrupted hrecords (htally.add rfl rfl rfl), hworld.trans hcalls⟩
  | @skipped done record rest s hdelivery =>
    obtain ⟨hrecords, htally, hcalls⟩ := h
    have hfailed : w.worker.failedIn false s (.batch done (record :: rest)) = [false] := by
      simp only [Worker.failedIn, hdelivery]
      rfl
    refine ⟨?_, Tally.next ?_, hworld.trans hcalls⟩
    · rw [hrecords, List.append_assoc, List.singleton_append]
    · exact htally.add rfl (congrArg (failures ++ ·) hfailed) rfl
  | @faulty done record rest e s hdelivery =>
    obtain ⟨hrecords, htally, hcalls⟩ := h
    have hfailed : w.worker.failedIn false s (.batch done (record :: rest)) = [true] := by
      simp only [Worker.failedIn, hdelivery]
      rfl
    refine ⟨.failed hrecords ?_, hworld.trans hcalls⟩
    exact htally.add rfl (congrArg (failures ++ ·) hfailed) rfl
  | @dispatched done record rest typeName calls s hdelivery =>
    obtain ⟨hrecords, htally, hcalls⟩ := h
    have hfailed : w.worker.failedIn false s (.batch done (record :: rest)) = [] := by
      simp only [Worker.failedIn, hdelivery]
      rfl
    have hrespects := Registry.delivery_respects
      (Q := fun s s' : Session R W => w.calls s'.world = w.calls s.world)
      (fun _ => rfl) (fun hab hbc => hbc.trans hab) w.handlers hdelivery
    refine ⟨hrecords, ?_, hworld.trans hcalls, hrespects⟩
    exact htally.add rfl (congrArg (failures ++ ·) hfailed) rfl
  | @called _ done record rest typeName call calls s _ hrun =>
    obtain ⟨hrecords, htally, hcalls, hrespects⟩ := h
    have hfailed : w.worker.failedIn signalled s
        (.handling done record rest typeName (call :: calls)) = [] := by
      simp only [Worker.failedIn, hrun]
    have hkeep := (hrespects call List.mem_cons_self).run hrun
    refine ⟨hrecords, ?_, (hkeep.trans hworld).trans hcalls,
      fun c hc => hrespects c (List.mem_cons_of_mem _ hc)⟩
    exact htally.add rfl (congrArg (failures ++ ·) hfailed) rfl
  | @callFailed _ done record rest typeName call calls e s s' hrun =>
    obtain ⟨hrecords, htally, hcalls, hrespects⟩ := h
    have hfailed : w.worker.failedIn signalled s
        (.handling done record rest typeName (call :: calls)) = [true] := by
      simp only [Worker.failedIn, hrun]
    have hkeep := (hrespects call List.mem_cons_self).run hrun
    refine ⟨.failed hrecords ?_, (hkeep.trans hworld).trans hcalls⟩
    exact htally.add rfl (congrArg (failures ++ ·) hfailed) rfl
  | processed =>
    obtain ⟨hrecords, htally, hcalls, -⟩ := h
    refine ⟨?_, Tally.next (htally.add rfl rfl rfl), hworld.trans hcalls⟩
    rw [hrecords, List.append_assoc, List.singleton_append]
  | uncommitted _ next =>
    obtain ⟨hending, hcalls⟩ := h
    exact (hending.kept _ _).standing rfl ((hworld.trans hcalls).trans (List.append_nil _).symm)
  | committed _ next hdone hcommit =>
    obtain ⟨hending, hcalls⟩ := h
    have hcommitted := calls_of_commit hdone hcommit (hworld.trans hcalls)
    exact (hending.kept _ _).standing rfl hcommitted
  | commitFailed _ next hdone hcommit =>
    obtain ⟨hending, hcalls⟩ := h
    have hcommitted := calls_of_commit hdone hcommit (hworld.trans hcalls)
    exact (hending.kept _ _).standing rfl hcommitted
  | @rewound _ pending _ _ _ hrewind =>
    obtain ⟨done, hending, hcalls⟩ := h
    refine ⟨done, pending, hending.kept _ _, ?_⟩
    show w.calls _ = _
    rw [w.rewind _ _ _ _ hrewind, hworld]
    exact congrArg (· ++ _) hcalls
  | signalled => cases hrunning
  | unanswered => cases hrunning
  | pollFailed => cases hrunning
  | nothing => cases hrunning
  | delivered => cases hrunning
  | waiting => exact absurd h id
  | abandoned => exact absurd h id
  | pausing => cases hrunning
  | awoken => cases hrunning
  | closing => cases hrunning
  | closed => exact absurd h id

/-! ### The end -/

/-- How many steps the worker needs at most for a record. -/
def recordSteps (w : Worker D (Session R W)) (record : StreamRecord) : Nat :=
  match w.registry.delivery w.group record with
  | .deliver _ calls => calls.length + 2
  | _ => 1

/-- How many steps the worker needs at most until the batch is over. -/
def stepsLeft (w : Worker D (Session R W)) : WorkerPhase (Session R W) → Nat
  | .batch _ pending => pending.foldr (recordSteps w · + ·) 0 + 3
  | .handling _ _ rest _ calls => calls.length + rest.foldr (recordSteps w · + ·) 0 + 4
  | .committing _ _ => 2
  | .rewinding _ => 1
  | _ => 0

end BatchRun

namespace Worker

/-- A step of a batch that is not over brings its end nearer. -/
theorem Stepped.stepsLeft_lt {w : Worker D (Session R W)} {signalled : Bool}
    {phase phase' : WorkerPhase (Session R W)} {s s' : Session R W}
    (h : w.Stepped signalled phase s phase' s') (hrunning : 0 < BatchRun.stepsLeft w phase) :
    BatchRun.stepsLeft w phase' < BatchRun.stepsLeft w phase := by
  have hafter (next : AfterCommit) : BatchRun.stepsLeft w (afterCommit next) < 2 := by
    cases next with
    | poll => exact Nat.two_pos
    | rewind => exact Nat.one_lt_two
    | close => exact Nat.two_pos
  cases h with
  | completed => simp only [BatchRun.stepsLeft]; omega
  | interrupted => simp only [BatchRun.stepsLeft]; omega
  | skipped done rest s hdelivery =>
    simp only [BatchRun.stepsLeft, BatchRun.recordSteps, hdelivery, List.foldr_cons]
    omega
  | faulty => simp only [BatchRun.stepsLeft]; omega
  | dispatched done rest s hdelivery =>
    simp only [BatchRun.stepsLeft, BatchRun.recordSteps, hdelivery, List.foldr_cons]
    omega
  | called => simp only [BatchRun.stepsLeft, List.length_cons]; omega
  | callFailed => simp only [BatchRun.stepsLeft]; omega
  | processed => simp only [BatchRun.stepsLeft, List.length_nil]; omega
  | uncommitted => exact hafter _
  | committed => exact hafter _
  | commitFailed => exact hafter _
  | rewound => exact Nat.one_pos
  | _ => exact absurd hrunning (Nat.lt_irrefl 0)

end Worker

namespace BatchRun

section

variable {w : Watched D R W} {records : List StreamRecord} {before : List BrokerCall}
  {b : BatchRun R W}

theorem Standing.stepsLeft_pos (h : b.Standing w records before)
    (hrunning : Worker.outcome? b.phase = none) : 0 < stepsLeft w.worker b.phase := by
  rcases b with ⟨phase, s, begun, failures, signals⟩
  cases phase with
  | batch => exact Nat.succ_pos _
  | handling => exact Nat.succ_pos _
  | committing => exact Nat.two_pos
  | rewinding => exact Nat.one_pos
  | polling => cases hrunning
  | pausing => cases hrunning
  | closing => cases hrunning
  | waiting => exact h.elim
  | closed => exact h.elim

variable {s : Session R W} {turns : Nat → Turn R W}
  (hothers : ∀ n s, w.calls ((turns n).others s).world = w.calls s.world)

include hothers

/-- The invariant holds from the beginning of a batch to its end. -/
theorem standing_run {n : Nat}
    (hrunning : ∀ m < n, Worker.outcome? (w.run records s turns m).phase = none) :
    (w.run records s turns n).Standing w records (w.calls s.world) := by
  induction n with
  | zero => exact ⟨rfl, ⟨rfl, rfl, rfl⟩, rfl⟩
  | succ n ih =>
    have hstanding := ih fun m hm => hrunning m (Nat.lt_succ_of_lt hm)
    exact hstanding.advance (hrunning n (Nat.lt_succ_self n)) (turns n) (hothers n)

/-- A batch comes to its end. -/
theorem exists_end (records : List StreamRecord) (s : Session R W) :
    ∃ n, (∀ m < n, Worker.outcome? (w.run records s turns m).phase = none) ∧
      ∃ outcome, Worker.outcome? (w.run records s turns n).phase = some outcome := by
  -- every step before the end takes one from the steps that are left
  have hbound (n : Nat) : (∀ m < n, Worker.outcome? (w.run records s turns m).phase = none) →
      stepsLeft w.worker (w.run records s turns n).phase + n ≤
        stepsLeft w.worker (w.run records s turns 0).phase := by
    induction n with
    | zero => exact fun _ => Nat.le_refl _
    | succ n ih =>
      intro hrunning
      have hbefore : ∀ m < n, Worker.outcome? (w.run records s turns m).phase = none :=
        fun m hm => hrunning m (Nat.lt_succ_of_lt hm)
      have hpos := (standing_run hothers hbefore).stepsLeft_pos (hrunning n (Nat.lt_succ_self n))
      have hlt : stepsLeft w.worker (w.run records s turns (n + 1)).phase <
          stepsLeft w.worker (w.run records s turns n).phase :=
        (w.worker.stepped _ _ _).stepsLeft_lt hpos
      have := ih hbefore
      omega
  have hex : ∃ n, Worker.outcome? (w.run records s turns n).phase ≠ none := by
    by_contra hnone
    have hrunning (n : Nat) : Worker.outcome? (w.run records s turns n).phase = none :=
      not_not.1 (not_exists.1 hnone n)
    have := hbound (stepsLeft w.worker (w.run records s turns 0).phase + 1) fun m _ => hrunning m
    omega
  refine ⟨Nat.find hex, fun m hm => not_not.1 (Nat.find_min hex hm), ?_⟩
  exact Option.ne_none_iff_exists'.1 (Nat.find_spec hex)

end

/-- How a batch is divided that first fails at `k` and before whose record `i` the signal
is first seen. -/
structure Divided (w : Watched D R W) (records : List StreamRecord) (before : List BrokerCall)
    (b : BatchRun R W) (k i : Nat) (committed positions : Offsets) : Prop where
  outcome : Worker.outcome? b.phase = some
    (if k < i then .failed else if i < records.length then .interrupted else .completed)
  begun : b.begun = records.take (min k i) ++ if k < i then records[k]?.toList else []
  /-- There is one commit at most, and a rewind after a failure. -/
  calls : w.callsOf b = before ++ (if min k i = 0 then [] else [.commit committed]) ++
    if k < i then [.rewind positions] else []
  committed_sorted : committed.Sorted
  committed_at : ∀ p, committed.at? p =
    (inPartition p (records.take (min k i))).getLast?.map fun x => x.offset + 1
  positions_sorted : positions.Sorted
  positions_at : ∀ p, positions.at? p =
    (inPartition p (records.drop k)).head?.map fun x => x.offset
  /-- What is done is what is below the committed offsets, and what is pending is what
  is at or above the positions. -/
  divided : k < i → InOrder records → ∀ j x, records[j]? = some x →
    (j < k ∧ x.Below committed ∧ ¬x.AtOrAbove positions) ∨
      (k ≤ j ∧ ¬x.Below committed ∧ x.AtOrAbove positions)

section

variable {w : Watched D R W} {records : List StreamRecord} {before : List BrokerCall}
  {b : BatchRun R W} {done pending : List StreamRecord} {k i : Nat}

/-- The offsets are those behind what is done, and at the start of what is pending. -/
theorem divided_of (hrecords : records = done ++ pending) (hdone : min k i = done.length)
    (houtcome : Worker.outcome? b.phase = some
      (if k < i then .failed else if i < records.length then .interrupted else .completed))
    (hbegun : b.begun = done ++ if k < i then records[k]?.toList else [])
    (hcalls : w.callsOf b = before ++ commitCalls done ++
      if k < i then [.rewind (Offsets.start (records.drop k))] else []) :
    ∃ committed positions, Divided w records before b k i committed positions := by
  have htake : records.take (min k i) = done := by
    rw [hdone, hrecords, List.take_left]
  refine ⟨Offsets.behind done, Offsets.start (records.drop k), houtcome, htake.symm ▸ hbegun, ?_,
    Offsets.sorted_behind _, fun p => htake.symm ▸ Offsets.at?_behind done p,
    Offsets.sorted_start _, Offsets.at?_start _, fun hlt horder j x hx => ?_⟩
  · rw [hcalls, commitCalls]
    simp only [hdone, List.length_eq_zero_iff]
  · rw [Nat.min_eq_left (Nat.le_of_lt hlt)] at hdone
    have hdrop : records.drop k = pending := by rw [hdone, hrecords, List.drop_left]
    rw [hrecords] at horder hx
    rw [hdrop]
    by_cases hj : j < k
    · rw [List.getElem?_append_left (hdone ▸ hj)] at hx
      exact .inl ⟨hj, horder.below (List.mem_of_getElem? hx)⟩
    · have hle := Nat.le_of_not_lt hj
      rw [List.getElem?_append_right (hdone ▸ hle)] at hx
      exact .inr ⟨hle, horder.atOrAbove (List.mem_of_getElem? hx)⟩

/-- Where a batch is over, it has an ending, and all calls are made. -/
theorem Standing.ending (h : b.Standing w records before) {outcome : BatchOutcome}
    (hend : Worker.outcome? b.phase = some outcome) :
    ∃ done next, b.Ending records done next ∧ outcome = outcomeOf next ∧
      w.callsOf b = before ++ commitCalls done ++ rewindCalls next := by
  rcases b with ⟨phase, s, begun, failures, signals⟩
  cases phase with
  | polling =>
    cases hend
    obtain ⟨done, hending, hcalls⟩ := h
    exact ⟨done, _, hending, rfl, hcalls.trans (List.append_nil _).symm⟩
  | pausing =>
    cases hend
    obtain ⟨done, pending, hending, hcalls⟩ := h
    exact ⟨done, _, hending, rfl, hcalls⟩
  | closing =>
    cases hend
    obtain ⟨done, hending, hcalls⟩ := h
    exact ⟨done, _, hending, rfl, hcalls.trans (List.append_nil _).symm⟩
  | _ => cases hend

/-- Where a batch is over, it is divided at the first failure, or where the signal was
first seen. -/
theorem Standing.divided (h : b.Standing w records before) {outcome : BatchOutcome}
    (hend : Worker.outcome? b.phase = some outcome) :
    (∃ k, FirstAt records.length b.failures k) ∧ (∃ i, FirstAt records.length b.signals i) ∧
      ∀ k i, FirstAt records.length b.failures k → FirstAt records.length b.signals i →
        ∃ committed positions, Divided w records before b k i committed positions := by
  obtain ⟨done, next, hending, rfl, hcalls⟩ := h.ending hend
  cases hending with
  | completed hrecords htally =>
    have hlength : records.length = done.length := congrArg List.length hrecords
    rw [htally.failures, htally.signals, List.append_nil]
    simp only [firstAt_replicate, hlength]
    refine ⟨⟨_, Nat.le_refl _, Nat.le_refl _⟩, ⟨_, Nat.le_refl _, Nat.le_refl _⟩, ?_⟩
    -- nothing was noted beyond the batch, so both are behind it
    rintro k i ⟨hk, hk'⟩ ⟨hi, hi'⟩
    have hki : ¬k < i := by omega
    have hi'' : ¬i < records.length := by omega
    apply divided_of (hrecords.trans (List.append_nil _).symm) (by omega)
    · rw [if_neg hki, if_neg hi'', hend]
      rfl
    · rw [if_neg hki, htally.begun]
    · rw [if_neg hki, hcalls]
      rfl
  | @failed record rest hrecords htally =>
    have hlength : records.length = done.length + rest.length + 1 := by
      rw [hrecords, List.length_append, List.length_cons, Nat.add_assoc]
    rw [htally.failures, htally.signals, ← List.replicate_succ']
    simp only [firstAt_replicate, firstAt_append_true]
    refine ⟨⟨_, rfl, by omega⟩, ⟨_, Nat.le_refl _, by omega⟩, ?_⟩
    -- the signal was looked at once more, before the record that failed
    rintro k i ⟨rfl, hk⟩ ⟨hi, hi'⟩
    have hki : done.length < i := hi
    apply divided_of hrecords (Nat.min_eq_left (Nat.le_of_lt hki))
    · rw [if_pos hki, hend]
      rfl
    · rw [if_pos hki, htally.begun, hrecords, List.getElem?_append_right (Nat.le_refl _),
        Nat.sub_self]
      rfl
    · rw [if_pos hki, hcalls, hrecords, List.drop_left]
      rfl
  | @interrupted record rest hrecords htally =>
    have hlength : records.length = done.length + rest.length + 1 := by
      rw [hrecords, List.length_append, List.length_cons, Nat.add_assoc]
    rw [htally.failures, htally.signals, List.append_nil]
    simp only [firstAt_replicate, firstAt_append_true]
    refine ⟨⟨_, Nat.le_refl _, by omega⟩, ⟨_, rfl, by omega⟩, ?_⟩
    rintro k i ⟨hk, hk'⟩ ⟨rfl, hi⟩
    have hki : ¬k < done.length := Nat.not_lt.2 hk
    have hi' : done.length < records.length := by omega
    apply divided_of hrecords (Nat.min_eq_right hk)
    · rw [if_neg hki, if_pos hi', hend]
      rfl
    · rw [if_neg hki, htally.begun]
    · rw [if_neg hki, hcalls]
      rfl

end

/-- **How a batch is divided.**  Take any batch, and let others do what they like between
the steps of the worker, except to use its connection.  The signal may come at any time.
The batch comes to an end.  Let `k` be the first record that failed, and `i` the one before
which the signal was first seen, or the length of the batch if there is none.

* The outcome is a failure if `k < i`, otherwise an interruption if `i` is in the batch.
* The records begun are those before both `k` and `i`, in order, and `k` if `k < i`.
* The offsets behind what is done are committed in one call, if anything is done.
* After a failure the partitions of all records from `k` on are moved to the first of
  them, in one call, and there is no such call otherwise.
* In a batch that is in order, the records below the committed offsets are those that are
  done, and the others are those at or above the positions. -/
theorem batch_divided (w : Watched D R W) (records : List StreamRecord) (s : Session R W)
    (turns : Nat → Turn R W)
    (hothers : ∀ n s, w.calls ((turns n).others s).world = w.calls s.world) :
    ∃ n, (∀ m < n, Worker.outcome? (w.run records s turns m).phase = none) ∧
      (∃ k, FirstAt records.length (w.run records s turns n).failures k) ∧
      (∃ i, FirstAt records.length (w.run records s turns n).signals i) ∧
      ∀ k i, FirstAt records.length (w.run records s turns n).failures k →
        FirstAt records.length (w.run records s turns n).signals i →
        ∃ committed positions,
          Divided w records (w.calls s.world) (w.run records s turns n) k i committed
            positions := by
  obtain ⟨n, hrunning, outcome, hend⟩ := exists_end hothers records s
  exact ⟨n, hrunning, (standing_run hothers hrunning).divided hend⟩

/-- A worker of the drivers' group, the world of which is the list of its calls. -/
def listedWorker : Watched (Driver.beside Bench.domain) Driver.ReadModel (List BrokerCall) where
  worker :=
    { registry := Driver.registry Driver.newYear
      config := .standard
      group := Driver.groupName
      id := 0
      consumer :=
        { poll := fun _ _ => pure none
          commit := fun offsets s => (.ok (), { s with world := s.world ++ [.commit offsets] })
          rewind := fun positions s => (.ok (), { s with world := s.world ++ [.rewind positions] })
          close := pure (.ok ()) } }
  calls world := world
  commit := by
    intro offsets answer s s' hcommit
    cases hcommit
    rfl
  rewind := by
    intro positions answer s s' hrewind
    cases hrewind
    rfl
  handlers := Driver.streamHandlers_keep_world Driver.newYear

/-- Six records of three partitions, all of which are deleted but the fourth, which
cannot be read. -/
def mixedBatch : List StreamRecord :=
  [⟨"events", 0, 4, none⟩, ⟨"events", 1, 7, none⟩, ⟨"events", 0, 6, none⟩,
   ⟨"events", 1, 8, some ByteArray.empty⟩, ⟨"audit", 0, 0, none⟩, ⟨"events", 0, 7, none⟩]

/-- The worker in that batch, while others do nothing and there is no signal. -/
def mixedRun : Nat → BatchRun Driver.ReadModel (List BrokerCall) :=
  listedWorker.run mixedBatch
    (Session.start ⟨some Table.empty, some Table.empty, some Table.empty⟩ []) fun _ => ⟨false, id⟩

/-- Two partitions are committed, and they are moved back with a third one. -/
theorem mixed_batch_divided :
    ∃ n, (mixedRun n).session.world =
        [.commit [(⟨"events", 0⟩, 7), (⟨"events", 1⟩, 8)],
         .rewind [(⟨"audit", 0⟩, 0), (⟨"events", 0⟩, 7), (⟨"events", 1⟩, 8)]] ∧
      ∀ j x, mixedBatch[j]? = some x →
        (j < 3 ∧ x.Below [(⟨"events", 0⟩, 7), (⟨"events", 1⟩, 8)] ∧
            ¬x.AtOrAbove [(⟨"audit", 0⟩, 0), (⟨"events", 0⟩, 7), (⟨"events", 1⟩, 8)]) ∨
          (3 ≤ j ∧ ¬x.Below [(⟨"events", 0⟩, 7), (⟨"events", 1⟩, 8)] ∧
            x.AtOrAbove [(⟨"audit", 0⟩, 0), (⟨"events", 0⟩, 7), (⟨"events", 1⟩, 8)]) := by
  obtain ⟨n, hrunning, ⟨k, hk⟩, ⟨i, hi⟩, hdivided⟩ := batch_divided listedWorker mixedBatch
    (Session.start ⟨some Table.empty, some Table.empty, some Table.empty⟩ [])
    (fun _ => ⟨false, id⟩) fun _ _ => rfl
  obtain ⟨committed, positions, h⟩ := hdivided k i hk hi
  -- three records, the failure, the commit and the rewind
  have hn : n = 6 := by
    rcases Nat.lt_trichotomy n 6 with hlt | heq | hgt
    · have hnone : ∀ m < 6, Worker.outcome? (mixedRun m).phase = none := by decide
      exact absurd (h.outcome.symm.trans (hnone n hlt)) (Option.some_ne_none _)
    · exact heq
    · exact absurd (hrunning 6 hgt) (by decide)
  subst hn
  obtain ⟨rfl, -⟩ : k = 3 ∧ k ≤ 6 := firstAt_append_true.1 hk
  obtain ⟨hi, -⟩ : 4 ≤ i ∧ i ≤ 6 := firstAt_replicate.1 hi
  have hlt : 3 < i := hi
  have hcalls := h.calls
  rw [Nat.min_eq_left (Nat.le_of_lt hlt), if_pos hlt] at hcalls
  cases hcalls
  exact ⟨6, rfl, h.divided hlt (by decide)⟩

end BatchRun

end Chronicle
