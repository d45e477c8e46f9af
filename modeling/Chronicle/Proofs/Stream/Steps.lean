/-
Chronicle/Proofs/Stream/Steps.lean

What a step of a worker can do.

`Worker.Stepped` lists the cases, with what the broker and the handlers answered
and with the metrics that were counted; `Worker.stepped` shows that there are no
others.  What holds of every step is proved by these cases, without a look at
`Worker.step`.
-/
import Chronicle.Proofs.Task
import Chronicle.Stream.Worker

namespace Chronicle.Worker

variable {D : Domain} {R W : Type}

/-- The committed offsets as they are counted. -/
def measuredCommits (w : Worker D (Session R W)) (offsets : Offsets) (m : Metrics) : Metrics :=
  offsets.foldl (fun m o => m.recordCommit w.group o.1.topic o.1.partition o.2) m

/-- The steps of a worker, from a phase and a session to the next ones. -/
inductive Stepped (w : Worker D (Session R W)) : Bool → WorkerPhase (Session R W) → Session R W →
    WorkerPhase (Session R W) → Session R W → Prop
  | signalled (s : Session R W) : Stepped w true .polling s .closing s
  | unanswered {s s' : Session R W} :
      (w.consumer.poll w.config.pollTimeout w.config.maxPollRecords).run s = (none, s') →
      Stepped w false .polling s .waiting s'
  | pollFailed {e : Error} {s s' : Session R W} :
      (w.consumer.poll w.config.pollTimeout w.config.maxPollRecords).run s =
        (some (.error e), s') →
      Stepped w false .polling s .pausing
        { s' with metrics := (s'.metrics.recordFailed w.group e.kind).recordBackoff w.group }
  | nothing {s s' : Session R W} :
      (w.consumer.poll w.config.pollTimeout w.config.maxPollRecords).run s =
        (some (.ok []), s') →
      Stepped w false .polling s .polling s'
  | delivered {records : List StreamRecord} {s s' : Session R W} : records ≠ [] →
      (w.consumer.poll w.config.pollTimeout w.config.maxPollRecords).run s =
        (some (.ok records), s') →
      Stepped w false .polling s (.batch [] records) s'
  | waiting (s : Session R W) : Stepped w false .waiting s .waiting s
  | abandoned (s : Session R W) : Stepped w true .waiting s .closing s
  | completed (signalled : Bool) (done : List StreamRecord) (s : Session R W) :
      Stepped w signalled (.batch done []) s (.committing done .poll) s
  | interrupted (done : List StreamRecord) (record : StreamRecord) (rest : List StreamRecord)
      (s : Session R W) :
      Stepped w true (.batch done (record :: rest)) s (.committing done .close) s
  | skipped (done : List StreamRecord) {record : StreamRecord} (rest : List StreamRecord)
      (s : Session R W) : w.registry.delivery w.group record = .skip →
      Stepped w false (.batch done (record :: rest)) s (.batch (done ++ [record]) rest) s
  | faulty (done : List StreamRecord) {record : StreamRecord} (rest : List StreamRecord)
      {e : Error} (s : Session R W) : w.registry.delivery w.group record = .fault e →
      Stepped w false (.batch done (record :: rest)) s (.committing done (.rewind (record :: rest)))
        { s with metrics := s.metrics.recordFailed w.group e.kind }
  | dispatched (done : List StreamRecord) {record : StreamRecord} (rest : List StreamRecord)
      {typeName : String} {calls : List (Task (Session R W) Unit)} (s : Session R W) :
      w.registry.delivery w.group record = .deliver typeName calls →
      Stepped w false (.batch done (record :: rest)) s (.handling done record rest typeName calls) s
  | called (signalled : Bool) (done : List StreamRecord) (record : StreamRecord)
      (rest : List StreamRecord) (typeName : String) {call : Task (Session R W) Unit}
      (calls : List (Task (Session R W) Unit)) {s s' : Session R W} : call.run s = (.ok (), s') →
      Stepped w signalled (.handling done record rest typeName (call :: calls)) s
        (.handling done record rest typeName calls) s'
  | callFailed (signalled : Bool) (done : List StreamRecord) (record : StreamRecord)
      (rest : List StreamRecord) (typeName : String) {call : Task (Session R W) Unit}
      (calls : List (Task (Session R W) Unit)) {e : Error} {s s' : Session R W} :
      call.run s = (.error e, s') →
      Stepped w signalled (.handling done record rest typeName (call :: calls)) s
        (.committing done (.rewind (record :: rest)))
        { s' with metrics := s'.metrics.recordFailed w.group e.kind }
  | processed (signalled : Bool) (done : List StreamRecord) (record : StreamRecord)
      (rest : List StreamRecord) (typeName : String) (s : Session R W) :
      Stepped w signalled (.handling done record rest typeName []) s
        (.batch (done ++ [record]) rest)
        { s with metrics := s.metrics.recordProcessed w.group typeName }
  | uncommitted (signalled : Bool) (next : AfterCommit) (s : Session R W) :
      Stepped w signalled (.committing [] next) s (afterCommit next) s
  | committed (signalled : Bool) {done : List StreamRecord} (next : AfterCommit)
      {s s' : Session R W} : done ≠ [] →
      (w.consumer.commit (Offsets.behind done)).run s = (.ok (), s') →
      Stepped w signalled (.committing done next) s (afterCommit next)
        { s' with metrics := w.measuredCommits (Offsets.behind done) s'.metrics }
  | commitFailed (signalled : Bool) {done : List StreamRecord} (next : AfterCommit) {e : Error}
      {s s' : Session R W} : done ≠ [] →
      (w.consumer.commit (Offsets.behind done)).run s = (.error e, s') →
      Stepped w signalled (.committing done next) s (afterCommit next) s'
  | rewound (signalled : Bool) {pending : List StreamRecord} {answer : Except Error Unit}
      {s s' : Session R W} : (w.consumer.rewind (Offsets.start pending)).run s = (answer, s') →
      Stepped w signalled (.rewinding pending) s .pausing
        { s' with metrics := s'.metrics.recordBackoff w.group }
  | pausing (s : Session R W) : Stepped w false .pausing s .pausing s
  | awoken (s : Session R W) : Stepped w true .pausing s .polling s
  | closing (signalled : Bool) {answer : Except Error Unit} {s s' : Session R W} :
      w.consumer.close.run s = (answer, s') → Stepped w signalled .closing s .closed s'
  | closed (signalled : Bool) (s : Session R W) : Stepped w signalled .closed s .closed s

variable (w : Worker D (Session R W))

theorem stepped_polling (s : Session R W) :
    w.Stepped false .polling s (w.poll.run s).1 (w.poll.run s).2 := by
  rcases hpoll : (w.consumer.poll w.config.pollTimeout w.config.maxPollRecords).run s with
    ⟨answer, s'⟩
  have hpoll' : w.consumer.poll w.config.pollTimeout w.config.maxPollRecords s = (answer, s') :=
    hpoll
  simp only [poll, StateT.run, bind_apply, hpoll']
  rcases answer with _ | ⟨e | records⟩
  · exact .unanswered hpoll
  · exact .pollFailed hpoll
  · rcases records with _ | ⟨record, records⟩
    · exact .nothing hpoll
    · exact .delivered (List.cons_ne_nil _ _) hpoll

theorem stepped_batch (done rest : List StreamRecord) (record : StreamRecord)
    (s : Session R W) :
    w.Stepped false (.batch done (record :: rest)) s ((w.next done (record :: rest)).run s).1
      ((w.next done (record :: rest)).run s).2 := by
  rcases h : w.registry.delivery w.group record with _ | e | ⟨typeName, calls⟩
  · simp only [next, h]
    exact .skipped done rest s h
  · simp only [next, h]
    exact .faulty done rest s h
  · simp only [next, h]
    exact .dispatched done rest s h

theorem stepped_handling (signalled : Bool) (done rest : List StreamRecord)
    (record : StreamRecord) (typeName : String) (calls : List (Task (Session R W) Unit))
    (s : Session R W) :
    w.Stepped signalled (.handling done record rest typeName calls) s
      ((w.handle done record rest typeName calls).run s).1
      ((w.handle done record rest typeName calls).run s).2 := by
  rcases calls with _ | ⟨call, calls⟩
  · exact .processed signalled done record rest typeName s
  · rcases hrun : call.run s with ⟨answer, s'⟩
    have hrun' : ExceptT.run call s = (answer, s') := hrun
    simp only [handle, StateT.run, bind_apply, hrun']
    rcases answer with e | _
    · exact .callFailed signalled done record rest typeName calls hrun
    · exact .called signalled done record rest typeName calls hrun

theorem stepped_committing (signalled : Bool) (done : List StreamRecord) (next : AfterCommit)
    (s : Session R W) :
    w.Stepped signalled (.committing done next) s (afterCommit next)
      ((w.commit done).run s).2 := by
  rcases done with _ | ⟨record, done⟩
  · exact .uncommitted signalled next s
  · rcases hcommit : (w.consumer.commit (Offsets.behind (record :: done))).run s with ⟨answer, s'⟩
    have hcommit' : w.consumer.commit (Offsets.behind (record :: done)) s = (answer, s') := hcommit
    simp only [commit, List.isEmpty_cons, Bool.not_false, if_true, StateT.run, bind_apply, hcommit']
    rcases answer with e | _
    · exact .commitFailed signalled next (List.cons_ne_nil _ _) hcommit
    · have hmeasured := Session.run_forM_measure
        (fun o m => m.recordCommit w.group o.1.topic o.1.partition o.2)
        (Offsets.behind (record :: done)) s'
      rw [StateT.run] at hmeasured
      dsimp only
      rw [hmeasured]
      exact .committed signalled next (List.cons_ne_nil _ _) hcommit

/-- Every step is one of the cases. -/
theorem stepped (signalled : Bool) (phase : WorkerPhase (Session R W)) (s : Session R W) :
    w.Stepped signalled phase s ((w.step signalled phase).run s).1
      ((w.step signalled phase).run s).2 := by
  rcases phase with _ | _ | ⟨done, pending⟩ | ⟨done, record, rest, typeName, calls⟩ |
    ⟨done, next⟩ | pending | _ | _ | _
  · rcases signalled with _ | _
    · exact w.stepped_polling s
    · exact .signalled s
  · rcases signalled with _ | _
    · exact .waiting s
    · exact .abandoned s
  · rcases pending with _ | ⟨record, rest⟩
    · exact .completed signalled done s
    · rcases signalled with _ | _
      · exact w.stepped_batch done rest record s
      · exact .interrupted done record rest s
  · exact w.stepped_handling signalled done rest record typeName calls s
  · exact w.stepped_committing signalled done next s
  · rcases hrewind : (w.consumer.rewind (Offsets.start pending)).run s with ⟨answer, s'⟩
    have hrewind' : w.consumer.rewind (Offsets.start pending) s = (answer, s') := hrewind
    simp only [step, StateT.run, bind_apply, hrewind']
    exact .rewound signalled hrewind
  · rcases signalled with _ | _
    · exact .pausing s
    · exact .awoken s
  · rcases hclose : w.consumer.close.run s with ⟨answer, s'⟩
    have hclose' : w.consumer.close s = (answer, s') := hclose
    simp only [step, StateT.run, bind_apply, hclose']
    exact .closing signalled hclose
  · exact .closed signalled s

end Chronicle.Worker
