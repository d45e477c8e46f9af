/-
Chronicle/Proofs/Stream/Tally.lean

The metrics of streams, and what has happened to a worker.

An `Account` is how far a worker has come, with a record of the polls and the records
that have failed, of what was processed, and of the offsets that were committed.  Every
failure is counted once when it happens and followed by one pause, so that for some
phases a pause is still owed (`Worker.owed`): from the failure of a record, through the
commit and the rewind, to the pause itself.

Label values are told apart by the hash of their texts one after another, without a mark
between them.  Records of event types that share a hash are counted together.  Partitions
whose topics and numbers read the same share the gauge of committed offsets
(`Account.shared_gauge`).

Main result: `Account.tallied_reachable`, whenever the worker is about to poll and when
it is closed.
-/
import Chronicle.Proofs.Metrics
import Chronicle.Proofs.Stream.Shutdown

namespace Chronicle

variable {D : Domain} {R W : Type}

/-! ### The families of streams -/

/-- The families in which records are counted say the same. -/
structure Metrics.SameStreams (m m' : Metrics) : Prop where
  processed : m'.processed = m.processed
  failed : m'.failed = m.failed
  backoffs : m'.backoffs = m.backoffs
  committed : m'.committed = m.committed

theorem Metrics.SameStreams.refl (m : Metrics) : m.SameStreams m := ⟨rfl, rfl, rfl, rfl⟩

theorem Metrics.SameStreams.trans {m m' m'' : Metrics} (h : m.SameStreams m')
    (h' : m'.SameStreams m'') : m.SameStreams m'' :=
  ⟨h'.processed.trans h.processed, h'.failed.trans h.failed, h'.backoffs.trans h.backoffs,
    h'.committed.trans h.committed⟩

namespace Session

/-- No record is counted. -/
def CountsNoRecord (s s' : Session R W) : Prop := s.metrics.SameStreams s'.metrics

theorem CountsNoRecord.refl (s : Session R W) : s.CountsNoRecord s := Metrics.SameStreams.refl _

theorem CountsNoRecord.trans {s s' s'' : Session R W} (h : s.CountsNoRecord s')
    (h' : s'.CountsNoRecord s'') : s.CountsNoRecord s'' := Metrics.SameStreams.trans h h'

end Session

/-! ### Partitions in the gauge -/

/-- The labels of a partition in the gauge of committed offsets. -/
def TopicPartition.labels (group : String) (p : TopicPartition) : List String :=
  [group, p.topic, s!"{p.partition}"]

/-- Partitions share the gauge if their topics and numbers read the same. -/
theorem TopicPartition.key_labels (group : String) {p q : TopicPartition}
    (h : p.topic ++ s!"{p.partition}" = q.topic ++ s!"{q.partition}") :
    Series.key (p.labels group) = Series.key (q.labels group) := by
  refine Series.key_of_join_eq ?_
  simp only [labels, String.join_cons, String.join_nil, String.append_empty, h]

/-! ### Records of a type -/

namespace Registry

variable {σ : Type}

/-- The type of the event of a record, if it carries one and the group handles it. -/
def handledType? (r : Registry D σ) (group : String) (record : StreamRecord) : Option String :=
  match record.value with
  | none => none
  | some bytes =>
    match Envelope.decode bytes with
    | .ok (some env) => if r.handles group env.typeName then some env.typeName else none
    | _ => none

variable {r : Registry D σ} {group : String} {record : StreamRecord}

theorem handledType?_of_skip (h : r.delivery group record = .skip) :
    r.handledType? group record = none := by
  rcases hvalue : record.value with _ | bytes
  · simp only [handledType?, hvalue]
  · rcases hdecode : Envelope.decode bytes with e | _ | env
    · simp only [handledType?, hvalue, hdecode]
    · simp only [handledType?, hvalue, hdecode]
    · simp only [delivery, hvalue, hdecode, deliver] at h
      simp only [handledType?, hvalue, hdecode]
      split at h
      · split at h <;> cases h
      · rename_i hhandles
        rw [if_neg hhandles]

theorem handledType?_of_deliver {typeName : String} {calls : List (Task σ Unit)}
    (h : r.delivery group record = .deliver typeName calls) :
    r.handledType? group record = some typeName := by
  rcases hvalue : record.value with _ | bytes
  · simp only [delivery, hvalue] at h
    cases h
  · rcases hdecode : Envelope.decode bytes with e | _ | env
    · simp only [delivery, hvalue, hdecode] at h
      cases h
    · simp only [delivery, hvalue, hdecode] at h
      cases h
    · simp only [delivery, hvalue, hdecode, deliver] at h
      simp only [handledType?, hvalue, hdecode]
      split at h
      · rename_i hhandles
        rw [if_pos hhandles]
        split at h
        · cases h
        · cases h
        · cases h
          rfl
      · cases h

end Registry

/-! ### What a step counts -/

namespace Worker

/-- A worker whose consumer and whose handlers leave it to the worker to count. -/
structure Counts (w : Worker D (Session R W)) : Prop where
  poll : ∀ timeout limit answer (s s' : Session R W),
    (w.consumer.poll timeout limit).run s = (answer, s') → s.CountsNoRecord s'
  commit : ∀ offsets answer (s s' : Session R W),
    (w.consumer.commit offsets).run s = (answer, s') → s.CountsNoRecord s'
  rewind : ∀ positions answer (s s' : Session R W),
    (w.consumer.rewind positions).run s = (answer, s') → s.CountsNoRecord s'
  close : ∀ answer (s s' : Session R W), w.consumer.close.run s = (answer, s') →
    s.CountsNoRecord s'
  handlers : ∀ typeName, ∀ h ∈ w.registry.streamHandlers w.group typeName,
    ∀ values event, (h.2.run values event).Respects Session.CountsNoRecord

/-- The polls that fail in a step, by what the consumer answers. -/
def failedPollsIn (w : Worker D (Session R W)) (signalled : Bool) (s : Session R W) :
    WorkerPhase (Session R W) → Nat
  | .polling =>
    if signalled then 0
    else
      match ((w.consumer.poll w.config.pollTimeout w.config.maxPollRecords).run s).1 with
      | some (.error _) => 1
      | _ => 0
  | _ => 0

/-- The pauses that are still to come for what has failed. -/
def owed {σ : Type} : WorkerPhase σ → Nat
  | .committing _ (.rewind _) => 1
  | .rewinding _ => 1
  | _ => 0

/-- The record has a type that is counted under the key of a type. -/
def CountedAs (w : Worker D (Session R W)) (typeName : String) (record : StreamRecord) : Bool :=
  (w.registry.handledType? w.group record).any fun t =>
    Series.key [w.group, t] == Series.key [w.group, typeName]

/-- What is known of a phase: the handlers that are called are those of the record, and
count nothing themselves. -/
def Known (w : Worker D (Session R W)) : WorkerPhase (Session R W) → Prop
  | .handling _ record _ typeName calls =>
    w.registry.handledType? w.group record = some typeName ∧
      ∀ call ∈ calls, call.Respects Session.CountsNoRecord
  | _ => True

/-- What is counted in a step, and what is owed after it. -/
structure Tells (w : Worker D (Session R W)) (signalled : Bool)
    (phase : WorkerPhase (Session R W)) (s : Session R W) (phase' : WorkerPhase (Session R W))
    (s' : Session R W) : Prop where
  /-- One reason for every failure. -/
  failed : ∃ reasons : List String,
    reasons.length = w.failedPollsIn signalled s phase + (givenUpIn phase phase').length ∧
    s'.metrics.failed =
      reasons.foldl (fun m reason => m.increment [w.group, reason]) s.metrics.failed
  backoffs : s'.metrics.backoffs.count [w.group] + owed phase' =
    s.metrics.backoffs.count [w.group] + owed phase +
      (w.failedPollsIn signalled s phase + (givenUpIn phase phase').length)
  processed : ∀ typeName, s'.metrics.processed.count [w.group, typeName] =
    s.metrics.processed.count [w.group, typeName] +
      (processedIn phase phase').countP (w.CountedAs typeName)
  committed : s'.metrics.committed = (w.committedIn s phase).foldl
    (fun m o => m.update (o.1.labels w.group) 0 fun _ => o.2) s.metrics.committed

section

variable {w : Worker D (Session R W)} {signalled : Bool} {phase phase' : WorkerPhase (Session R W)}
  {s s' : Session R W}

/-- A step in which nothing fails and nothing is processed or committed. -/
theorem Tells.quiet (hsame : s.CountsNoRecord s') (hpolls : w.failedPollsIn signalled s phase = 0)
    (hgiven : givenUpIn phase phase' = []) (howed : owed phase' = owed phase)
    (hprocessed : processedIn phase phase' = []) (hcommitted : w.committedIn s phase = []) :
    w.Tells signalled phase s phase' s' where
  failed := ⟨[], by rw [hpolls, hgiven]; rfl, hsame.failed⟩
  backoffs := by
    rw [hsame.backoffs, hpolls, hgiven, howed]
    rfl
  processed typeName := by
    rw [hsame.processed, hprocessed]
    rfl
  committed := by
    rw [hsame.committed, hcommitted]
    rfl

theorem measuredCommits_eq (w : Worker D (Session R W)) (offsets : Offsets) (m : Metrics) :
    w.measuredCommits offsets m = { m with
      committed := offsets.foldl
        (fun m o => m.update (o.1.labels w.group) 0 fun _ => o.2) m.committed } := by
  induction offsets generalizing m with
  | nil => rfl
  | cons o os ih => exact ih (m.recordCommit w.group o.1.topic o.1.partition o.2)

theorem owed_afterCommit (done : List StreamRecord) (next : AfterCommit) :
    owed (afterCommit (R := R) (W := W) next) =
      owed (.committing done next : WorkerPhase (Session R W)) := by
  cases next <;> rfl

theorem givenUpIn_afterCommit (done : List StreamRecord) (next : AfterCommit) :
    givenUpIn (.committing done next : WorkerPhase (Session R W)) (afterCommit next) = [] := by
  cases next <;> rfl

theorem processedIn_afterCommit (done : List StreamRecord) (next : AfterCommit) :
    processedIn (.committing done next : WorkerPhase (Session R W)) (afterCommit next) = [] := by
  cases next <;> rfl

/-- The handlers of a delivery are known. -/
theorem Known.of_deliver (hw : w.Counts) {record : StreamRecord} {typeName : String}
    {calls : List (Task (Session R W) Unit)}
    (h : w.registry.delivery w.group record = .deliver typeName calls)
    (done rest : List StreamRecord) : w.Known (.handling done record rest typeName calls) :=
  ⟨Registry.handledType?_of_deliver h,
    Registry.delivery_respects Session.CountsNoRecord.refl Session.CountsNoRecord.trans
      hw.handlers h⟩

/-- Whatever a step does, it counts it. -/
theorem Stepped.tells (hw : w.Counts) (hphase : w.Known phase)
    (h : w.Stepped signalled phase s phase' s') : w.Tells signalled phase s phase' s' := by
  cases h with
  | signalled => exact .quiet (.refl s) rfl rfl rfl rfl rfl
  | unanswered hpoll =>
    exact .quiet (hw.poll _ _ _ _ _ hpoll) (by simp [failedPollsIn, hpoll]) rfl rfl rfl rfl
  | @pollFailed e _ s₁ hpoll =>
    have hpolled := hw.poll _ _ _ _ _ hpoll
    have hfailed : w.failedPollsIn false s .polling = 1 := by simp [failedPollsIn, hpoll]
    refine ⟨⟨[e.kind], by rw [hfailed]; rfl, ?_⟩, ?_, fun typeName => ?_, ?_⟩
    · show s₁.metrics.failed.increment _ = s.metrics.failed.increment _
      rw [hpolled.failed]
    · show (s₁.metrics.backoffs.increment [w.group]).count [w.group] + 0 = _
      rw [Series.count_increment, hpolled.backoffs, if_pos rfl, hfailed]
      rfl
    · exact congrArg (Series.count · [w.group, typeName]) hpolled.processed
    · exact hpolled.committed
  | nothing hpoll =>
    exact .quiet (hw.poll _ _ _ _ _ hpoll) (by simp [failedPollsIn, hpoll]) rfl rfl rfl rfl
  | delivered _ hpoll =>
    exact .quiet (hw.poll _ _ _ _ _ hpoll) (by simp [failedPollsIn, hpoll]) rfl rfl rfl rfl
  | waiting => exact .quiet (.refl s) rfl rfl rfl rfl rfl
  | abandoned => exact .quiet (.refl s) rfl rfl rfl rfl rfl
  | completed => exact .quiet (.refl s) rfl rfl rfl rfl rfl
  | interrupted => exact .quiet (.refl s) rfl rfl rfl rfl rfl
  | @skipped done record rest _ hskip =>
    -- a record that is skipped has no type
    refine ⟨⟨[], rfl, rfl⟩, rfl, fun typeName => ?_, rfl⟩
    show _ = _ + [record].countP _
    simp [CountedAs, Registry.handledType?_of_skip hskip]
  | faulty =>
    refine ⟨⟨[_], rfl, rfl⟩, rfl, fun typeName => rfl, rfl⟩
  | dispatched => exact .quiet (.refl s) rfl rfl rfl rfl rfl
  | called _ _ _ _ _ _ hcall =>
    exact .quiet ((hphase.2 _ List.mem_cons_self).run hcall) rfl rfl rfl rfl rfl
  | @callFailed _ done record rest typeName call calls e _ s₁ hcall =>
    have hcalled : s.CountsNoRecord s₁ := (hphase.2 _ List.mem_cons_self).run hcall
    refine ⟨⟨[e.kind], rfl, ?_⟩, ?_, fun typeName => ?_, hcalled.committed⟩
    · show s₁.metrics.failed.increment _ = s.metrics.failed.increment _
      rw [hcalled.failed]
    · show s₁.metrics.backoffs.count _ + 1 = _
      rw [hcalled.backoffs]
      rfl
    · exact congrArg (Series.count · [w.group, typeName]) hcalled.processed
  | @processed _ done record rest typeName =>
    refine ⟨⟨[], rfl, rfl⟩, rfl, fun typeName' => ?_, rfl⟩
    show (s.metrics.processed.increment [w.group, typeName]).count [w.group, typeName'] =
      _ + [record].countP _
    rw [Series.count_increment, List.countP_singleton, CountedAs, hphase.1]
    simp
  | uncommitted _ next =>
    have hcommitted : w.committedIn s (.committing [] next) = [] := by
      unfold committedIn
      dsimp only
      split <;> rfl
    exact .quiet (.refl s) rfl (givenUpIn_afterCommit [] next) (owed_afterCommit [] next)
      (processedIn_afterCommit [] next) hcommitted
  | @committed _ done next _ s₁ _ hcommit =>
    have hcalled := hw.commit _ _ _ _ hcommit
    have hcommitted : w.committedIn s (.committing done next) = Offsets.behind done := by
      simp only [committedIn, hcommit]
    refine ⟨⟨[], ?_, ?_⟩, ?_, fun typeName => ?_, ?_⟩
    · rw [givenUpIn_afterCommit]
      rfl
    · rw [measuredCommits_eq]
      exact hcalled.failed
    · rw [measuredCommits_eq, givenUpIn_afterCommit, owed_afterCommit done, ← hcalled.backoffs]
      rfl
    · rw [measuredCommits_eq, processedIn_afterCommit, ← hcalled.processed]
      rfl
    · rw [measuredCommits_eq, hcommitted, ← hcalled.committed]
  | @commitFailed _ done next _ _ _ _ hcommit =>
    have hcommitted : w.committedIn s (.committing done next) = [] := by
      simp only [committedIn, hcommit]
    exact .quiet (hw.commit _ _ _ _ hcommit) rfl (givenUpIn_afterCommit done next)
      (owed_afterCommit done next) (processedIn_afterCommit done next) hcommitted
  | @rewound _ pending _ _ s₁ hrewind =>
    have hcalled := hw.rewind _ _ _ _ hrewind
    refine ⟨⟨[], rfl, hcalled.failed⟩, ?_, fun typeName => ?_, hcalled.committed⟩
    · show (s₁.metrics.backoffs.increment [w.group]).count [w.group] + 0 = _ + 1 + 0
      rw [Series.count_increment, hcalled.backoffs, if_pos rfl]
    · exact congrArg (Series.count · [w.group, typeName]) hcalled.processed
  | pausing => exact .quiet (.refl s) rfl rfl rfl rfl rfl
  | awoken => exact .quiet (.refl s) rfl rfl rfl rfl rfl
  | closing _ hclose => exact .quiet (hw.close _ _ _ hclose) rfl rfl rfl rfl rfl
  | closed => exact .quiet (.refl s) rfl rfl rfl rfl rfl

/-- What is known of a phase is known of the next one. -/
theorem Stepped.known (hw : w.Counts) (hphase : w.Known phase)
    (h : w.Stepped signalled phase s phase' s') : w.Known phase' := by
  cases h with
  | dispatched done rest _ hdelivery => exact .of_deliver hw hdelivery done rest
  | called => exact ⟨hphase.1, fun call hcall => hphase.2 call (List.mem_cons_of_mem _ hcall)⟩
  | uncommitted _ next | committed _ next | commitFailed _ next =>
    cases next <;> trivial
  | _ => trivial

end

end Worker

/-! ### Accounts -/

/-- How far a worker has come, and what has happened to it. -/
structure Account (R W : Type) where
  phase : WorkerPhase (Session R W)
  session : Session R W
  failedPolls : Nat
  /-- The records that have failed, as often as they have. -/
  failed : List StreamRecord
  processed : List StreamRecord
  /-- The offsets of all commits that the broker has taken, in order. -/
  commits : Offsets

namespace Account

/-- Before the first poll. -/
def start (s : Session R W) : Account R W := ⟨.polling, s, 0, [], [], []⟩

/-- One step of the worker. -/
def advance (w : Worker D (Session R W)) (signalled : Bool) (a : Account R W) : Account R W :=
  let next := (w.step signalled a.phase).run a.session
  { phase := next.1
    session := next.2
    failedPolls := a.failedPolls + w.failedPollsIn signalled a.session a.phase
    failed := a.failed ++ Worker.givenUpIn a.phase next.1
    processed := a.processed ++ Worker.processedIn a.phase next.1
    commits := a.commits ++ w.committedIn a.session a.phase }

/-- What a worker can come to from a session.  The signal may come at any step, and a
pause may end at any time.  Others may do anything between two steps but count records. -/
inductive Reachable (w : Worker D (Session R W)) (s₀ : Session R W) : Account R W → Prop
  | start : Reachable w s₀ (start s₀)
  | step {a : Account R W} (signalled : Bool) :
      Reachable w s₀ a → Reachable w s₀ (a.advance w signalled)
  | wake {a : Account R W} :
      Reachable w s₀ a → Reachable w s₀ { a with phase := Worker.wake a.phase }
  | others {a : Account R W} (s : Session R W) :
      Reachable w s₀ a → a.session.CountsNoRecord s → Reachable w s₀ { a with session := s }

/-- How often a poll or a record has failed. -/
def failures (a : Account R W) : Nat := a.failedPolls + a.failed.length

/-- What holds in every phase: the metrics agree with the account, up to the pauses that
are owed. -/
structure Balanced (w : Worker D (Session R W)) (a : Account R W) : Prop where
  failed : a.session.metrics.failed.total (fun labels => labels.head? == some w.group) = a.failures
  labels : ∀ e ∈ a.session.metrics.failed, e.1.head? = some w.group
  backoffs : a.session.metrics.backoffs.count [w.group] + Worker.owed a.phase = a.failures
  processed : ∀ typeName, a.session.metrics.processed.count [w.group, typeName] =
    a.processed.countP (w.CountedAs typeName)
  committed : ∀ p : TopicPartition, a.session.metrics.committed.get? (p.labels w.group) =
    (a.commits.filter fun o =>
      Series.key (o.1.labels w.group) == Series.key (p.labels w.group)).getLast?.map (·.2)
  known : w.Known a.phase

variable {w : Worker D (Session R W)} {a : Account R W}

/-- A session in which no record was counted. -/
def Uncounted (s : Session R W) : Prop := Metrics.empty.SameStreams s.metrics

theorem uncounted_start (db : Database R) (world : W) : Uncounted (Session.start db world) :=
  Metrics.SameStreams.refl _

theorem Balanced.start {s : Session R W} (hs : Uncounted s) : Balanced w (.start s) where
  failed := by
    show s.metrics.failed.total _ = 0
    rw [hs.failed]
    rfl
  labels := by
    show ∀ e ∈ s.metrics.failed, _
    rw [hs.failed]
    nofun
  backoffs := by
    show s.metrics.backoffs.count _ + 0 = 0
    rw [hs.backoffs]
    rfl
  processed typeName := by
    show s.metrics.processed.count _ = 0
    rw [hs.processed]
    rfl
  committed p := by
    show s.metrics.committed.get? _ = none
    rw [hs.committed]
    rfl
  known := trivial

/-- A group's failures are counted in its total. -/
theorem total_failures {s : Series Nat} {group : String} (reasons : List String)
    (h : ∀ e ∈ s, e.1.head? = some group) :
    let s' := reasons.foldl (fun m reason => m.increment [group, reason]) s
    s'.total (fun labels => labels.head? == some group) =
        s.total (fun labels => labels.head? == some group) + reasons.length ∧
      ∀ e ∈ s', e.1.head? = some group := by
  induction reasons generalizing s with
  | nil => exact ⟨rfl, h⟩
  | cons reason reasons ih =>
    have hlabels : ∀ e ∈ s.increment [group, reason], e.1.head? = some group := by
      intro e he
      rcases Series.labels_of_mem_update he with hnew | ⟨e', he', hold⟩
      · rw [hnew]
        rfl
      · rw [← hold]
        exact h e' he'
    have htotal : (s.increment [group, reason]).total (fun labels => labels.head? == some group) =
        s.total (fun labels => labels.head? == some group) + 1 := by
      refine (Series.total_increment fun e he _ => ?_).trans (by simp)
      rw [h e he]
      rfl
    obtain ⟨hrest, hall⟩ := ih hlabels
    refine ⟨?_, hall⟩
    rw [List.foldl_cons, hrest, htotal, List.length_cons]
    omega

/-- A step keeps the account balanced, whatever fails in it. -/
theorem Balanced.advance (hw : w.Counts) (h : Balanced w a) (signalled : Bool) :
    Balanced w (a.advance w signalled) := by
  have hstepped := w.stepped signalled a.phase a.session
  obtain ⟨⟨reasons, hreasons, hfailed⟩, hbackoffs, hprocessed, hcommitted⟩ :=
    hstepped.tells hw h.known
  have hknown := hstepped.known hw h.known
  obtain ⟨htotal, hlabels⟩ := total_failures reasons h.labels
  have hfailures : (a.advance w signalled).failures = a.failures + reasons.length := by
    show a.failedPolls + w.failedPollsIn signalled a.session a.phase + (a.failed ++ _).length = _
    rw [hreasons, failures, List.length_append]
    omega
  refine ⟨?_, ?_, ?_, fun typeName => ?_, fun p => ?_, hknown⟩
  · show Series.total (((w.step signalled a.phase).run a.session).2.metrics.failed) _ = _
    rw [hfailed, htotal, h.failed, hfailures]
  · show ∀ e ∈ ((w.step signalled a.phase).run a.session).2.metrics.failed, _
    rw [hfailed]
    exact hlabels
  · rw [hfailures, hreasons, ← h.backoffs]
    exact hbackoffs
  · show _ = (a.processed ++ _).countP _
    rw [List.countP_append, ← h.processed]
    exact hprocessed typeName
  · show Series.get? (((w.step signalled a.phase).run a.session).2.metrics.committed) _ =
      ((a.commits ++ w.committedIn a.session a.phase).filter _).getLast?.map _
    rw [hcommitted, Series.get?_foldl_update, h.committed, List.filter_append,
      List.getLast?_append, Option.map_or]

/-- Nobody is woken while a pause is owed. -/
theorem Balanced.wake (h : Balanced w a) : Balanced w { a with phase := Worker.wake a.phase } := by
  rcases a with ⟨phase, s, failedPolls, failed, processed, commits⟩
  cases phase with
  | pausing => exact ⟨h.failed, h.labels, h.backoffs, h.processed, h.committed, trivial⟩
  | _ => exact h

theorem Balanced.others (h : Balanced w a) {s : Session R W} (hs : a.session.CountsNoRecord s) :
    Balanced w { a with session := s } where
  failed := by
    show s.metrics.failed.total _ = _
    rw [hs.failed]
    exact h.failed
  labels := by
    show ∀ e ∈ s.metrics.failed, _
    rw [hs.failed]
    exact h.labels
  backoffs := by
    show s.metrics.backoffs.count _ + _ = _
    rw [hs.backoffs]
    exact h.backoffs
  processed typeName := by
    show s.metrics.processed.count _ = _
    rw [hs.processed]
    exact h.processed typeName
  committed p := by
    show s.metrics.committed.get? _ = _
    rw [hs.committed]
    exact h.committed p
  known := h.known

theorem Reachable.balanced (hw : w.Counts) {s₀ : Session R W} (hs₀ : Uncounted s₀)
    (h : Reachable w s₀ a) : Balanced w a := by
  induction h with
  | start => exact .start hs₀
  | step signalled _ ih => exact ih.advance hw signalled
  | wake _ ih => exact ih.wake
  | others s _ hs ih => exact ih.others hs

/-- What the metrics say of a worker that is about to poll, or has ended. -/
structure Tallied (w : Worker D (Session R W)) (a : Account R W) : Prop where
  /-- Over all reasons, as many failures are counted as polls and records have failed. -/
  failed : a.session.metrics.failed.total (fun labels => labels.head? == some w.group) =
    a.failedPolls + a.failed.length
  /-- As many pauses are counted. -/
  backoffs : a.session.metrics.backoffs.count [w.group] = a.failedPolls + a.failed.length
  /-- Records are counted by the key of their type when they are processed, but those
  without a type are not. -/
  processedByKey : ∀ typeName, a.session.metrics.processed.count [w.group, typeName] =
    a.processed.countP (w.CountedAs typeName)
  /-- If no other type that was processed shares its key, these are the records of the
  type. -/
  processed : ∀ typeName,
    Series.Unshared [w.group, typeName]
      ((a.processed.filterMap (w.registry.handledType? w.group)).map fun t => [w.group, t]) →
    a.session.metrics.processed.count [w.group, typeName] =
      a.processed.countP fun record => w.registry.handledType? w.group record == some typeName
  /-- The gauge of a partition has the last offset that was committed for it or for
  another partition that shares its key. -/
  shared : ∀ p : TopicPartition, a.session.metrics.committed.get? (p.labels w.group) =
    (a.commits.filter fun o =>
      Series.key (o.1.labels w.group) = Series.key (p.labels w.group)).getLast?.map (·.2)
  /-- Where no other partition that was committed shares its key, that is the last offset
  of the partition itself. -/
  committed : ∀ p : TopicPartition,
    (∀ o ∈ a.commits, Series.key (o.1.labels w.group) = Series.key (p.labels w.group) →
      o.1 = p) →
    a.session.metrics.committed.get? (p.labels w.group) =
      (a.commits.filter fun o => o.1 = p).getLast?.map (·.2)

/-- Records of a type, if no other type shares its key. -/
theorem countP_countedAs {records : List StreamRecord} {typeName : String}
    (h : Series.Unshared [w.group, typeName]
      ((records.filterMap (w.registry.handledType? w.group)).map fun t => [w.group, t])) :
    records.countP (w.CountedAs typeName) =
      records.countP fun record => w.registry.handledType? w.group record == some typeName := by
  refine List.countP_congr fun record hrecord => ?_
  rcases htype : w.registry.handledType? w.group record with _ | t
  · simp [Worker.CountedAs, htype]
  · have hmem : [w.group, t] ∈
        (records.filterMap (w.registry.handledType? w.group)).map fun t => [w.group, t] :=
      List.mem_map_of_mem (List.mem_filterMap.2 ⟨record, hrecord, htype⟩)
    simp [Worker.CountedAs, htype, h.key_eq_iff hmem]

/-- **Metrics of streams.**  Start a worker when no record was counted, and let its
consumer and handlers count none themselves.  Polls, records, commits and rewinds may
fail, the signal may come at any step, and others may do anything in between but count
records.  Whenever the worker is about to poll, and when it is closed,

* the failures counted for the group, over all reasons, are those of polls and records,
  and as many pauses are counted;
* for every event type, as many records are counted as processed as there were records
  of the type whose handlers all succeeded, if no other type among them has its hash, and
  otherwise as many as there were of all types with its hash;
* the gauge of a partition is the last offset that was successfully committed for it, if
  no other partition that was committed has its hash, and otherwise the last one for those
  that have. -/
theorem tallied_reachable {w : Worker D (Session R W)} (hw : w.Counts) {s₀ : Session R W}
    (hs₀ : Uncounted s₀) {a : Account R W} (h : Reachable w s₀ a)
    (hphase : a.phase = .polling ∨ a.phase = .closed) : Tallied w a := by
  have hbalanced := h.balanced hw hs₀
  have howed : Worker.owed a.phase = 0 := by
    rcases hphase with hphase | hphase
    · rw [hphase]
      rfl
    · rw [hphase]
      rfl
  have hbackoffs := hbalanced.backoffs
  rw [howed, Nat.add_zero] at hbackoffs
  have hshared (p : TopicPartition) : a.session.metrics.committed.get? (p.labels w.group) =
      (a.commits.filter fun o =>
        Series.key (o.1.labels w.group) = Series.key (p.labels w.group)).getLast?.map (·.2) := by
    rw [hbalanced.committed p]
    simp only [beq_eq_decide]
  refine ⟨hbalanced.failed, hbackoffs, hbalanced.processed, fun typeName htype => ?_, hshared,
    fun p hown => ?_⟩
  · rw [hbalanced.processed, countP_countedAs htype]
  · have hsame : (a.commits.filter fun o =>
        Series.key (o.1.labels w.group) = Series.key (p.labels w.group)) =
        a.commits.filter fun o => o.1 = p := by
      refine List.filter_congr fun o ho => decide_eq_decide.2 ⟨hown o ho, ?_⟩
      rintro rfl
      rfl
    rw [hshared, hsame]

/-! ### A worker with the same batch in every poll -/

/-- A worker without handlers that gets the same batch from every poll. -/
def steadyWorker (batch : List StreamRecord) :
    Worker (Driver.beside Bench.domain) (Session Unit Unit) where
  registry := Registration.build Dependencies.empty []
  config := .standard
  group := "g"
  id := 0
  consumer :=
    { poll := fun _ _ => pure (some (.ok batch))
      commit := fun _ => pure (.ok ())
      rewind := fun _ => pure (.ok ())
      close := pure (.ok ()) }

theorem steadyWorker_counts (batch : List StreamRecord) : (steadyWorker batch).Counts where
  poll := by
    intro timeout limit answer s s' hpoll
    cases hpoll
    exact .refl s
  commit := by
    intro offsets answer s s' hcommit
    cases hcommit
    exact .refl s
  rewind := by
    intro positions answer s s' hrewind
    cases hrewind
    exact .refl s
  close := by
    intro answer s s' hclose
    cases hclose
    exact .refl s
  handlers := nofun

/-- What has happened to such a worker after some steps without a signal. -/
def steadyAccount (batch : List StreamRecord) : Nat → Account Unit Unit
  | 0 => .start (Session.start (Database.blank ()) ())
  | n + 1 => (steadyAccount batch n).advance (steadyWorker batch) false

theorem reachable_steadyAccount (batch : List StreamRecord) (steps : Nat) :
    Reachable (steadyWorker batch) (Session.start (Database.blank ()) ())
      (steadyAccount batch steps) := by
  induction steps with
  | zero => exact .start
  | succ n ih => exact ih.step false

/-- The fourth record of the batch cannot be read.  After the commit, the rewind and the
pause one failure is counted, and the gauge of a partition is behind its last record before
that. -/
theorem tallied_mixed_batch :
    ∃ a, Reachable (steadyWorker BatchRun.mixedBatch) (Session.start (Database.blank ()) ()) a ∧
      a.phase = .polling ∧
      a.session.metrics.failed.total (fun labels => labels.head? == some "g") = 1 ∧
      a.session.metrics.backoffs.count ["g"] = 1 ∧
      a.session.metrics.committed.get? ["g", "events", "0"] = some 7 := by
  have hreachable := (reachable_steadyAccount BatchRun.mixedBatch 7).wake
  have htallied := tallied_reachable (steadyWorker_counts _) (uncounted_start _ ()) hreachable
    (.inl rfl)
  refine ⟨_, hreachable, rfl, ?_, ?_, ?_⟩
  · exact htallied.failed
  · exact htallied.backoffs
  · refine (htallied.committed ⟨"events", 0⟩ ?_).trans ?_
    · decide +kernel
    · decide +kernel

/-- Two records of two topics. -/
def twoTopics : List StreamRecord := [⟨"t", 12, 4, none⟩, ⟨"t1", 2, 6, none⟩]

/-- Both partitions are committed, the first one up to offset 5 and the second one up to
offset 7, and the gauge of the first is 7, as both read the same. -/
theorem shared_gauge :
    Reachable (steadyWorker twoTopics) (Session.start (Database.blank ()) ())
        (steadyAccount twoTopics 5) ∧
      (steadyAccount twoTopics 5).phase = .polling ∧
      ¬∀ p : TopicPartition,
        (steadyAccount twoTopics 5).session.metrics.committed.get?
            (p.labels (steadyWorker twoTopics).group) =
          ((steadyAccount twoTopics 5).commits.filter fun o => o.1 = p).getLast?.map (·.2) := by
  refine ⟨reachable_steadyAccount twoTopics 5, rfl, fun hall => ?_⟩
  have hfirst := hall ⟨"t", 12⟩
  have hsecond := hall ⟨"t1", 2⟩
  have hshared : Series.key (TopicPartition.labels "g" ⟨"t", 12⟩) =
      Series.key (TopicPartition.labels "g" ⟨"t1", 2⟩) :=
    TopicPartition.key_labels "g" (by decide +kernel)
  have hsame := Series.get?_congr
    (steadyAccount twoTopics 5).session.metrics.committed hshared
  have hlast : ((steadyAccount twoTopics 5).commits.filter
      fun o => o.1 = ⟨"t", 12⟩).getLast?.map (·.2) = some 5 := by
    decide +kernel
  have hlast' : ((steadyAccount twoTopics 5).commits.filter
      fun o => o.1 = ⟨"t1", 2⟩).getLast?.map (·.2) = some 7 := by
    decide +kernel
  rw [hlast] at hfirst
  rw [hlast'] at hsecond
  exact absurd (hfirst.symm.trans (hsame.trans hsecond)) (by decide)

end Account

end Chronicle
