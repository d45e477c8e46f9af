/-
Chronicle/Proofs/Stream/Lifecycle.lean

The life of an event stream: subscriptions, the work of its workers, and shutdowns.

A `Traced` stream keeps a record of its connections.  What comes of a subscription is in
`Life.Subscribes`, and of the subscription of all groups in `Life.SubscribesEach`; both say
which workers were started (`Life.Started`).  `Life.Crew` gives every worker that was started
the number of its consumer, and says that the consumer is closed as often as the worker is:
this is what subscriptions, steps of workers and shutdowns preserve.

Main result: `stream_lifecycle`, for any history of calls.
-/
import Chronicle.Proofs.Dictionary
import Chronicle.Proofs.Registry.Lookup
import Chronicle.Proofs.Stream.Ledger

namespace Chronicle

variable {D : Domain} {R W : Type}

/-! ### Calls of a stream -/

/-- A stream whose connections are on record.  Connecting a worker may fail; if it does not,
its consumer has the number of the attempt.  Handlers cannot connect or close anything. -/
structure Traced (D : Domain) (R W : Type) extends Ledger W where
  dependencies : Dependencies D
  registrations : List (Registration D (Session R W))
  config : StreamConfig
  connect : Connect (Session R W)
  tried : ∀ group id answer (s s' : Session R W), (connect group id).run s = (answer, s') →
    toLedger.Adds s s' [(group, id)] []
  numbered : ∀ group id consumer (s s' : Session R W),
    (connect group id).run s = (.ok consumer, s') →
      toLedger.Owns consumer (attempts s.world).length
  handlers : ∀ group typeName,
    ∀ h ∈ (Registration.build dependencies registrations).streamHandlers group typeName,
    ∀ values event, (h.2.run values event).Respects toLedger.Keeps

/-- The table of the stream's handlers and groups. -/
def Traced.registry (t : Traced D R W) : Registry D (Session R W) :=
  Registration.build t.dependencies t.registrations

/-- A stream and the state that it works on. -/
structure Life (D : Domain) (R W : Type) where
  stream : EventStream D (Session R W)
  session : Session R W

/-- What can happen to a stream: the three calls, and a step of one of its workers at some
moment. -/
inductive StreamCall (R W : Type) where
  | subscribe (group : String) (workers : Nat)
  | subscribeAll
  | shutdown
  | work (worker : Nat) (m : Moment R W)

namespace Traced

variable {t : Traced D R W}

/-- Work on a stream. -/
def runTask {α : Type} (task : StreamTask D (Session R W) α) (a : Life D R W) :
    Except Error α × Life D R W :=
  let next := (task.run a.stream).run a.session
  (next.1.1, ⟨next.1.2, next.2⟩)

/-- A step of a worker, if there is one of that number. -/
def work (i : Nat) (m : Moment R W) (a : Life D R W) : Life D R W :=
  match a.stream.running[i]? with
  | none => ⟨a.stream, m.others a.session⟩
  | some r =>
    let next := (r.worker.step m.signalled (if m.wakes then Worker.wake r.phase else r.phase)).run
      (m.others a.session)
    ⟨{ a.stream with running := a.stream.running.set i ⟨r.worker, next.1⟩ }, next.2⟩

/-- The answer to a call, and the stream after it. -/
def perform (t : Traced D R W) (a : Life D R W) :
    StreamCall R W → Except Error Unit × Life D R W
  | .subscribe group n => runTask (EventStream.subscribe t.connect group n) a
  | .subscribeAll => runTask (EventStream.subscribeAll t.connect) a
  | .shutdown =>
    let next := (EventStream.shutdown.run a.stream).run a.session
    (.ok (), ⟨next.1.2, next.2⟩)
  | .work i m => (.ok (), work i m a)

/-- A stream after a history of calls. -/
def after (t : Traced D R W) (s : Session R W) (history : List (StreamCall R W)) : Life D R W :=
  history.foldl (fun a call => (t.perform a call).2) ⟨.start t.registry t.config, s⟩

end Traced

/-! ### What a subscription does -/

/-- The workers of a group, by their ids. -/
def roster (group : String) (n : Nat) : List (String × Nat) := (List.range' 1 n).map (group, ·)

namespace Life

variable {t : Traced D R W} {a b : Life D R W}

/-- The group and the id of a worker, and the number of its consumer. -/
def badge (e : Running D (Session R W) × Nat) : (String × Nat) × Nat :=
  ((e.1.worker.group, e.1.worker.id), e.2)

/-- New workers are started, each with a consumer of its own: the consumers have the numbers
of the attempts that connected them, one after the other. -/
structure Started (t : Traced D R W) (a b : Life D R W) (ids : List (String × Nat))
    (new : List (Running D (Session R W) × Nat)) : Prop where
  isOpen : new ≠ [] → a.stream.isShutDown = false
  stream : b.stream = { a.stream with running := a.stream.running ++ new.map Prod.fst }
  adds : t.Adds a.session b.session ids []
  workers : new.map badge = ids.zipIdx (t.attempts a.session.world).length
  consumers : ∀ e ∈ new, t.Owns e.1.worker.consumer e.2
  polling : ∀ e ∈ new, e.1.phase = .polling ∧ e.1.worker.registry = a.stream.registry

/-- What comes of a subscription. -/
inductive Subscribes (t : Traced D R W) (a : Life D R W) (group : String) (n : Nat) :
    Except Error Unit × Life D R W → Prop
  /-- It is not valid: nothing is done at all. -/
  | refused {e : Error} : a.stream.check group n = .error e → Subscribes t a group n (.error e, a)
  /-- One of the workers cannot be connected: none is started, and no more are tried. -/
  | unconnected {e : Error} {k : Nat} {s' : Session R W} : a.stream.check group n = .ok () →
      k < n → t.Adds a.session s' (roster group (k + 1)) [] →
      Subscribes t a group n (.error e, ⟨a.stream, s'⟩)
  | started {b : Life D R W} {new : List (Running D (Session R W) × Nat)} :
      a.stream.check group n = .ok () → Started t a b (roster group n) new →
      Subscribes t a group n (.ok (), b)

/-- What comes of the subscriptions of groups, one after the other. -/
inductive SubscribesEach (t : Traced D R W) (a : Life D R W)
    (groups : List (ProcessingGroup D (Session R W))) : Except Error Unit × Life D R W → Prop
  | all {b : Life D R W} {new : List (Running D (Session R W) × Nat)} :
      Started t a b (groups.flatMap fun g => roster g.name g.workers) new →
      SubscribesEach t a groups (.ok (), b)
  /-- At the first error nothing more is done, and the workers before it go on. -/
  | stopped {before rest : List (ProcessingGroup D (Session R W))}
      {g : ProcessingGroup D (Session R W)} {b b' : Life D R W}
      {new : List (Running D (Session R W) × Nat)} {e : Error} :
      groups = before ++ g :: rest →
      Started t a b (before.flatMap fun g => roster g.name g.workers) new →
      Subscribes t b g.name g.workers (.error e, b') → SubscribesEach t a groups (.error e, b')

end Life

/-- A subscription is valid if it asks for some workers, not too many, for a group of the
table, and the stream is not shut down. -/
theorem EventStream.check_eq_ok {stream : EventStream D (Session R W)} {group : String} {n : Nat} :
    stream.check group n = .ok () ↔
      (0 < n ∧ n ≤ maxWorkers) ∧ stream.registry.groups.contains group = true ∧
        stream.isShutDown = false := by
  simp only [EventStream.check]
  split_ifs with hcount hunknown hshut
  · exact iff_of_false nofun fun hvalid => absurd hcount (by omega)
  · exact iff_of_false nofun fun hvalid => by simp [hvalid.2.1] at hunknown
  · exact iff_of_false nofun fun hvalid => by simp [hvalid.2.2] at hshut
  · exact iff_of_true rfl ⟨by omega, by simpa using hunknown, by simpa using hshut⟩

namespace Traced

variable {t : Traced D R W}

theorem runTask_bind {α β : Type} (task : StreamTask D (Session R W) α)
    (f : α → StreamTask D (Session R W) β) (a : Life D R W) :
    runTask (task >>= f) a =
      match runTask task a with
      | (.ok x, b) => runTask (f x) b
      | (.error e, b) => (.error e, b) := by
  simp only [runTask, ExceptT.run, StateT.run, bind, ExceptT.bind, ExceptT.mk, StateT.bind]
  rcases task a.stream a.session with ⟨⟨answer, stream⟩, s'⟩
  cases answer with
  | ok x => rfl
  | error e => rfl

/-- What comes of connecting workers: they all have a consumer, or one cannot be connected. -/
inductive Connects (t : Traced D R W) (group : String) (ids : List Nat) (s : Session R W) :
    Except Error (List (Nat × Consumer (Session R W))) × Session R W → Prop
  | all {consumers : List (Nat × Consumer (Session R W))} {s' : Session R W} :
      t.Adds s s' (ids.map (group, ·)) [] → consumers.map Prod.fst = ids →
      (∀ p ∈ consumers.zipIdx (t.attempts s.world).length, t.Owns p.1.2 p.2) →
      Connects t group ids s (.ok consumers, s')
  | failed {e : Error} {k : Nat} {s' : Session R W} : k < ids.length →
      t.Adds s s' ((ids.take (k + 1)).map (group, ·)) [] → Connects t group ids s (.error e, s')

theorem connectAll_cons (connect : Connect (Session R W)) (group : String) (id : Nat)
    (ids : List Nat) (s : Session R W) :
    (EventStream.connectAll connect group (id :: ids)).run s =
      match (connect group id).run s with
      | (.error e, s') => (.error e, s')
      | (.ok consumer, s') =>
        match (EventStream.connectAll connect group ids).run s' with
        | (.error e, s'') => (.error e, s'')
        | (.ok consumers, s'') => (.ok ((id, consumer) :: consumers), s'') := by
  simp only [EventStream.connectAll, StateT.run_bind]
  rcases (connect group id).run s with ⟨answer, s'⟩
  cases answer with
  | error e => rfl
  | ok consumer =>
    show (EventStream.connectAll connect group ids >>= _).run s' = _
    rw [StateT.run_bind]
    rcases hrest : (EventStream.connectAll connect group ids).run s' with ⟨answer, s''⟩
    simp only [hrest]
    cases answer with
    | error e => rfl
    | ok consumers => rfl

theorem connects (t : Traced D R W) (group : String) (ids : List Nat) (s : Session R W) :
    Connects t group ids s ((EventStream.connectAll t.connect group ids).run s) := by
  induction ids generalizing s with
  | nil => exact .all (Ledger.Keeps.of_world rfl) rfl (fun p hp => nomatch hp)
  | cons id ids ih =>
    rw [connectAll_cons]
    rcases hfirst : (t.connect group id).run s with ⟨answer, s'⟩
    have hadds := t.tried _ _ _ _ _ hfirst
    cases answer with
    | error e => exact .failed (Nat.zero_lt_succ _) hadds
    | ok consumer =>
      have howns := t.numbered _ _ _ _ _ hfirst
      have hnumber : (t.attempts s'.world).length = (t.attempts s.world).length + 1 := by
        rw [hadds.attempts, List.length_append, List.length_singleton]
      have hconnects := ih s'
      dsimp only
      generalize (EventStream.connectAll t.connect group ids).run s' = outcome at hconnects ⊢
      cases hconnects with
      | all hadds' hids howns' =>
        have hboth : t.Adds s _ ((id :: ids).map (group, ·)) [] := hadds.trans hadds'
        refine .all hboth (by rw [List.map_cons, hids]) fun p hp => ?_
        rw [List.zipIdx_cons, List.mem_cons] at hp
        rcases hp with rfl | hp
        · exact howns
        · exact howns' p (hnumber ▸ hp)
      | @failed _ k _ hk hadds' =>
        have hboth : t.Adds s _ (((id :: ids).take (k + 1 + 1)).map (group, ·)) [] :=
          hadds.trans hadds'
        exact .failed (Nat.succ_lt_succ hk) hboth

theorem runTask_subscribe (connect : Connect (Session R W)) (group : String) (n : Nat)
    (a : Life D R W) :
    runTask (EventStream.subscribe connect group n) a =
      match a.stream.check group n with
      | .error e => (.error e, a)
      | .ok () =>
        match (EventStream.connectAll connect group (List.range' 1 n)).run a.session with
        | (.error e, s') => (.error e, ⟨a.stream, s'⟩)
        | (.ok consumers, s') =>
          (.ok (),
            ⟨{ a.stream with
                running := a.stream.running ++ consumers.map fun c =>
                  ⟨⟨a.stream.registry, a.stream.config, group, c.1, c.2⟩, .polling⟩ }, s'⟩) := by
  have hget : runTask (get : StreamTask D (Session R W) _) a = (.ok a.stream, a) := rfl
  have hcheck : runTask (MonadExcept.ofExcept (a.stream.check group n) :
      StreamTask D (Session R W) Unit) a = (a.stream.check group n, a) := by
    rcases a.stream.check group n with e | x
    · rfl
    · rfl
  have hconnect : runTask (ExceptT.mk (StateT.lift
      (EventStream.connectAll connect group (List.range' 1 n))) : StreamTask D (Session R W) _) a =
      (((EventStream.connectAll connect group (List.range' 1 n)).run a.session).1,
        ⟨a.stream, ((EventStream.connectAll connect group (List.range' 1 n)).run a.session).2⟩) :=
    rfl
  rw [EventStream.subscribe, runTask_bind, hget]
  dsimp only
  rw [runTask_bind, hcheck]
  rcases a.stream.check group n with e | x
  · rfl
  · dsimp only
    rw [runTask_bind, hconnect]
    rcases (EventStream.connectAll connect group (List.range' 1 n)).run a.session with ⟨answer, s'⟩
    cases answer with
    | error e => rfl
    | ok consumers => rfl

theorem perform_shutdown (t : Traced D R W) (a : Life D R W) :
    t.perform a .shutdown =
      let next := (EventStream.finishAll a.stream.running).run a.session
      (.ok (), ⟨{ a.stream with running := next.1, isShutDown := true }, next.2⟩) := rfl

/-- The workers that are started with some consumers, and the numbers of these. -/
def launched (t : Traced D R W) (a : Life D R W) (group : String)
    (consumers : List (Nat × Consumer (Session R W))) : List (Running D (Session R W) × Nat) :=
  (consumers.zipIdx (t.attempts a.session.world).length).map fun p =>
    (⟨⟨a.stream.registry, a.stream.config, group, p.1.1, p.1.2⟩, .polling⟩, p.2)

theorem started_launched {a : Life D R W} {group : String} {ids : List Nat}
    {consumers : List (Nat × Consumer (Session R W))} {s' : Session R W}
    (hopen : a.stream.isShutDown = false)
    (hadds : t.Adds a.session s' (ids.map (group, ·)) []) (hids : consumers.map Prod.fst = ids)
    (howns : ∀ p ∈ consumers.zipIdx (t.attempts a.session.world).length, t.Owns p.1.2 p.2) :
    Life.Started t a
      ⟨{ a.stream with
          running := a.stream.running ++ consumers.map fun c =>
            ⟨⟨a.stream.registry, a.stream.config, group, c.1, c.2⟩, .polling⟩ }, s'⟩
      (ids.map (group, ·)) (t.launched a group consumers) := by
  refine ⟨fun _ => hopen, ?_, hadds, ?_, ?_, ?_⟩
  · have hfirst : consumers = (consumers.zipIdx (t.attempts a.session.world).length).map Prod.fst :=
      (List.zipIdx_map_fst _ _).symm
    conv_lhs => rw [hfirst]
    rw [launched, List.map_map, List.map_map]
    rfl
  · rw [← hids, List.map_map, List.zipIdx_map, launched, List.map_map]
    rfl
  · intro e he
    obtain ⟨p, hp, rfl⟩ := List.mem_map.1 he
    exact howns p hp
  · intro e he
    obtain ⟨p, -, rfl⟩ := List.mem_map.1 he
    exact ⟨rfl, rfl⟩

theorem subscribes (t : Traced D R W) (a : Life D R W) (group : String) (n : Nat) :
    Life.Subscribes t a group n (runTask (EventStream.subscribe t.connect group n) a) := by
  rw [runTask_subscribe]
  rcases hcheck : a.stream.check group n with e | x
  · exact .refused hcheck
  · have hconnects := connects t group (List.range' 1 n) a.session
    dsimp only
    generalize (EventStream.connectAll t.connect group (List.range' 1 n)).run a.session = outcome
      at hconnects ⊢
    cases hconnects with
    | failed hk hadds =>
      rw [List.length_range'] at hk
      refine .unconnected hcheck hk ?_
      rwa [roster, ← List.take_range'_of_length_ge (Nat.succ_le_of_lt hk)]
    | all hadds hids howns =>
      have hopen := (EventStream.check_eq_ok.1 hcheck).2.2
      exact .started hcheck (started_launched hopen hadds hids howns)

end Traced

namespace Life

variable {t : Traced D R W} {a b c : Life D R W} {ids ids' : List (String × Nat)}
  {new new' : List (Running D (Session R W) × Nat)}

theorem Started.refl (t : Traced D R W) (a : Life D R W) : Started t a a [] [] where
  isOpen h := absurd rfl h
  stream := by rw [List.map_nil, List.append_nil]
  adds := Ledger.Keeps.of_world rfl
  workers := rfl
  consumers _ he := nomatch he
  polling _ he := nomatch he

theorem Started.trans (h : Started t a b ids new) (h' : Started t b c ids' new') :
    Started t a c (ids ++ ids') (new ++ new') where
  isOpen hne := by
    rcases new with _ | ⟨e, new⟩
    · have hopen := h'.isOpen hne
      rwa [h.stream] at hopen
    · exact h.isOpen (List.cons_ne_nil _ _)
  stream := by rw [h'.stream, h.stream, List.map_append, List.append_assoc]
  adds := h.adds.trans h'.adds
  workers := by
    rw [List.map_append, h.workers, h'.workers, h.adds.attempts, List.length_append,
      List.zipIdx_append]
  consumers := List.forall_mem_append.2 ⟨h.consumers, h'.consumers⟩
  polling := by
    have hpolling := h'.polling
    rw [h.stream] at hpolling
    exact List.forall_mem_append.2 ⟨h.polling, hpolling⟩

/-- The attempt that a new worker was connected by. -/
theorem Started.le_and_connected (h : Started t a b ids new) {e : Running D (Session R W) × Nat}
    (he : e ∈ new) : (t.attempts a.session.world).length ≤ e.2 ∧
      (t.attempts b.session.world)[e.2]? = some (e.1.worker.group, e.1.worker.id) := by
  have hbadge : badge e ∈ ids.zipIdx (t.attempts a.session.world).length :=
    h.workers ▸ List.mem_map_of_mem he
  obtain ⟨hle, hget⟩ := List.mk_mem_zipIdx_iff_le_and_getElem?_sub.1 hbadge
  rw [h.adds.attempts, List.getElem?_append_right hle]
  exact ⟨hle, hget⟩

theorem Started.increasing (h : Started t a b ids new) :
    (new.map Prod.snd).Pairwise (· < ·) := by
  have hnumbers := congrArg (List.map Prod.snd) h.workers
  rw [List.map_map, List.zipIdx_map_snd] at hnumbers
  have hincreasing := List.pairwise_lt_range' (s := (t.attempts a.session.world).length)
    (n := ids.length)
  rw [← hnumbers] at hincreasing
  exact hincreasing

theorem subscribesEach (t : Traced D R W) (groups : List (ProcessingGroup D (Session R W)))
    (a : Life D R W) :
    SubscribesEach t a groups (Traced.runTask (EventStream.subscribeEach t.connect groups) a) := by
  induction groups generalizing a with
  | nil => exact .all (.refl t a)
  | cons g groups ih =>
    have hfirst := t.subscribes a g.name g.workers
    rw [EventStream.subscribeEach, Traced.runTask_bind]
    generalize Traced.runTask (EventStream.subscribe t.connect g.name g.workers) a = outcome
      at hfirst ⊢
    obtain ⟨answer, b⟩ := outcome
    cases answer with
    | error e => exact .stopped (List.nil_append _).symm (.refl t a) hfirst
    | ok x =>
      cases hfirst with
      | started _ hstarted =>
        have hrest := ih b
        dsimp only
        generalize Traced.runTask (EventStream.subscribeEach t.connect groups) b = outcome
          at hrest ⊢
        cases hrest with
        | all hstarted' => exact .all (hstarted.trans hstarted')
        | @stopped before rest g' _ _ _ _ hgroups hstarted' hfailed =>
          have hgroups' : g :: groups = (g :: before) ++ g' :: rest := congrArg (g :: ·) hgroups
          exact .stopped hgroups' (hstarted.trans hstarted') hfailed

/-! ### The crew -/

/-- A worker that was started, with the number of its consumer: the number is that of the
attempt to connect it, and the consumer is closed as often as the worker is. -/
structure Member (t : Traced D R W) (s : Session R W) (e : Running D (Session R W) × Nat) :
    Prop where
  owns : t.Owns e.1.worker.consumer e.2
  registry : e.1.worker.registry = t.registry
  connected : (t.attempts s.world)[e.2]? = some (e.1.worker.group, e.1.worker.id)
  closes : (t.closes s.world).count e.2 = Worker.closings e.1.phase
  calm : Worker.Calm t.toLedger e.1.phase

/-- All workers that were started since some state, in the order of their connections.  Only
their consumers were closed. -/
structure Crew (t : Traced D R W) (s : Session R W) (a : Life D R W)
    (crew : List (Running D (Session R W) × Nat)) : Prop where
  running : a.stream.running = crew.map Prod.fst
  registry : a.stream.registry = t.registry
  numbers : (crew.map Prod.snd).Pairwise (· < ·)
  since : ∀ k ∈ crew.map Prod.snd, (t.attempts s.world).length ≤ k
  members : ∀ e ∈ crew, Member t a.session e
  record : t.Since s a.session (crew.map Prod.snd)
  shutDown : a.stream.isShutDown = true → ∀ e ∈ crew, e.1.phase = .closed

section

variable {s u u' : Session R W} {e : Running D (Session R W) × Nat}
  {crew : List (Running D (Session R W) × Nat)} {tried : List (String × Nat)} {closed : List Nat}

theorem Member.lt (h : Member t u e) : e.2 < (t.attempts u.world).length :=
  (List.getElem?_eq_some_iff.1 h.connected).1

/-- What others do to the record leaves a worker as it is. -/
theorem Member.frame (h : Member t u e) (hadds : t.Adds u u' tried closed) (hk : e.2 ∉ closed) :
    Member t u' e where
  owns := h.owns
  registry := h.registry
  connected := by rw [hadds.attempts, List.getElem?_append_left h.lt, h.connected]
  closes := by rw [hadds.closes, List.count_append, List.count_eq_zero_of_not_mem hk, h.closes]; rfl
  calm := h.calm

theorem Member.calmHandlers (h : Member t u e) : Worker.CalmHandlers t.toLedger e.1.worker := by
  rw [Worker.CalmHandlers, h.registry]
  exact t.handlers _

/-- What a worker does itself. -/
theorem Member.moved (h : Member t u e) {phase : WorkerPhase (Session R W)} {n : Nat}
    (hadds : t.Adds u u' [] (List.replicate n e.2)) (hcalm : Worker.Calm t.toLedger phase)
    (hclosings : Worker.closings phase = Worker.closings e.1.phase + n) :
    Member t u' (⟨e.1.worker, phase⟩, e.2) where
  owns := h.owns
  registry := h.registry
  connected := by rw [hadds.attempts, List.append_nil, h.connected]
  closes := by rw [hadds.closes, List.count_append, h.closes, List.count_replicate_self, hclosings]
  calm := hcalm

theorem Crew.start (t : Traced D R W) (s : Session R W) :
    Crew t s ⟨.start t.registry t.config, s⟩ [] where
  running := rfl
  registry := rfl
  numbers := List.Pairwise.nil
  since _ hk := nomatch hk
  members _ he := nomatch he
  record := ⟨List.prefix_refl _, fun _ _ => rfl⟩
  shutDown h := nomatch h

/-- Attempts to connect change nothing for the workers. -/
theorem Crew.frame (h : Crew t s a crew) (hadds : t.Adds a.session u tried []) :
    Crew t s ⟨a.stream, u⟩ crew where
  running := h.running
  registry := h.registry
  numbers := h.numbers
  since := h.since
  members e he := (h.members e he).frame hadds List.not_mem_nil
  record := h.record.adds hadds nofun
  shutDown := h.shutDown

/-- Every worker has a consumer of its own. -/
theorem Crew.nodup_consumers (h : Crew t s a crew) :
    (crew.map fun e => e.1.worker.consumer).Nodup := by
  have hnumbers : crew.Pairwise fun e e' => e.2 < e'.2 := List.pairwise_map.1 h.numbers
  refine List.pairwise_map.2 (hnumbers.imp_of_mem fun {e e'} he he' hlt hsame => ?_)
  have hown := (h.members e he).owns
  rw [hsame] at hown
  exact Nat.ne_of_lt hlt (hown.unique (h.members e' he').owns s)

theorem Crew.lt (h : Crew t s a crew) {k : Nat} (hk : k ∈ crew.map Prod.snd) :
    k < (t.attempts a.session.world).length := by
  obtain ⟨e, he, rfl⟩ := List.mem_map.1 hk
  exact (h.members e he).lt

/-- No consumer was closed under a number that was not given yet. -/
theorem Crew.count_eq_zero (hs : t.Consistent s)
    (h : Crew t s a crew) {k : Nat} (hk : (t.attempts a.session.world).length ≤ k) :
    (t.closes a.session.world).count k = 0 := by
  have hunknown : k ∉ crew.map Prod.snd := fun hmem => absurd (h.lt hmem) (Nat.not_lt.2 hk)
  have hgrown := h.record.attempts.length_le
  rw [h.record.others k hunknown]
  refine List.count_eq_zero_of_not_mem fun hmem => ?_
  have hlt := hs k hmem
  omega

theorem Crew.started (hs : t.Consistent s)
    (h : Crew t s a crew) (hstarted : Started t a b ids new) : Crew t s b (crew ++ new) := by
  have hold : Crew t s ⟨a.stream, b.session⟩ crew := h.frame hstarted.adds
  have hnew (e) (he : e ∈ new) : Member t b.session e := by
    obtain ⟨hpolling, hregistry⟩ := hstarted.polling e he
    obtain ⟨hle, hconnected⟩ := hstarted.le_and_connected he
    refine ⟨hstarted.consumers e he, hregistry.trans h.registry, hconnected, ?_, ?_⟩
    · rw [hstarted.adds.closes, List.append_nil, h.count_eq_zero hs hle, hpolling]
      rfl
    · rw [hpolling]
      trivial
  have hlater (k) (hk : k ∈ new.map Prod.snd) : (t.attempts a.session.world).length ≤ k := by
    obtain ⟨e, he, rfl⟩ := List.mem_map.1 hk
    exact (hstarted.le_and_connected he).1
  refine ⟨?_, ?_, ?_, ?_, ?_, ?_, fun hshut => ?_⟩
  · rw [hstarted.stream, h.running, List.map_append]
  · rw [hstarted.stream, h.registry]
  · rw [List.map_append, List.pairwise_append]
    exact ⟨h.numbers, hstarted.increasing, fun k hk k' hk' =>
      Nat.lt_of_lt_of_le (h.lt hk) (hlater k' hk')⟩
  · rw [List.map_append]
    exact List.forall_mem_append.2 ⟨h.since, fun k hk =>
      Nat.le_trans h.record.attempts.length_le (hlater k hk)⟩
  · exact List.forall_mem_append.2 ⟨hold.members, hnew⟩
  · rw [List.map_append]
    exact hold.record.mono (List.subset_append_left _ _)
  · rw [hstarted.stream] at hshut
    rcases new with _ | ⟨e, new⟩
    · rw [List.append_nil]
      exact h.shutDown hshut
    · have hopen := hstarted.isOpen (List.cons_ne_nil _ _)
      exact absurd hshut (Bool.eq_false_iff.1 hopen)

section

variable {i k : Nat} {r : Running D (Session R W)}

/-- One worker is put in its own place. -/
theorem map_snd_set (hi : crew[i]? = some (r, k)) (r' : Running D (Session R W)) :
    (crew.set i (r', k)).map Prod.snd = crew.map Prod.snd := by
  obtain ⟨hlt, hget⟩ := List.getElem?_eq_some_iff.1 hi
  have hlt' : i < (crew.map Prod.snd).length := (List.length_map _).symm ▸ hlt
  have hget' : (crew.map Prod.snd)[i] = k := by rw [List.getElem_map, hget]
  have hset : (crew.map Prod.snd).set i k = crew.map Prod.snd := by
    rw [← hget', List.set_getElem_self]
  rw [List.map_set]
  exact hset

/-- The others have other numbers. -/
theorem eq_or_ne_of_mem_set (hnumbers : (crew.map Prod.snd).Nodup) (hi : crew[i]? = some (r, k))
    {r' : Running D (Session R W)} (he : e ∈ crew.set i (r', k)) :
    e = (r', k) ∨ e ∈ crew ∧ e.2 ≠ k := by
  obtain ⟨j, hj, rfl⟩ := List.getElem_of_mem he
  rw [List.getElem_set]
  split
  · exact .inl rfl
  · rename_i hne
    have hj' : j < crew.length := List.length_set ▸ hj
    refine .inr ⟨List.getElem_mem hj', fun heq => hne ?_⟩
    have hk : (crew.map Prod.snd)[i]? = some k := by rw [List.getElem?_map, hi]; rfl
    have hk' : (crew.map Prod.snd)[j]? = some k := by
      rw [List.getElem?_map, List.getElem?_eq_getElem hj', Option.map_some, heq]
    have hlt : i < (crew.map Prod.snd).length := (List.getElem?_eq_some_iff.1 hk).1
    exact (List.getElem?_inj hlt hnumbers).1 (hk.trans hk'.symm)

/-- One worker moves on. -/
theorem Crew.set (h : Crew t s a crew) {n : Nat} {r' : Running D (Session R W)}
    (hi : crew[i]? = some (r, k)) (hadds : t.Adds a.session u [] (List.replicate n k))
    (hmember : Member t u (r', k)) (hclosed : r.phase = .closed → r'.phase = .closed) :
    Crew t s ⟨{ a.stream with running := a.stream.running.set i r' }, u⟩ (crew.set i (r', k)) := by
  have hnodup : (crew.map Prod.snd).Nodup := h.numbers.imp Nat.ne_of_lt
  have hmem : (r, k) ∈ crew := List.mem_of_getElem? hi
  refine ⟨?_, h.registry, ?_, ?_, fun e he => ?_, ?_, fun hshut e he => ?_⟩
  · show a.stream.running.set i r' = _
    rw [h.running, List.map_set]
  · rw [map_snd_set hi]
    exact h.numbers
  · rw [map_snd_set hi]
    exact h.since
  · rcases eq_or_ne_of_mem_set hnodup hi he with rfl | ⟨he, hne⟩
    · exact hmember
    · exact (h.members e he).frame hadds fun hk => hne (List.eq_of_mem_replicate hk)
  · rw [map_snd_set hi]
    refine h.record.adds hadds fun k' hk' => ?_
    rw [List.eq_of_mem_replicate hk']
    exact List.mem_map_of_mem hmem
  · rcases eq_or_ne_of_mem_set hnodup hi he with rfl | ⟨he, -⟩
    · exact hclosed (h.shutDown hshut (r, k) hmem)
    · exact h.shutDown hshut e he

end

theorem Crew.work (h : Crew t s a crew) {m : Moment R W}
    (hothers : ∀ u, t.Keeps u (m.others u)) (i : Nat) :
    ∃ crew', Crew t s (Traced.work i m a) crew' := by
  have hlate : Crew t s ⟨a.stream, m.others a.session⟩ crew := h.frame (hothers a.session)
  have hrunning : a.stream.running[i]? = crew[i]?.map Prod.fst := by
    rw [h.running, List.getElem?_map]
  rcases hi : crew[i]? with _ | ⟨r, k⟩
  · rw [hi] at hrunning
    rw [Traced.work, hrunning]
    exact ⟨crew, hlate⟩
  · rw [hi] at hrunning
    rw [Traced.work, hrunning]
    have hmember : Member t (m.others a.session) (r, k) :=
      hlate.members _ (List.mem_of_getElem? hi)
    obtain ⟨phase, hphase⟩ : ∃ phase, phase = if m.wakes then Worker.wake r.phase else r.phase :=
      ⟨_, rfl⟩
    have hcalm : Worker.Calm t.toLedger phase := by
      rw [hphase]
      split
      · exact Worker.calm_wake hmember.calm
      · exact hmember.calm
    have hclosings : Worker.closings phase = Worker.closings r.phase := by
      rw [hphase]
      split
      · exact Worker.closings_wake _
      · rfl
    have hclosed (heq : r.phase = .closed) : phase = .closed := by
      rw [hphase, heq]
      split
      · rfl
      · rfl
    have hstep := r.worker.stepped m.signalled phase (m.others a.session)
    obtain ⟨hcalm', n, hadds, hcount⟩ := hstep.adds hmember.owns hmember.calmHandlers hcalm
    have hmoved := hmember.moved hadds hcalm' (by rw [hcount, hclosings])
    refine ⟨_, hphase ▸ hlate.set hi hadds hmoved fun heq => ?_⟩
    rw [hclosed heq]
    rfl

/-- All workers of a crew came to their end, and closed their consumers only. -/
structure Finished (t : Traced D R W) (u u' : Session R W)
    (crew crew' : List (Running D (Session R W) × Nat)) (closed : List Nat) : Prop where
  numbers : crew'.map Prod.snd = crew.map Prod.snd
  adds : t.Adds u u' [] closed
  own : ∀ k ∈ closed, k ∈ crew.map Prod.snd
  members : ∀ e ∈ crew', Member t u' e
  closed : ∀ e ∈ crew', e.1.phase = .closed

theorem finishAll_finished (hnumbers : (crew.map Prod.snd).Nodup) (h : ∀ e ∈ crew, Member t u e) :
    ∃ u' crew' closed, (EventStream.finishAll (crew.map Prod.fst)).run u =
      (crew'.map Prod.fst, u') ∧ Finished t u u' crew crew' closed := by
  induction crew generalizing u with
  | nil => exact ⟨u, [], [], rfl, rfl, Ledger.Keeps.of_world rfl, nofun, nofun, nofun⟩
  | cons e crew ih =>
    obtain ⟨hfirst, hrest⟩ := List.nodup_cons.1 hnumbers
    obtain ⟨hmember, hmembers⟩ := List.forall_mem_cons.1 h
    obtain ⟨u₁, n, hrun, hadds, hcount⟩ :=
      Worker.finish_closes hmember.owns hmember.calmHandlers hmember.calm u
    have hothers : ∀ e' ∈ crew, Member t u₁ e' := fun e' he' =>
      (hmembers e' he').frame hadds fun hk =>
        hfirst (List.eq_of_mem_replicate hk ▸ List.mem_map_of_mem he')
    obtain ⟨u₂, crew', closed, hruns, hfinished⟩ := ih hrest hothers
    have hmoved : Member t u₁ (⟨e.1.worker, .closed⟩, e.2) := hmember.moved hadds trivial hcount
    have hown : e.2 ∉ closed := fun hk => hfirst (hfinished.own _ hk)
    refine ⟨u₂, (⟨e.1.worker, .closed⟩, e.2) :: crew', List.replicate n e.2 ++ closed, ?_, ?_,
      hadds.trans hfinished.adds, ?_, ?_, ?_⟩
    · rw [List.map_cons, EventStream.finishAll, StateT.run_bind, hrun]
      show (EventStream.finishAll (crew.map Prod.fst) >>= _).run u₁ = _
      rw [StateT.run_bind, hruns]
      rfl
    · rw [List.map_cons, List.map_cons, hfinished.numbers]
    · intro k hk
      rw [List.map_cons, List.mem_cons]
      exact (List.mem_append.1 hk).imp List.eq_of_mem_replicate (hfinished.own k)
    · exact List.forall_mem_cons.2 ⟨hmoved.frame hfinished.adds hown, hfinished.members⟩
    · exact List.forall_mem_cons.2 ⟨rfl, hfinished.closed⟩

theorem Crew.shutdown (h : Crew t s a crew) :
    ∃ crew', Crew t s (t.perform a .shutdown).2 crew' := by
  have hnodup : (crew.map Prod.snd).Nodup := h.numbers.imp Nat.ne_of_lt
  obtain ⟨u, crew', closed, hrun, hfinished⟩ := finishAll_finished hnodup h.members
  have hperform : t.perform a .shutdown =
      (.ok (), ⟨{ a.stream with running := crew'.map Prod.fst, isShutDown := true }, u⟩) := by
    rw [← h.running] at hrun
    rw [Traced.perform_shutdown, hrun]
  rw [hperform]
  refine ⟨crew', rfl, h.registry, hfinished.numbers ▸ h.numbers, hfinished.numbers ▸ h.since,
    hfinished.members, ?_, fun _ => hfinished.closed⟩
  rw [hfinished.numbers]
  exact h.record.adds hfinished.adds hfinished.own

theorem Crew.subscribed (hs : t.Consistent s)
    (h : Crew t s a crew) {group : String} {n : Nat} {outcome : Except Error Unit × Life D R W}
    (hsubscribes : Subscribes t a group n outcome) : ∃ crew', Crew t s outcome.2 crew' := by
  cases hsubscribes with
  | refused => exact ⟨crew, h⟩
  | unconnected _ _ hadds => exact ⟨crew, h.frame hadds⟩
  | started _ hstarted => exact ⟨_, h.started hs hstarted⟩

theorem Crew.subscribedEach (hs : t.Consistent s)
    (h : Crew t s a crew) {groups : List (ProcessingGroup D (Session R W))}
    {outcome : Except Error Unit × Life D R W} (hsubscribes : SubscribesEach t a groups outcome) :
    ∃ crew', Crew t s outcome.2 crew' := by
  cases hsubscribes with
  | all hstarted => exact ⟨_, h.started hs hstarted⟩
  | stopped _ hstarted hfailed => exact (h.started hs hstarted).subscribed hs hfailed

end

/-! ### After a shutdown -/

theorem refused (connect : Connect (Session R W)) (h : a.stream.isShutDown = true) (group : String)
    (n : Nat) : ∃ e, Traced.runTask (EventStream.subscribe connect group n) a = (.error e, a) := by
  rcases hcheck : a.stream.check group n with e | x
  · exact ⟨e, by rw [Traced.runTask_subscribe, hcheck]⟩
  · exact absurd h (Bool.eq_false_iff.1 (EventStream.check_eq_ok.1 hcheck).2.2)

theorem refusedEach (connect : Connect (Session R W)) (h : a.stream.isShutDown = true)
    (groups : List (ProcessingGroup D (Session R W))) :
    (Traced.runTask (EventStream.subscribeEach connect groups) a).2 = a := by
  cases groups with
  | nil => rfl
  | cons g groups =>
    obtain ⟨e, hrefused⟩ := refused connect h g.name g.workers
    rw [EventStream.subscribeEach, Traced.runTask_bind, hrefused]

end Life

/-! ### Histories -/

/-- What others do in a step leaves the record as it is. -/
def StreamCall.Keeps (l : Ledger W) : StreamCall R W → Prop
  | .work _ m => ∀ s, l.Keeps s (m.others s)
  | _ => True

namespace Traced

variable {t : Traced D R W} {s : Session R W} {a : Life D R W}

theorem perform_subscribeAll (t : Traced D R W) (a : Life D R W) :
    t.perform a .subscribeAll =
      runTask (EventStream.subscribeEach t.connect (a.stream.registry.groups.entries.map (·.2)))
        a := by
  show runTask (EventStream.subscribeAll t.connect) a = _
  rw [EventStream.subscribeAll, runTask_bind]
  rfl

theorem isShutDown_perform (h : a.stream.isShutDown = true) (call : StreamCall R W) :
    (t.perform a call).2.stream.isShutDown = true := by
  cases call with
  | subscribe group n =>
    obtain ⟨e, hrefused⟩ := Life.refused t.connect h group n
    show (runTask (EventStream.subscribe t.connect group n) a).2.stream.isShutDown = true
    rw [hrefused]
    exact h
  | subscribeAll =>
    rw [perform_subscribeAll, Life.refusedEach t.connect h]
    exact h
  | shutdown => rfl
  | work i m =>
    show (work i m a).stream.isShutDown = true
    unfold work
    split
    · exact h
    · exact h

theorem after_concat (t : Traced D R W) (s : Session R W) (history : List (StreamCall R W))
    (call : StreamCall R W) :
    t.after s (history ++ [call]) = (t.perform (t.after s history) call).2 := by
  rw [after, List.foldl_append]
  rfl

/-- A stream stays shut down. -/
theorem isShutDown_after {history : List (StreamCall R W)} (h : .shutdown ∈ history) :
    (t.after s history).stream.isShutDown = true := by
  induction history using List.reverseRecOn with
  | nil => cases h
  | append_singleton history call ih =>
    rw [after_concat]
    rcases List.mem_append.1 h with h | h
    · exact isShutDown_perform (ih h) call
    · cases List.mem_singleton.1 h
      rfl

/-- The crew after a history of calls. -/
theorem crew_after (hs : t.Consistent s) {history : List (StreamCall R W)}
    (hothers : ∀ call ∈ history, call.Keeps t.toLedger) :
    ∃ crew, Life.Crew t s (t.after s history) crew := by
  induction history using List.reverseRecOn with
  | nil => exact ⟨[], .start t s⟩
  | append_singleton history call ih =>
    rw [List.forall_mem_append, List.forall_mem_singleton] at hothers
    obtain ⟨crew, h⟩ := ih hothers.1
    rw [after_concat]
    cases call with
    | subscribe group n => exact h.subscribed hs (t.subscribes _ group n)
    | subscribeAll =>
      rw [perform_subscribeAll]
      exact h.subscribedEach hs (Life.subscribesEach t _ _)
    | shutdown => exact h.shutdown
    | work i m => exact h.work hothers.2 i

/-- The groups of the stream, in the order in which they are subscribed. -/
def groups (t : Traced D R W) : List (ProcessingGroup D (Session R W)) :=
  t.registry.groups.entries.map (·.2)

/-- The order is that of their names. -/
theorem pairwise_groups (t : Traced D R W) : (t.groups.map (·.name)).Pairwise (· < ·) := by
  have hnames : t.groups.map (·.name) = t.registry.groups.keys := by
    rw [groups, List.map_map]
    exact List.map_congr_left fun e he =>
      (Registration.group_build (Dictionary.get?_of_mem he)).1
  rw [hnames]
  exact t.registry.groups.pairwise_keys

/-- Every group has the number of workers that it was declared with. -/
theorem declared_of_mem_groups {g : ProcessingGroup D (Session R W)} (hg : g ∈ t.groups) :
    .group g.name g.workers ∈ Registration.accepted t.dependencies t.registrations ∨
      (∀ n, .group g.name n ∉ Registration.accepted t.dependencies t.registrations) ∧
        g.workers = 1 := by
  obtain ⟨e, he, rfl⟩ := List.mem_map.1 hg
  obtain ⟨hname, hdeclared⟩ := Registration.group_build (Dictionary.get?_of_mem he)
  rw [hname]
  exact hdeclared

/-- **The life of an event stream.**  Take any history of subscriptions of groups with any
numbers of workers, of subscriptions of all groups, and of shutdowns, with steps of the workers
at any time between them.  Any attempt to connect a worker may fail.

* A subscription that is not valid does nothing at all.  One that cannot connect all of its
  workers starts none.  One that succeeds starts as many workers as are asked for, with the ids
  from one on, and each with a consumer of its own.
* The subscription of all groups takes them in the order of their names with the numbers of
  workers that they were declared with, or one worker for a group that was not declared.  At
  the first error it stops, and what it has started goes on.
* At any time the consumer of a worker that was started is closed once, if the worker is closed,
  and has not been closed before.  No other consumer is closed.
* Once there was a shutdown, the consumer of every worker that was started is closed, and no
  subscription changes anything, or connects anything. -/
theorem stream_lifecycle (t : Traced D R W) (s : Session R W) (hs : t.Consistent s)
    (history : List (StreamCall R W)) (hothers : ∀ call ∈ history, call.Keeps t.toLedger) :
    (∀ group n, Life.Subscribes t (t.after s history) group n
      (t.perform (t.after s history) (.subscribe group n))) ∧
    Life.SubscribesEach t (t.after s history) t.groups
      (t.perform (t.after s history) .subscribeAll) ∧
    (t.groups.map (·.name)).Pairwise (· < ·) ∧
    (∀ g ∈ t.groups,
      .group g.name g.workers ∈ Registration.accepted t.dependencies t.registrations ∨
        (∀ n, .group g.name n ∉ Registration.accepted t.dependencies t.registrations) ∧
          g.workers = 1) ∧
    ∃ crew, Life.Crew t s (t.after s history) crew ∧
      (crew.map fun e => e.1.worker.consumer).Nodup ∧
      (.shutdown ∈ history →
        (∀ e ∈ crew, e.1.phase = .closed ∧
          (t.closes (t.after s history).session.world).count e.2 = 1) ∧
        (∀ group n, ∃ e, t.perform (t.after s history) (.subscribe group n) =
          (.error e, t.after s history)) ∧
        (t.perform (t.after s history) .subscribeAll).2 = t.after s history) := by
  obtain ⟨crew, hcrew⟩ := crew_after hs hothers
  have hall : Life.SubscribesEach t (t.after s history) t.groups
      (t.perform (t.after s history) .subscribeAll) := by
    rw [perform_subscribeAll, hcrew.registry]
    exact Life.subscribesEach t _ _
  refine ⟨fun group n => t.subscribes _ group n, hall, t.pairwise_groups,
    fun g hg => declared_of_mem_groups hg, crew, hcrew, hcrew.nodup_consumers, fun h => ?_⟩
  have hshut := t.isShutDown_after (s := s) h
  refine ⟨fun e he => ?_, fun group n => Life.refused t.connect hshut group n, ?_⟩
  · have hclosed := hcrew.shutDown hshut e he
    have hcloses := (hcrew.members e he).closes
    rw [hclosed] at hcloses
    exact ⟨hclosed, hcloses⟩
  · rw [perform_subscribeAll]
    exact Life.refusedEach t.connect hshut _

/-- The attempts and the closes so far. -/
abbrev Book := List (String × Nat) × List Nat

/-- A consumer that never gets a record, and enters its close in the book. -/
def bookedConsumer (k : Nat) : Consumer (Session Driver.ReadModel Book) where
  poll _ _ s := (none, s)
  commit _ s := (.ok (), s)
  rewind _ s := (.ok (), s)
  close s := (.ok (), { s with world := (s.world.1, s.world.2 ++ [k]) })

/-- A connection to a broker that admits two workers of a group, and enters every attempt. -/
def bookedConnect : Connect (Session Driver.ReadModel Book) := fun group id s =>
  (if id ≤ 2 then .ok (bookedConsumer s.world.1.length) else .error (.broker "too many workers"),
    { s with world := (s.world.1 ++ [(group, id)], s.world.2) })

/-- The stream of the drivers' group with that broker. -/
def bookedStream : Traced (Driver.beside Bench.domain) Driver.ReadModel Book where
  attempts := Prod.fst
  closes := Prod.snd
  dependencies := Dependencies.empty
  registrations := Driver.registrations Driver.newYear
  config := .standard
  connect := bookedConnect
  tried := by
    intro group id answer s s' hconnect
    cases hconnect
    exact ⟨rfl, (List.append_nil _).symm⟩
  numbered := by
    intro group id consumer s s' hconnect
    obtain ⟨hanswer, -⟩ := Prod.mk.inj hconnect
    split at hanswer
    · cases hanswer
      refine ⟨?_, ?_, ?_, ?_⟩
      · intro timeout limit answer s s' hpoll
        cases hpoll
        exact .of_world rfl
      · intro offsets answer s s' hcommit
        cases hcommit
        exact .of_world rfl
      · intro positions answer s s' hrewind
        cases hrewind
        exact .of_world rfl
      · intro answer s s' hclose
        cases hclose
        exact ⟨(List.append_nil _).symm, rfl⟩
    · cases hanswer
  handlers group typeName :=
    Driver.groupHandlers_respect Driver.newYear (fun _ => Ledger.Keeps.of_world rfl) group typeName

/-- All groups are subscribed, one of the two workers polls, a subscription fails at its third
worker, and the stream is shut down. -/
def shortHistory : List (StreamCall Driver.ReadModel Book) :=
  [.subscribeAll, .work 1 ⟨⟨false, id⟩, false⟩, .subscribe Driver.groupName 3, .shutdown]

/-- An empty book. -/
def emptyBook : Session Driver.ReadModel Book :=
  Session.start ⟨some Table.empty, some Table.empty, some Table.empty⟩ ([], [])

/-- Five workers were tried, two were started, and these are closed. -/
theorem short_history_lifecycle :
    (bookedStream.after emptyBook shortHistory).session.world =
      ([("drivers", 1), ("drivers", 2), ("drivers", 1), ("drivers", 2), ("drivers", 3)], [0, 1]) ∧
    ∃ crew, Life.Crew bookedStream emptyBook (bookedStream.after emptyBook shortHistory) crew ∧
      ∀ e ∈ crew, e.1.phase = .closed := by
  have hothers : ∀ call ∈ shortHistory, call.Keeps bookedStream.toLedger := by
    intro call hcall
    simp only [shortHistory, List.mem_cons, List.not_mem_nil, or_false] at hcall
    rcases hcall with rfl | rfl | rfl | rfl
    · trivial
    · exact fun _ => .of_world rfl
    · trivial
    · trivial
  have hshutdown : .shutdown ∈ shortHistory := List.mem_of_getLast? rfl
  obtain ⟨-, -, -, -, crew, hcrew, -, hclosed⟩ :=
    stream_lifecycle bookedStream emptyBook (fun _ hk => nomatch hk) shortHistory hothers
  exact ⟨by decide +kernel, crew, hcrew, fun e he => ((hclosed hshutdown).1 e he).1⟩

end Traced

end Chronicle
