/-
Chronicle/Proofs/Gateway/Stages.lean

A command step by step.

`Gateway.send` is a command as a whole.  Between two of its stages others may do
theirs, so that here every wait of a command ends a stage: the check of its
context, the way into the critical section, the begin of the unit of work, the
load, the call of the handler, the insertion of the row, for every event the state
handler, each domain event handler and the append, the last save, commit or
rollback, and the way out of the section.

`Progress` is a place in the work inside the unit of work, and `Progress.rest` the
work that is left there; a step is its first task (`Progress.run_rest_step`).
`Stage` is a place in the whole command, with what is left in `Stage.rest`.

Main result: a command whose stages follow one another with no others in between
is `send` (`Stage.send_of_stages`).
-/
import Chronicle.Proofs.CriticalSection.Exclusion
import Chronicle.Proofs.Gateway.Local
import Chronicle.Proofs.Gateway.Replay

namespace Chronicle.Gateway

variable {D : Domain} {R W α : Type}

open Session

/-! ### The work inside the unit of work -/

/-- An aggregate with some of its events stored. -/
structure Storing (D : Domain) (a : D.AggregateType) where
  snapshot : Snapshot D a
  globalId : Int
  /-- The state after the events that are stored. -/
  state : D.State a
  /-- The events that are left. -/
  events : List (AnyEvent D)
  appended : List (String × Int)

/-- Saves an aggregate when its events are stored. -/
def Storing.save {a : D.AggregateType} (b : Storing D a) (ctx : ExecutionContext) :
    Task (Session R W) Receipt := do
  let sequence := lastSequence b.snapshot.sequence b.appended
  let saved := ((b.snapshot.savedAs b.globalId).withState (some b.state)).advanceTo sequence
  let _ ← Session.onStore (Store.save ctx saved)
  return ⟨b.snapshot.businessId, some b.globalId, sequence, b.appended⟩

/-- A place in the work of a command, between two of its tasks. -/
inductive Progress (D : Domain) (a : D.AggregateType) where
  | loading
  /-- The handler of the command is called next. -/
  | dispatching (snapshot : Snapshot D a)
  /-- The handler left a state and events.  A row for the aggregate is needed next. -/
  | inserting (snapshot : Snapshot D a) (state : D.State a) (events : List (AnyEvent D))
  /-- The next event is applied, or the aggregate saved if there is none. -/
  | applying (b : Storing D a)
  /-- An event has changed the state.  The next of its handlers is called, of which
  some have been called before, or the event appended if there is none. -/
  | publishing (b : Storing D a) (e : AnyEvent D) (called : Nat)
  | answered (answer : Except Error Receipt)

namespace Progress

variable {a : D.AggregateType}

/-- A task and the place after it.  A failure is an answer. -/
def proceed (t : Task (Session R W) α) (next : α → Progress D a) :
    StateM (Session R W) (Progress D a) := do
  match ← t.run with
  | .ok result => return next result
  | .error e => return .answered (.error e)

/-- The context of the handlers of an event. -/
def eventContext (r : Registry D (Session R W)) (x : Sending D) (b : Storing D a)
    (e : AnyEvent D) : HandlerContext D :=
  .forDomainEvent r.dependencies x.ctx ⟨e.typeName, b.globalId, none, x.metadata⟩

/-- The next task of the work. -/
def step (r : Registry D (Session R W)) (x : Sending D) (id : Uuid) :
    Progress D (D.aggregateOf x.type) →
      StateM (Session R W) (Progress D (D.aggregateOf x.type))
  | loading => proceed (loadOrFresh x.ctx _ id) .dispatching
  | dispatching snapshot =>
    proceed (r.dispatchCommand x.type snapshot.state x.command (.forCommand r.dependencies x.ctx))
      fun (state, buffer) =>
        if buffer.isEmpty then .answered (.ok ⟨id, snapshot.globalId, snapshot.sequence, []⟩)
        else .inserting snapshot state buffer.events
  | inserting snapshot state events =>
    proceed (ensureRow x.ctx snapshot) fun globalId =>
      .applying ⟨snapshot, globalId, state, events, []⟩
  | applying b =>
    match b.events with
    | [] => proceed (b.save x.ctx) fun receipt => .answered (.ok receipt)
    | e :: es =>
      proceed (MonadExcept.ofExcept (r.dispatchState _ b.state e)) fun state =>
        .publishing { b with state, events := es } e 0
  | publishing b e called =>
    match (Tagged.select e.type r.domainHandlers).drop called with
    | [] =>
      proceed (Session.onStore (Store.append x.ctx b.globalId e x.metadata)) fun sequence =>
        .applying { b with appended := b.appended ++ [(e.typeName, sequence)] }
    | h :: _ =>
      proceed (h.call (eventContext r x b e) e.event) fun _ => .publishing b e (called + 1)
  | answered answer => pure (.answered answer)

/-- What is left to do. -/
def rest (r : Registry D (Session R W)) (x : Sending D) (id : Uuid) :
    Progress D (D.aggregateOf x.type) → Task (Session R W) Receipt
  | loading => process r x.ctx x.metadata id x.type x.command
  | dispatching snapshot => do
    let (state, buffer) ←
      r.dispatchCommand x.type snapshot.state x.command (.forCommand r.dependencies x.ctx)
    if buffer.isEmpty then return ⟨id, snapshot.globalId, snapshot.sequence, []⟩
    else store r x.ctx x.metadata snapshot state buffer.events
  | inserting snapshot state events => store r x.ctx x.metadata snapshot state events
  | applying b => finish b
  | publishing b e called => do
    Registry.callAll e.event (eventContext r x b e)
      ((Tagged.select e.type r.domainHandlers).drop called)
    let sequence ← Session.onStore (Store.append x.ctx b.globalId e x.metadata)
    finish { b with appended := b.appended ++ [(e.typeName, sequence)] }
  | answered answer => MonadExcept.ofExcept answer
where
  /-- The events that are left, and the last save. -/
  finish (b : Storing D (D.aggregateOf x.type)) : Task (Session R W) Receipt := do
    let (state, appended) ← applyEvents r x.ctx x.metadata b.globalId b.state b.events
    { b with state, events := [], appended := b.appended ++ appended : Storing D _ }.save x.ctx

section

variable {r : Registry D (Session R W)} {x : Sending D} {id : Uuid}

/-- The place after a task has the rest of the work, if the task is its first. -/
theorem run_rest_proceed {t : Task (Session R W) α}
    {next : α → Progress D (D.aggregateOf x.type)}
    {f : α → Task (Session R W) Receipt} (h : ∀ result, (next result).rest r x id = f result)
    (s : Session R W) :
    let after := proceed t next s
    (after.1.rest r x id).run after.2 = (t >>= f).run s := by
  rcases hrun : t.run s with ⟨e | result, s'⟩
  · have hproceed : proceed t next s = (.answered (.error e), s') := by
      simp only [proceed, bind_apply, hrun, pure_apply]
    rw [hproceed, Task.run_bind_of_error hrun]
    exact Task.run_ofExcept (.error e) s'
  · have hproceed : proceed t next s = (next result, s') := by
      simp only [proceed, bind_apply, hrun, pure_apply]
    rw [hproceed, Task.run_bind_of_ok hrun, ← h]

/-- When no event is left, the aggregate is saved. -/
theorem finish_nil {b : Storing D (D.aggregateOf x.type)} (hevents : b.events = []) :
    rest.finish r x b = b.save x.ctx := by
  simp only [rest.finish, hevents, applyEvents, pure_bind, List.append_nil]
  rfl

/-- The first event that is left, and then the others. -/
theorem finish_cons {b : Storing D (D.aggregateOf x.type)} {e : AnyEvent D}
    {es : List (AnyEvent D)} (hevents : b.events = e :: es) :
    rest.finish r x b = (do
      let state ← MonadExcept.ofExcept (r.dispatchState _ b.state e)
      rest r x id (.publishing { b with state, events := es } e 0)) := by
  simp only [rest.finish, rest, hevents, applyEvents, applyEvent, bind_assoc, pure_bind,
    Registry.dispatchDomain, eventContext, List.append_assoc, List.singleton_append, List.drop_zero]

/-- A step is the first task of what is left. -/
theorem run_rest_step (p : Progress D (D.aggregateOf x.type)) (s : Session R W) :
    let after := p.step r x id s
    (after.1.rest r x id).run after.2 = (p.rest r x id).run s := by
  cases p with
  | loading => exact run_rest_proceed (fun _ => rfl) s
  | dispatching snapshot =>
    refine run_rest_proceed (fun result => ?_) s
    dsimp only
    split
    · rfl
    · rfl
  | inserting snapshot state events =>
    refine run_rest_proceed (fun globalId => ?_) s
    rfl
  | applying b =>
    rcases hevents : b.events with _ | ⟨e, es⟩
    · simp only [step, hevents]
      refine (run_rest_proceed (f := pure) (fun _ => rfl) s).trans ?_
      rw [bind_pure, show rest r x id (.applying b) = _ from finish_nil hevents]
    · simp only [step, hevents]
      rw [show rest r x id (.applying b) = _ from finish_cons hevents]
      exact run_rest_proceed (fun _ => rfl) s
  | publishing b e called =>
    rcases hhandlers : (Tagged.select e.type r.domainHandlers).drop called with _ | ⟨h, hs⟩
    · simp only [step, rest, hhandlers, Registry.callAll, pure_bind]
      exact run_rest_proceed (fun _ => rfl) s
    · have htail : (Tagged.select e.type r.domainHandlers).drop (called + 1) = hs := by
        rw [← List.tail_drop, hhandlers, List.tail_cons]
      have hrest : rest r x id (.publishing b e called) = (do
          h.call (eventContext r x b e) e.event
          rest r x id (.publishing b e (called + 1))) := by
        simp only [rest, hhandlers, htail, Registry.callAll, bind_assoc]
      rw [hrest]
      simp only [step, hhandlers]
      exact run_rest_proceed (fun _ => rfl) s
  | answered answer => rfl

/-! ### What a step leaves alone -/

theorem snd_proceed (t : Task (Session R W) α)
    (next : α → Progress D (D.aggregateOf x.type)) (s : Session R W) :
    (proceed t next s).2 = (t.run s).2 := by
  rcases hrun : t.run s with ⟨e | result, s'⟩
  · simp only [proceed, bind_apply, hrun, pure_apply]
  · simp only [proceed, bind_apply, hrun, pure_apply]

theorem local_proceed {t : Task (Session R W) α} (h : Local t.run)
    (next : α → Progress D (D.aggregateOf x.type)) : Local (proceed t next) := by
  refine h.bind fun answer => ?_
  split
  · exact local_pure _
  · exact local_pure _

/-- A step stays inside the unit of work. -/
theorem inside_step {ρ : Database R → Database R → Prop} (hρ : Database.Admits ρ)
    (hr : r.Confined ρ ρ) (p : Progress D (D.aggregateOf x.type)) (s : Session R W) :
    s.Inside ρ (p.step r x id s).2 := by
  cases p with
  | loading =>
    rw [step, snd_proceed]
    exact loadOrFresh_inside hρ.refl hρ.trans x.ctx _ id s
  | dispatching snapshot =>
    rw [step, snd_proceed]
    exact r.dispatchCommand_inside hr hρ.refl hρ.trans x.type snapshot.state x.command _ s
  | inserting snapshot state events =>
    rw [step, snd_proceed]
    exact ensureRow_inside hρ x.ctx snapshot s
  | applying b =>
    rcases hevents : b.events with _ | ⟨e, es⟩
    · simp only [step, hevents, snd_proceed]
      exact Task.Respects.bind (.trans hρ.trans) (onStore_respects (Store.save_respects hρ x.ctx _))
        (fun _ => Task.respects_pure (.refl hρ.refl) _) s
    · simp only [step, hevents, snd_proceed]
      exact Task.respects_ofExcept (.refl hρ.refl) _ s
  | publishing b e called =>
    rcases hhandlers : (Tagged.select e.type r.domainHandlers).drop called with _ | ⟨h, hs⟩
    · simp only [step, hhandlers, snd_proceed]
      exact onStore_respects (Store.append_respects hρ x.ctx _ e _) s
    · simp only [step, hhandlers, snd_proceed]
      have hmem : h ∈ Tagged.select e.type r.domainHandlers :=
        List.mem_of_mem_drop (hhandlers ▸ List.mem_cons_self)
      exact callWith_respects (.refl hρ.refl) (.trans hρ.trans) _ _
        (fun values => hr.domainEvent e.type h (Tagged.mem_select.1 hmem) values e.event) s
  | answered answer => exact .refl hρ.refl s

variable (hr : r.Local)

include hr

theorem local_step (p : Progress D (D.aggregateOf x.type)) : Local (p.step r x id) := by
  cases p with
  | loading => exact local_proceed (local_loadOrFresh x.ctx _ id) _
  | dispatching snapshot => exact local_proceed (hr.dispatchCommand x.type _ x.command _) _
  | inserting snapshot state events => exact local_proceed (local_ensureRow x.ctx snapshot) _
  | applying b =>
    rcases hevents : b.events with _ | ⟨e, es⟩
    · simp only [step, hevents]
      exact local_proceed (local_seq (local_onStore _) fun _ => local_pure _) _
    · simp only [step, hevents]
      exact local_proceed (local_ofExcept _) _
  | publishing b e called =>
    rcases hhandlers : (Tagged.select e.type r.domainHandlers).drop called with _ | ⟨h, hs⟩
    · simp only [step, hhandlers]
      exact local_proceed (local_onStore _) _
    · simp only [step, hhandlers]
      have hmem : h ∈ Tagged.select e.type r.domainHandlers :=
        List.mem_of_mem_drop (hhandlers ▸ List.mem_cons_self)
      exact local_proceed (hr.handler hmem _ _) _
  | answered answer => exact local_pure _

theorem local_finish (b : Storing D (D.aggregateOf x.type)) : Local (rest.finish r x b).run := by
  refine local_seq (local_applyEvents hr x.ctx x.metadata b.globalId b.state b.events) fun _ => ?_
  exact local_seq (local_onStore _) fun _ => local_pure _

theorem local_rest (p : Progress D (D.aggregateOf x.type)) : Local (p.rest r x id).run := by
  cases p with
  | loading => exact local_process hr x.ctx x.metadata id x.type x.command
  | dispatching snapshot =>
    refine local_seq (hr.dispatchCommand x.type _ x.command _) fun result => ?_
    dsimp only
    split
    · exact local_pure _
    · exact local_store hr x.ctx x.metadata snapshot _ _
  | inserting snapshot state events => exact local_store hr x.ctx x.metadata snapshot state events
  | applying b => exact local_finish hr b
  | publishing b e called =>
    refine local_seq (Registry.local_callAll e.event _ fun h hh =>
      hr.handler (List.mem_of_mem_drop hh) _ _) fun _ => ?_
    exact local_seq (local_onStore _) fun _ => local_finish hr _
  | answered answer => exact local_ofExcept answer

end

end Progress

/-! ### The whole command -/

/-- The end of a unit of work: a commit, or a rollback after a failure. -/
def settle (ctx : ExecutionContext) :
    Except Error Receipt → StateM (Session R W) (Except Error Receipt)
  | .ok receipt => do
    match ← (Session.onStore (Store.commit ctx)).run with
    | .ok () => return .ok receipt
    | .error e => return .error e
  | .error e => do
    let _ ← (Session.onStore (Store.rollback ctx)).run
    return .error e

theorem local_settle (ctx : ExecutionContext) (answer : Except Error Receipt) :
    Local (settle ctx answer : StateM (Session R W) _) := by
  rcases answer with e | receipt
  · exact (local_onStore _).bind fun _ => local_pure _
  · refine (local_onStore _).bind fun committed => ?_
    split
    · exact local_pure _
    · exact local_pure _

/-- Either way the unit of work is closed, and the answer is that of the work. -/
theorem run_settle {ctx : ExecutionContext} {s : Session R W} {db : Database R}
    (hunit : s.store.unit = some ⟨ctx, db⟩) (answer : Except Error Receipt) :
    ∃ db', settle ctx answer s = (answer, { s with store := ⟨db', none⟩ }) := by
  rcases answer with e | receipt
  · have hrollback : (onStore (Store.rollback ctx) : Task (Session R W) Unit).run s =
        (.ok (), { s with store := ⟨s.store.committed, none⟩ }) := by
      rw [run_onStore, Store.run_rollback hunit]
    refine ⟨s.store.committed, ?_⟩
    simp only [settle, bind_apply, hrollback, pure_apply]
  · have hcommit : (onStore (Store.commit ctx) : Task (Session R W) Unit).run s =
        (.ok (), { s with store := ⟨db, none⟩ }) := by
      rw [run_onStore, Store.run_commit hunit]
    refine ⟨db, ?_⟩
    simp only [settle, bind_apply, hcommit, pure_apply]

/-- Gives an answer after it is counted. -/
def counted (x : Sending D) (answer : Except Error Receipt) :
    StateM (Session R W) (Except Error Receipt) := do
  measureEvents answer
  Session.measure fun m => m.recordCommand (D.commandName x.type) x.seconds (outcome answer)
  Session.measureSections
  return answer

/-- Counting changes the metrics only. -/
theorem run_counted (x : Sending D) (answer : Except Error Receipt) (s : Session R W) :
    ∃ metrics, counted x answer s = (answer, { s with metrics }) := by
  obtain ⟨metrics, hmeasured⟩ := run_measureEvents answer s
  have hmeasured' : measureEvents answer s = (⟨⟩, { s with metrics }) := hmeasured
  let metrics' := metrics.recordCommand (D.commandName x.type) x.seconds (outcome answer)
  refine ⟨metrics'.setOccupied s.sections.size, ?_⟩
  simp only [counted, bind_apply, hmeasured']
  rfl

/-- Steps of the critical sections, as far as they are possible. -/
def performing (steps : List CriticalSections.Step) : StateM (Session R W) Unit :=
  modify fun s => { s with sections := s.sections.perform steps }

/-- A place in a command, between two of its waits. -/
inductive Stage (D : Domain) (a : D.AggregateType) where
  | checking
  | registering (id : Uuid)
  | queueing (id : Uuid) (key : Nat)
  /-- In the queue of the section. -/
  | waiting (id : Uuid) (key : Nat)
  /-- In the section, from here to `closed`. -/
  | opening (id : Uuid) (key : Nat)
  /-- In a unit of work. -/
  | working (id : Uuid) (key : Nat) (p : Progress D a)
  | closed (key : Nat) (answer : Except Error Receipt)
  /-- The section is free for the next, but the ticket still there. -/
  | leaving (key : Nat) (answer : Except Error Receipt)
  | counting (answer : Except Error Receipt)
  | finished (answer : Except Error Receipt)

namespace Stage

/-- A step of the critical sections. -/
def moveSections? (s : Session R W) (a : CriticalSections.Step) : Option (Session R W) :=
  (s.sections.step? a).map fun sections => { s with sections }

/-- The next step, unless the command has to wait or is finished. -/
def step? (r : Registry D (Session R W)) (x : Sending D) (s : Session R W) :
    Stage D (D.aggregateOf x.type) → Option (Stage D (D.aggregateOf x.type) × Session R W)
  | checking =>
    if s.store.isActive x.ctx then some (counting (.error .unitOfWorkActive), s)
    else
      match D.target x.command with
      | none => some (counting (.error (.noTargetIdentifier (D.commandName x.type))), s)
      | some id => some (registering id, s)
  | registering id =>
    (moveSections? s (.register id)).map fun s' => (queueing id s.sections.nextTicket, s')
  | queueing id key => (moveSections? s (.queue key)).map fun s' => (waiting id key, s')
  | waiting id key =>
    (moveSections? s (.obtain key)).map fun s' => (opening id key, (Session.measureSections s').2)
  | opening id key =>
    match (Session.onStore (Store.acquire x.ctx) : Task (Session R W) Unit).run s with
    | (.ok (), s') => some (working id key .loading, s')
    | (.error e, s') => some (closed key (.error e), s')
  | working _ key (.answered answer) =>
    let (answer, s') := settle x.ctx answer s
    some (closed key answer, s')
  | working id key p =>
    let (p, s') := p.step r x id s
    some (working id key p, s')
  | closed key answer => (moveSections? s (.unlock key)).map fun s' => (leaving key answer, s')
  | leaving key answer => (moveSections? s (.leave key)).map fun s' => (counting answer, s')
  | counting answer => some (finished answer, (counted x answer s).2)
  | finished _ => none

/-- What is left to do for a command that nobody else comes between. -/
def rest (r : Registry D (Session R W)) (x : Sending D) :
    Stage D (D.aggregateOf x.type) → StateM (Session R W) (Except Error Receipt)
  | checking => (send r x.ctx x.metadata x.type x.command x.seconds).run
  | registering id => do
    let answer ← (inSection id (work id)).run
    counted x answer
  | queueing id key => do
    performing [.queue key, .obtain key]
    entering id key
  | waiting id key => do
    performing [.obtain key]
    entering id key
  | opening id key => closing key (work id).run
  | working id key p => closing key ((p.rest r x id).run >>= settle x.ctx)
  | closed key answer => closing key (pure answer)
  | leaving key answer => do
    performing [.leave key]
    counted x answer
  | counting answer => counted x answer
  | finished answer => pure answer
where
  /-- The whole unit of work. -/
  work (id : Uuid) : Task (Session R W) Receipt :=
    unitOfWork x.ctx (process r x.ctx x.metadata id x.type x.command)
  /-- What is done in the section and behind it. -/
  entering (id : Uuid) (key : Nat) : StateM (Session R W) (Except Error Receipt) := do
    Session.measureSections
    closing key (work id).run
  /-- What is done when the answer is known. -/
  closing (key : Nat) (t : StateM (Session R W) (Except Error Receipt)) :
      StateM (Session R W) (Except Error Receipt) := do
    let answer ← t
    leaveSection key
    counted x answer

/-- The steps, from a stage to the next one. -/
inductive Stepped (r : Registry D (Session R W)) (x : Sending D) (s : Session R W) :
    Stage D (D.aggregateOf x.type) → Stage D (D.aggregateOf x.type) → Session R W → Prop
  | active : s.store.isActive x.ctx = true →
      Stepped r x s .checking (.counting (.error .unitOfWorkActive)) s
  | untargeted : s.store.isActive x.ctx = false → D.target x.command = none →
      Stepped r x s .checking
        (.counting (.error (.noTargetIdentifier (D.commandName x.type)))) s
  | targeted {id : Uuid} : s.store.isActive x.ctx = false → D.target x.command = some id →
      Stepped r x s .checking (.registering id) s
  | register {id : Uuid} :
      Stepped r x s (.registering id) (.queueing id s.sections.nextTicket)
        { s with sections := s.sections.register id }
  | queue {id : Uuid} {key : Nat} {sections : CriticalSections} :
      s.sections.step? (.queue key) = some sections →
      Stepped r x s (.queueing id key) (.waiting id key) { s with sections }
  | obtain {id : Uuid} {key : Nat} {sections : CriticalSections} :
      s.sections.step? (.obtain key) = some sections →
      Stepped r x s (.waiting id key) (.opening id key)
        { s with sections, metrics := s.metrics.setOccupied sections.size }
  | acquire {id : Uuid} {key : Nat} {s' : Session R W} :
      (onStore (Store.acquire x.ctx) : Task (Session R W) Unit).run s = (.ok (), s') →
      Stepped r x s (.opening id key) (.working id key .loading) s'
  | refuse {id : Uuid} {key : Nat} {e : Error} {s' : Session R W} :
      (onStore (Store.acquire x.ctx) : Task (Session R W) Unit).run s = (.error e, s') →
      Stepped r x s (.opening id key) (.closed key (.error e)) s'
  | work {id : Uuid} {key : Nat} {p : Progress D (D.aggregateOf x.type)} :
      (∀ answer, p ≠ .answered answer) →
      Stepped r x s (.working id key p) (.working id key (p.step r x id s).1) (p.step r x id s).2
  | settle {id : Uuid} {key : Nat} {answer : Except Error Receipt} :
      Stepped r x s (.working id key (.answered answer))
        (.closed key (Gateway.settle x.ctx answer s).1) (Gateway.settle x.ctx answer s).2
  | unlock {key : Nat} {answer : Except Error Receipt} {sections : CriticalSections} :
      s.sections.step? (.unlock key) = some sections →
      Stepped r x s (.closed key answer) (.leaving key answer) { s with sections }
  | leave {key : Nat} {answer : Except Error Receipt} {sections : CriticalSections} :
      s.sections.step? (.leave key) = some sections →
      Stepped r x s (.leaving key answer) (.counting answer) { s with sections }
  | count {answer : Except Error Receipt} :
      Stepped r x s (.counting answer) (.finished answer) (counted x answer s).2

section

variable {r : Registry D (Session R W)} {x : Sending D} {s s' : Session R W}

theorem moveSections?_eq_some {a : CriticalSections.Step}
    (h : moveSections? s a = some s') :
    ∃ sections, s.sections.step? a = some sections ∧ s' = { s with sections } := by
  obtain ⟨sections, hstep, rfl⟩ := Option.map_eq_some_iff.1 h
  exact ⟨sections, hstep, rfl⟩

/-- Every step is one of the cases. -/
theorem stepped {stage stage' : Stage D (D.aggregateOf x.type)}
    (h : stage.step? r x s = some (stage', s')) : Stepped r x s stage stage' s' := by
  cases stage with
  | checking =>
    simp only [step?] at h
    rcases hactive : s.store.isActive x.ctx with _ | _
    · simp only [hactive, Bool.false_eq_true, if_false] at h
      split at h
      · rename_i htarget
        cases h
        exact .untargeted hactive htarget
      · rename_i id htarget
        cases h
        exact .targeted hactive htarget
    · simp only [hactive, if_true] at h
      cases h
      exact .active hactive
  | registering id =>
    cases h
    exact .register
  | queueing id key =>
    obtain ⟨_, hmove, heq⟩ := Option.map_eq_some_iff.1 h
    cases heq
    obtain ⟨sections, hstep, rfl⟩ := moveSections?_eq_some hmove
    exact .queue hstep
  | waiting id key =>
    obtain ⟨_, hmove, heq⟩ := Option.map_eq_some_iff.1 h
    cases heq
    obtain ⟨sections, hstep, rfl⟩ := moveSections?_eq_some hmove
    exact .obtain hstep
  | opening id key =>
    simp only [step?] at h
    split at h
    · rename_i hrun
      cases h
      exact .acquire hrun
    · rename_i hrun
      cases h
      exact .refuse hrun
  | working id key p =>
    cases p with
    | answered answer =>
      cases h
      exact .settle
    | _ =>
      cases h
      exact .work nofun
  | closed key answer =>
    obtain ⟨_, hmove, heq⟩ := Option.map_eq_some_iff.1 h
    cases heq
    obtain ⟨sections, hstep, rfl⟩ := moveSections?_eq_some hmove
    exact .unlock hstep
  | leaving key answer =>
    obtain ⟨_, hmove, heq⟩ := Option.map_eq_some_iff.1 h
    cases heq
    obtain ⟨sections, hstep, rfl⟩ := moveSections?_eq_some hmove
    exact .leave hstep
  | counting answer =>
    cases h
    exact .count
  | finished answer => cases h

/-! ### Alone -/

/-- A unit of work is settled when its work has an answer. -/
theorem run_unitOfWork (ctx : ExecutionContext) (work : Task (Session R W) Receipt) :
    (unitOfWork ctx work).run s =
      match (onStore (Store.acquire ctx) : Task (Session R W) Unit).run s with
      | (.ok (), s') => (work.run >>= settle ctx) s'
      | (.error e, s') => (.error e, s') := by
  rcases hacquire : (onStore (Store.acquire ctx) : Task (Session R W) Unit).run s with ⟨e | _, s'⟩
  · rw [unitOfWork, Task.run_bind_of_error hacquire]
  · rw [unitOfWork, Task.run_bind_of_ok hacquire]
    simp only [Task.run_mk, bind_apply]
    rcases work.run s' with ⟨e | receipt, s''⟩
    · rfl
    · rfl

/-- Steps that were made one after the other. -/
theorem perform_cons {sections sections' : CriticalSections} {a : CriticalSections.Step}
    (h : sections.step? a = some sections') (as : List CriticalSections.Step) :
    sections.perform (a :: as) = sections'.perform as := by
  rw [CriticalSections.perform, List.foldl_cons, h]
  rfl

theorem perform_skip {sections : CriticalSections} {a : CriticalSections.Step}
    (h : sections.step? a = none) (as : List CriticalSections.Step) :
    sections.perform (a :: as) = sections.perform as := by
  rw [CriticalSections.perform, List.foldl_cons, h]
  rfl

/-- Whoever has released a guard has nothing to abandon. -/
theorem abandon_of_unlock {sections sections' : CriticalSections} {key : Nat}
    (h : sections.step? (.unlock key) = some sections') :
    sections'.step? (.abandon key) = none := by
  obtain ⟨t, ht, hunlock⟩ := Option.bind_eq_some_iff.1 h
  obtain ⟨-, rfl⟩ := CriticalSections.mem_of_ticket? ht
  unfold CriticalSections.unlock? at hunlock
  split at hunlock
  · cases hunlock
    show ((sections.dropOut t).ticket? t.key).bind (sections.dropOut t).abandon? = none
    rw [CriticalSections.ticket?_dropOut ht]
    rfl
  · cases hunlock

theorem closing_congr {key : Nat} {t t' : StateM (Session R W) (Except Error Receipt)}
    (h : t s = t' s') : rest.closing x key t s = rest.closing x key t' s' := by
  simp only [rest.closing, bind_apply, h]

/-- Before the check of its context a command has all of its work to do. -/
theorem rest_checking {t : StateM (Session R W) (Except Error Receipt)}
    (h : (run r x.ctx x.metadata x.type x.command).run s = t s) :
    checking.rest r x s = (t >>= counted x) s := by
  show ((run r x.ctx x.metadata x.type x.command).run >>= counted x) s = _
  rw [bind_apply, bind_apply, h]

/-- What is left does not change with a step. -/
theorem rest_step {stage stage' : Stage D (D.aggregateOf x.type)}
    (h : stage.step? r x s = some (stage', s')) : stage'.rest r x s' = stage.rest r x s := by
  cases stepped h with
  | active hactive =>
    refine (rest_checking (t := pure (.error .unitOfWorkActive)) ?_).symm
    simp only [run, Task.run_get_bind, hactive]
    rfl
  | untargeted hactive htarget =>
    refine (rest_checking (t := pure (.error (.noTargetIdentifier (D.commandName x.type)))) ?_).symm
    simp only [run, Task.run_get_bind, hactive, htarget]
    rfl
  | @targeted id hactive htarget =>
    refine (rest_checking (t := (inSection id (rest.work r x id)).run) ?_).symm
    simp only [run, Task.run_get_bind, hactive, htarget]
    rfl
  | register => rfl
  | @queue id key sections hstep =>
    show _ = (rest.entering r x id key) { s with sections := s.sections.perform _ }
    rw [perform_cons hstep]
    rfl
  | @obtain id key sections hstep =>
    show _ = (rest.entering r x id key) { s with sections := s.sections.perform _ }
    rw [perform_cons hstep]
    rfl
  | @acquire id key _ hrun =>
    refine closing_congr ?_
    show _ = (unitOfWork x.ctx _).run s
    rw [run_unitOfWork, hrun]
    rfl
  | @refuse id key e _ hrun =>
    refine closing_congr ?_
    show _ = (unitOfWork x.ctx _).run s
    rw [run_unitOfWork, hrun]
    rfl
  | @work id key p =>
    refine closing_congr ?_
    have hrest : (((p.step r x id s).1.rest r x id).run (p.step r x id s).2) =
        (p.rest r x id).run s := Progress.run_rest_step p s
    show settle x.ctx (((p.step r x id s).1.rest r x id).run (p.step r x id s).2).1
      (((p.step r x id s).1.rest r x id).run (p.step r x id s).2).2 = _
    rw [hrest]
    rfl
  | @settle id key answer =>
    refine closing_congr ?_
    have hrest : (Progress.rest r x id (.answered answer)).run s = (answer, s) :=
      Task.run_ofExcept answer s
    show _ = settle x.ctx ((Progress.rest r x id (.answered answer)).run s).1
      ((Progress.rest r x id (.answered answer)).run s).2
    rw [hrest]
    rfl
  | @unlock key answer sections hstep =>
    -- a guard that is released is not abandoned as well
    show _ = (counted x answer) { s with sections := s.sections.perform _ }
    rw [perform_cons hstep, perform_skip (abandon_of_unlock hstep)]
    rfl
  | @leave key answer sections hstep =>
    show _ = (counted x answer) { s with sections := s.sections.perform _ }
    rw [perform_cons hstep]
    rfl
  | count => rfl

/-- A command whose stages follow one another, with no others in between, is the
command as a whole. -/
theorem send_of_stages {answer : Except Error Receipt}
    (h : Relation.ReflTransGen (fun a b => a.1.step? r x a.2 = some b) (checking, s)
      (finished answer, s')) :
    (send r x.ctx x.metadata x.type x.command x.seconds).run s = (answer, s') := by
  have hrest (b : Stage D (D.aggregateOf x.type) × Session R W)
      (hb : Relation.ReflTransGen (fun a b => a.1.step? r x a.2 = some b) (checking, s) b) :
      b.1.rest r x b.2 = checking.rest r x s := by
    induction hb with
    | refl => rfl
    | tail _ hstep ih => exact (rest_step hstep).trans ih
  exact (hrest _ h).symm

end

end Stage

end Chronicle.Gateway
