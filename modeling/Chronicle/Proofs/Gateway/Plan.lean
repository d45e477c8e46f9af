/-
Chronicle/Proofs/Gateway/Plan.lean

What a command does for its events, and what the handlers of events are shown.

The work for the events of a command is planned in pieces (`plan`): for every event its
state handler, then the handlers that were registered for its type, then the append.
A command performs the pieces one after the other, up to the first that fails
(`foldlM_plan`).  `taken` lists those that are taken up, each with the session in which
it begins.

The aggregate has its row before the first piece (`HasRow`), and from then on only an
append adds to the log.  So a handler is shown the row and the events before its own
(`Shown`).

Main result: `events_in_order`.
-/
import Chronicle.Proofs.Gateway.Projection

namespace Chronicle

variable {D : Domain} {R W σ : Type}

open Session Database

/-! ### Pieces -/

/-- The domain event handlers for events of a type, in the order in which they were
registered.  Calls that failed added none. -/
def Registration.domainHandlersFor (d : Dependencies D) (calls : List (Registration D σ))
    (t : D.EventType) : List (EventHandler D σ t) :=
  Tagged.select t ((accepted d calls).flatMap domainHandlers)

theorem Registration.select_domainHandlers (d : Dependencies D) (calls : List (Registration D σ))
    (t : D.EventType) :
    Tagged.select t (build d calls).domainHandlers = domainHandlersFor d calls t := by
  rw [(holds_build d calls).domainHandlers]
  rfl

namespace Gateway

/-- A piece of the work for an event. -/
inductive Piece (D : Domain) (σ : Type) where
  /-- The state handler is applied. -/
  | state (e : AnyEvent D)
  /-- A domain event handler is called. -/
  | handler (e : AnyEvent D) (h : EventHandler D σ e.type) (info : EventInfo)
  | append (e : AnyEvent D)

/-- What was done for events so far: the state that they made, and what was appended. -/
abbrev Applied (D : Domain) (a : D.AggregateType) := D.State a × List (String × Int)

/-- The work of a piece. -/
def Piece.perform (r : Registry D (Session R W)) (ctx : ExecutionContext) (metadata : Metadata)
    (globalId : Int) {a : D.AggregateType} (p : Applied D a) :
    Piece D (Session R W) → Task (Session R W) (Applied D a)
  | .state e => do
    let state ← MonadExcept.ofExcept (r.dispatchState a p.1 e)
    return (state, p.2)
  | .handler e h info => do
    h.call (.forDomainEvent r.dependencies ctx info) e.event
    return p
  | .append e => do
    let sequence ← Session.onStore (Store.append ctx globalId e metadata)
    return (p.1, p.2 ++ [(e.typeName, sequence)])

/-- The events that a piece appends. -/
def Piece.appended : Piece D σ → List (AnyEvent D)
  | .append e => [e]
  | _ => []

/-- The pieces of the work for one event. -/
def eventPlan (handlers : (t : D.EventType) → List (EventHandler D σ t)) (metadata : Metadata)
    (globalId : Int) (e : AnyEvent D) : List (Piece D σ) :=
  .state e ::
    ((handlers e.type).map fun h => .handler e h ⟨e.typeName, globalId, none, metadata⟩) ++
      [.append e]

/-- The pieces of the work for events, one event after the other. -/
def plan (handlers : (t : D.EventType) → List (EventHandler D σ t)) (metadata : Metadata)
    (globalId : Int) (events : List (AnyEvent D)) : List (Piece D σ) :=
  events.flatMap (eventPlan handlers metadata globalId)

/-- The end of a command with events: the state is saved. -/
def saveApplied (ctx : ExecutionContext) {a : D.AggregateType} (snapshot : Snapshot D a)
    (globalId : Int) (p : Applied D a) : Task (Session R W) Receipt := do
  let sequence := lastSequence snapshot.sequence p.2
  let saved := ((snapshot.savedAs globalId).withState (some p.1)).advanceTo sequence
  let _ ← Session.onStore (Store.save ctx saved)
  return ⟨snapshot.businessId, some globalId, sequence, p.2⟩

/-! ### A command performs its plan -/

section

variable {r : Registry D (Session R W)} {ctx : ExecutionContext} {metadata : Metadata}
  {globalId : Int} {a : D.AggregateType}

theorem foldlM_handlers (e : AnyEvent D) (info : EventInfo)
    (hs : List (EventHandler D (Session R W) e.type)) (p : Applied D a) :
    (hs.map fun h => .handler e h info).foldlM (Piece.perform r ctx metadata globalId) p =
      Registry.callAll e.event (.forDomainEvent r.dependencies ctx info) hs >>= fun _ =>
        pure p := by
  induction hs with
  | nil => rfl
  | cons h hs ih =>
    rw [List.map_cons, List.foldlM_cons, Piece.perform, bind_assoc]
    simp only [pure_bind, ih, Registry.callAll, bind_assoc]

variable {handlers : (t : D.EventType) → List (EventHandler D (Session R W) t)}
  (hhandlers : ∀ t, Tagged.select t r.domainHandlers = handlers t)

include hhandlers

theorem foldlM_eventPlan (e : AnyEvent D) (p : Applied D a) :
    (eventPlan handlers metadata globalId e).foldlM (Piece.perform r ctx metadata globalId) p =
      applyEvent r ctx metadata globalId p.1 e >>= fun q =>
        pure (q.1, p.2 ++ [(e.typeName, q.2)]) := by
  rw [eventPlan, List.cons_append, List.foldlM_cons, Piece.perform, bind_assoc, applyEvent,
    bind_assoc]
  simp only [pure_bind, List.foldlM_append, foldlM_handlers, List.foldlM_cons, List.foldlM_nil,
    Piece.perform, bind_assoc, Registry.dispatchDomain, hhandlers]

/-- The pieces, performed up to the first that fails, are what is done for the events. -/
theorem foldlM_plan (events : List (AnyEvent D)) (p : Applied D a) :
    (plan handlers metadata globalId events).foldlM (Piece.perform r ctx metadata globalId) p =
      applyEvents r ctx metadata globalId p.1 events >>= fun q => pure (q.1, p.2 ++ q.2) := by
  induction events generalizing p with
  | nil =>
    rw [applyEvents, pure_bind, List.append_nil]
    rfl
  | cons e es ih =>
    have hplan : plan handlers metadata globalId (e :: es) =
        eventPlan handlers metadata globalId e ++ plan handlers metadata globalId es := rfl
    rw [hplan, List.foldlM_append, foldlM_eventPlan hhandlers, bind_assoc, applyEvents, bind_assoc]
    simp only [pure_bind, ih, bind_assoc, List.append_assoc, List.singleton_append]

end

/-! ### Pieces that are taken up -/

/-- The pieces that are taken up in a session, each with the session in which it begins.
Behind one that fails there is none. -/
def taken (r : Registry D (Session R W)) (ctx : ExecutionContext) (metadata : Metadata)
    (globalId : Int) {a : D.AggregateType} :
    List (Piece D (Session R W)) → Applied D a → Session R W →
      List (Piece D (Session R W) × Session R W)
  | [], _, _ => []
  | x :: xs, p, s =>
    (x, s) ::
      match (x.perform r ctx metadata globalId p).run s with
      | (.ok p', s') => taken r ctx metadata globalId xs p' s'
      | (.error _, _) => []

section

variable {r : Registry D (Session R W)} {ctx : ExecutionContext} {metadata : Metadata}
  {globalId : Int} {a : D.AggregateType}

theorem taken_isPrefix (xs : List (Piece D (Session R W))) (p : Applied D a) (s : Session R W) :
    (taken r ctx metadata globalId xs p s).map Prod.fst <+: xs := by
  induction xs generalizing p s with
  | nil => exact List.prefix_refl _
  | cons x xs ih =>
    rw [taken, List.map_cons, List.prefix_cons_inj]
    rcases (x.perform r ctx metadata globalId p).run s with ⟨e | p', s'⟩
    · exact List.nil_prefix
    · exact ih p' s'

/-- What was taken up before a piece stands before it. -/
theorem exists_eq_append_of_taken {xs : List (Piece D (Session R W))} {p : Applied D a}
    {s s₁ : Session R W} {x : Piece D (Session R W)}
    {earlier later : List (Piece D (Session R W) × Session R W)}
    (h : taken r ctx metadata globalId xs p s = earlier ++ (x, s₁) :: later) :
    ∃ rest, xs = earlier.map Prod.fst ++ x :: rest := by
  obtain ⟨rest, hxs⟩ := taken_isPrefix (r := r) (a := a) xs p s
  rw [h, List.map_append, List.append_assoc] at hxs
  exact ⟨later.map Prod.fst ++ rest, hxs.symm⟩

/-- A piece is taken up in the session to which those before it have led. -/
theorem run_of_taken {xs : List (Piece D (Session R W))} {p : Applied D a} {s s₁ : Session R W}
    {x : Piece D (Session R W)} {earlier later : List (Piece D (Session R W) × Session R W)}
    (h : taken r ctx metadata globalId xs p s = earlier ++ (x, s₁) :: later) :
    ∃ p₁, ((earlier.map Prod.fst).foldlM (Piece.perform r ctx metadata globalId) p).run s =
      (.ok p₁, s₁) := by
  induction xs generalizing p s earlier with
  | nil => exact absurd h (List.append_ne_nil_of_right_ne_nil _ (List.cons_ne_nil _ _)).symm
  | cons y ys ih =>
    rw [taken] at h
    rcases earlier with _ | ⟨z, earlier⟩
    · cases (List.cons.inj h).1
      exact ⟨p, rfl⟩
    · obtain ⟨rfl, hrest⟩ := List.cons.inj h
      rcases hy : (y.perform r ctx metadata globalId p).run s with ⟨e | p', s'⟩
      · rw [hy] at hrest
        exact absurd hrest (List.append_ne_nil_of_right_ne_nil _ (List.cons_ne_nil _ _)).symm
      · rw [hy] at hrest
        rw [List.map_cons, List.foldlM_cons, Task.run_bind_of_ok hy]
        exact ih hrest

/-- All pieces are taken up if none fails. -/
theorem taken_of_ok {xs : List (Piece D (Session R W))} {p final : Applied D a}
    {s s' : Session R W}
    (h : (xs.foldlM (Piece.perform r ctx metadata globalId) p).run s = (.ok final, s')) :
    (taken r ctx metadata globalId xs p s).map Prod.fst = xs := by
  induction xs generalizing p s with
  | nil => rfl
  | cons x xs ih =>
    rw [List.foldlM_cons] at h
    obtain ⟨p', s₁, hx, h⟩ := Task.bind_eq_ok.1 h
    rw [taken, List.map_cons, hx]
    exact congrArg (x :: ·) (ih h)

/-- If the work fails, it fails in the last piece that is taken up. -/
theorem taken_of_error {xs : List (Piece D (Session R W))} {p : Applied D a} {e : Error}
    {s s' : Session R W}
    (h : (xs.foldlM (Piece.perform r ctx metadata globalId) p).run s = (.error e, s')) :
    ∃ earlier x p₁ s₁, taken r ctx metadata globalId xs p s = earlier ++ [(x, s₁)] ∧
      ((earlier.map Prod.fst).foldlM (Piece.perform r ctx metadata globalId) p).run s =
        (.ok p₁, s₁) ∧
      (x.perform r ctx metadata globalId p₁).run s₁ = (.error e, s') := by
  induction xs generalizing p s with
  | nil => cases h
  | cons x xs ih =>
    rw [List.foldlM_cons] at h
    rw [taken]
    rcases hx : (x.perform r ctx metadata globalId p).run s with ⟨e' | p', s₁⟩
    · rw [Task.run_bind_of_error hx] at h
      exact ⟨[], x, p, s, rfl, rfl, hx.trans h⟩
    · rw [Task.run_bind_of_ok hx] at h
      obtain ⟨earlier, y, p₁, s₂, htaken, hearlier, hy⟩ := ih h
      refine ⟨(x, s) :: earlier, y, p₁, s₂, congrArg ((x, s) :: ·) htaken, ?_, hy⟩
      rw [List.map_cons, List.foldlM_cons, Task.run_bind_of_ok hx]
      exact hearlier

end

section

variable {handlers : (t : D.EventType) → List (EventHandler D σ t)} {metadata : Metadata}
  {globalId : Int} {xs ys : List (Piece D σ)} {e : AnyEvent D} {h : EventHandler D σ e.type}
  {info : EventInfo}

/-- Before a handler come the state handler and the handlers registered before it. -/
theorem eq_of_eventPlan_eq_append {e' : AnyEvent D}
    (hplan : eventPlan handlers metadata globalId e' = xs ++ .handler e h info :: ys) :
    e' = e ∧ info = ⟨e.typeName, globalId, none, metadata⟩ ∧
      ∃ earlier later, handlers e.type = earlier ++ h :: later ∧
        xs = .state e :: earlier.map fun f => .handler e f info := by
  rw [eventPlan, List.cons_append] at hplan
  rcases xs with _ | ⟨x, xs⟩
  · cases (List.cons.inj hplan).1
  obtain ⟨rfl, hbehind⟩ := List.cons.inj hplan
  rcases List.append_eq_append_iff.1 hbehind with ⟨zs, -, hlast⟩ | ⟨zs, hhandlers, hrest⟩
  · -- the last piece is no handler
    rcases zs with _ | ⟨z, zs⟩
    · cases (List.cons.inj hlast).1
    · exact absurd (List.cons.inj hlast).2.symm
        (List.append_ne_nil_of_right_ne_nil _ (List.cons_ne_nil _ _))
  · rcases zs with _ | ⟨z, zs⟩
    · cases (List.cons.inj hrest).1
    · obtain ⟨rfl, -⟩ := List.cons.inj hrest
      obtain ⟨earlier, rest, hsplit, rfl, hlater⟩ := List.map_eq_append_iff.1 hhandlers
      obtain ⟨f, later, rfl, hf, -⟩ := List.map_eq_cons_iff.1 hlater
      cases hf
      exact ⟨rfl, rfl, earlier, later, hsplit, rfl⟩

/-- What comes before a handler in a plan: the work for all earlier events, the state
handler of its own event, and the handlers that were registered before it. -/
theorem eq_of_plan_eq_append {events : List (AnyEvent D)}
    (hplan : plan handlers metadata globalId events = xs ++ .handler e h info :: ys) :
    info = ⟨e.typeName, globalId, none, metadata⟩ ∧
      ∃ before after earlier later, events = before ++ e :: after ∧
        handlers e.type = earlier ++ h :: later ∧
        xs = plan handlers metadata globalId before ++
          .state e :: earlier.map fun f => .handler e f info := by
  induction events generalizing xs with
  | nil => exact absurd hplan (List.append_ne_nil_of_right_ne_nil _ (List.cons_ne_nil _ _)).symm
  | cons e' es ih =>
    change eventPlan handlers metadata globalId e' ++ plan handlers metadata globalId es = _
      at hplan
    rcases List.append_eq_append_iff.1 hplan with ⟨zs, rfl, hrest⟩ | ⟨zs, hfirst, hrest⟩
    · obtain ⟨hinfo, before, after, earlier, later, rfl, hhandlers, rfl⟩ := ih hrest
      refine ⟨hinfo, e' :: before, after, earlier, later, rfl, hhandlers, ?_⟩
      exact (List.append_assoc _ _ _).symm
    · rcases zs with _ | ⟨z, zs⟩
      · -- the work for the next event begins with its state handler
        rcases es with _ | ⟨e'', es⟩
        · cases hrest
        · cases (List.cons.inj hrest).1
      · obtain ⟨rfl, -⟩ := List.cons.inj hrest
        obtain ⟨rfl, hinfo, earlier, later, hhandlers, rfl⟩ := eq_of_eventPlan_eq_append hfirst
        exact ⟨hinfo, [], es, earlier, later, rfl, hhandlers, rfl⟩

theorem appended_handlers (hs : List (EventHandler D σ e.type)) :
    (hs.map fun f => Piece.handler e f info).flatMap Piece.appended = [] := by
  rw [List.flatMap_map]
  exact List.flatMap_eq_nil_iff.2 fun _ _ => rfl

/-- The events of a plan are appended in order. -/
theorem appended_plan (handlers : (t : D.EventType) → List (EventHandler D σ t))
    (metadata : Metadata) (globalId : Int) (events : List (AnyEvent D)) :
    (plan handlers metadata globalId events).flatMap Piece.appended = events := by
  induction events with
  | nil => rfl
  | cons e es ih =>
    change (eventPlan handlers metadata globalId e ++ plan handlers metadata globalId es).flatMap
      Piece.appended = _
    rw [List.flatMap_append, ih, eventPlan, List.cons_append, List.flatMap_cons,
      List.flatMap_append, appended_handlers]
    rfl

end

/-! ### What handlers are shown -/

/-- A session in a unit of work where the snapshots are those of a database, and its log
has gone on with the rows of some events. -/
def Shown (ctx : ExecutionContext) (metadata : Metadata) (globalId : Int) (db : Database R)
    (events : List (AnyEvent D)) (s : Session R W) : Prop :=
  ∃ db' rows, s.store.unit = some ⟨ctx, db'⟩ ∧ db'.snapshots = db.snapshots ∧
    List.Forall₂ (fun e row => Store.eventRow globalId metadata e = .ok row) events rows ∧
    db'.log = db.log.insertAll rows

theorem Shown.start {ctx : ExecutionContext} {db : Database R} {s : Session R W}
    (hu : s.store.unit = some ⟨ctx, db⟩) (metadata : Metadata) (globalId : Int) :
    Shown ctx metadata globalId db ([] : List (AnyEvent D)) s :=
  ⟨db, [], hu, rfl, .nil, (Table.insertAll_nil db.log).symm⟩

/-- The table of snapshots with the row of a loaded aggregate, whose sequence is the one
loaded.  A new aggregate has an empty row, which was inserted. -/
inductive HasRow (t : Table AggregateRow) {a : D.AggregateType} (snapshot : Snapshot D a) :
    Int → Table AggregateRow → Prop
  | stored {globalId : Int} {row : AggregateRow} : snapshot.globalId = some globalId →
      (globalId, row) ∈ t.rows → row.identifier = snapshot.businessId →
      row.typeName = snapshot.typeName → row.sequence = snapshot.sequence →
      HasRow t snapshot globalId t
  | inserted : snapshot.globalId = none →
      (∀ row ∈ t.rows, row.2.identifier ≠ snapshot.businessId) →
      HasRow t snapshot t.next (t.insert ⟨snapshot.businessId, snapshot.typeName, 0, "null"⟩)

/-- A piece that leaves the tables alone, unless it appends an event. -/
def Piece.Keeps : Piece D (Session R W) → Prop
  | .handler _ h _ => ∀ values event, (h.run values event).Respects (Inside SameTables)
  | _ => True

theorem keeps_of_mem_plan {handlers : (t : D.EventType) → List (EventHandler D (Session R W) t)}
    (hhandlers : ∀ t, ∀ h ∈ handlers t, ∀ values event,
      (h.run values event).Respects (Inside SameTables))
    {metadata : Metadata} {globalId : Int} {events : List (AnyEvent D)}
    {x : Piece D (Session R W)} (hx : x ∈ plan handlers metadata globalId events) : x.Keeps := by
  obtain ⟨e, -, hx⟩ := List.mem_flatMap.1 hx
  cases x with
  | handler e' h info =>
    obtain ⟨xs, ys, hsplit⟩ := List.append_of_mem hx
    obtain ⟨rfl, -, earlier, later, hselect, -⟩ := eq_of_eventPlan_eq_append hsplit
    exact hhandlers e.type h (hselect ▸ List.mem_append_right _ List.mem_cons_self)
  | _ => trivial

section

variable {r : Registry D (Session R W)} {ctx : ExecutionContext} {metadata : Metadata}
  {globalId : Int} {a : D.AggregateType} {db : Database R} {events : List (AnyEvent D)}
  {s s' : Session R W}

/-- A piece adds the row of the event that it appends, if it appends one. -/
theorem Shown.perform (h : Shown ctx metadata globalId db events s)
    {x : Piece D (Session R W)} (hx : x.Keeps) {p p' : Applied D a}
    (hrun : (x.perform r ctx metadata globalId p).run s = (.ok p', s')) :
    Shown ctx metadata globalId db (events ++ x.appended) s' := by
  have hshown := h
  obtain ⟨db₁, rows, hu, hsnapshots, hrows, hlog⟩ := h
  cases x with
  | state e =>
    obtain ⟨state, s₁, hstate, hrest⟩ := Task.bind_eq_ok.1 hrun
    rw [Task.run_ofExcept] at hstate
    obtain ⟨-, rfl⟩ := Prod.mk.inj hstate
    cases hrest
    have hnone : events ++ Piece.appended (.state e : Piece D (Session R W)) = events :=
      List.append_nil _
    rw [hnone]
    exact hshown
  | handler e f info =>
    obtain ⟨_, s₁, hcall, hrest⟩ := Task.bind_eq_ok.1 hrun
    cases hrest
    have hinside : (f.call (.forDomainEvent r.dependencies ctx info) e.event).Respects
        (Inside SameTables) :=
      callWith_respects (.refl SameTables.refl) (.trans (@SameTables.trans R)) _ _
        fun values => hx values e.event
    obtain ⟨db', hsame, hu'⟩ := (hinside.run hcall).unit hu
    have hnone : events ++ Piece.appended (.handler e f info) = events := List.append_nil _
    rw [hnone]
    exact ⟨db', rows, hu', hsame.snapshots.trans hsnapshots, hrows, hsame.log.trans hlog⟩
  | append e =>
    obtain ⟨sequence, s₁, happend, hrest⟩ := Task.bind_eq_ok.1 hrun
    cases hrest
    obtain ⟨row, db₂, db', hrow, hu₁, hinsert, hstore⟩ :=
      Store.append_eq_ok (run_of_onStore happend)
    rw [hu] at hu₁
    cases hu₁
    obtain ⟨-, hlog', hsnapshots'⟩ := log_insertEvent hinsert
    refine ⟨db', rows ++ [row], congrArg Store.unit hstore, hsnapshots'.trans hsnapshots, ?_, ?_⟩
    · exact List.rel_append hrows (.cons hrow .nil)
    · -- the row comes behind those of the earlier events
      rw [hlog', hlog, Table.insertAll_append]
      exact (Table.insertAll_cons _ row []).symm ▸ (Table.insertAll_nil _).symm

/-- Pieces add the rows of the events that they append. -/
theorem Shown.foldlM {xs : List (Piece D (Session R W))} (hxs : ∀ x ∈ xs, x.Keeps)
    (h : Shown ctx metadata globalId db events s) {p p' : Applied D a}
    (hrun : (xs.foldlM (Piece.perform r ctx metadata globalId) p).run s = (.ok p', s')) :
    Shown ctx metadata globalId db (events ++ xs.flatMap Piece.appended) s' := by
  induction xs generalizing p s events with
  | nil =>
    cases hrun
    rw [List.flatMap_nil, List.append_nil]
    exact h
  | cons x xs ih =>
    rw [List.foldlM_cons] at hrun
    obtain ⟨p₁, s₁, hx, hrest⟩ := Task.bind_eq_ok.1 hrun
    have hnext := h.perform (hxs x List.mem_cons_self) hx
    rw [List.flatMap_cons, ← List.append_assoc]
    exact ih (fun y hy => hxs y (List.mem_cons_of_mem _ hy)) hnext hrest

/-- Before the first event the aggregate has its row. -/
theorem ensureRow_hasRow {id : Uuid} {snapshot : Snapshot D a}
    (hu : s.store.unit = some ⟨ctx, db⟩) (hloaded : Loaded db a id snapshot)
    (h : (ensureRow ctx snapshot).run s = (.ok globalId, s')) :
    ∃ db', s'.store.unit = some ⟨ctx, db'⟩ ∧ db'.log = db.log ∧
      HasRow db.snapshots snapshot globalId db'.snapshots := by
  unfold ensureRow at h
  split at h
  · rename_i globalId' hid
    cases h
    cases hloaded with
    | fresh => cases hid
    | @stored _ row state hfind =>
      cases hid
      obtain ⟨t, ht, hrow⟩ := findAggregate_eq_ok.1 hfind
      have hmem := List.mem_of_find?_eq_some hrow.symm
      have hrowId : row.identifier = id := by simpa using List.find?_some hrow.symm
      refine ⟨db, hu, rfl, .stored rfl ?_ hrowId rfl rfl⟩
      rw [snapshots_of_some ht]
      exact hmem
  · rename_i hid
    obtain ⟨text, db₁, db', htext, hu₁, hstore, hsaved⟩ := Store.save_eq_ok (run_of_onStore h)
    rw [hu] at hu₁
    cases hu₁
    obtain ⟨rfl, habsent⟩ := hloaded.absent hid
    rcases hsaved with ⟨hid', -⟩ | ⟨-, hinsert⟩
    · cases hid'
    · obtain ⟨t, ht, -, rfl, rfl⟩ := insertAggregate_eq_ok.1 hinsert
      have hsnapshots : db.snapshots = t := snapshots_of_some ht
      -- a state that is missing is written as null
      have hnull : "null" = text := Except.ok.inj htext
      refine ⟨_, congrArg Store.unit hstore, rfl, ?_⟩
      rw [← hsnapshots, ← hnull]
      exact .inserted rfl habsent

end

/-! ### Commands -/

/-- A command that comes to its events: the aggregate is loaded, the handler has left a
state and emitted events, and the aggregate has its row. -/
structure Works (r : Registry D (Session R W)) (x : Sending D) (s : Session R W) where
  snapshot : Snapshot D x.aggregate
  /-- The state that the handler of the command has left. -/
  state : D.State x.aggregate
  buffer : EventBuffer D
  globalId : Int
  /-- The sessions after the load, after the handler, and before the first event. -/
  loaded : Session R W
  called : Session R W
  start : Session R W
  idle : s.store.unit = none
  target : D.target x.command = some snapshot.businessId
  load : (loadOrFresh x.ctx x.aggregate snapshot.businessId).run
    (begun s snapshot.businessId x.ctx) = (.ok snapshot, loaded)
  call : (r.dispatchCommand x.type snapshot.state x.command
    (.forCommand r.dependencies x.ctx)).run loaded = (.ok (state, buffer), called)
  emitted : buffer.isEmpty = false
  row : (ensureRow x.ctx snapshot).run called = (.ok globalId, start)

section

variable {r : Registry D (Session R W)} {x : Sending D} {s : Session R W}

/-- From there on the command performs the plan of its events, and saves the state. -/
theorem Works.run_process (w : Works r x s)
    {handlers : (t : D.EventType) → List (EventHandler D (Session R W) t)}
    (hhandlers : ∀ t, Tagged.select t r.domainHandlers = handlers t) :
    (process r x.ctx x.metadata w.snapshot.businessId x.type x.command).run
        (begun s w.snapshot.businessId x.ctx) =
      ((plan handlers x.metadata w.globalId w.buffer.events).foldlM
          (Piece.perform r x.ctx x.metadata w.globalId) (w.state, []) >>=
        saveApplied x.ctx w.snapshot w.globalId).run w.start := by
  refine (Task.run_bind_of_ok w.load).trans ((Task.run_bind_of_ok w.call).trans ?_)
  simp only [w.emitted, Bool.false_eq_true, if_false]
  refine (Task.run_bind_of_ok w.row).trans ?_
  rw [foldlM_plan hhandlers, bind_assoc]
  simp only [pure_bind, List.nil_append]
  rfl

/-- If its handler leaves the snapshots and the log as it finds them, the command comes
to its events with the row of the aggregate, and without a further event. -/
theorem Works.hasRow (w : Works r x s)
    (hcalled : (begun s w.snapshot.businessId x.ctx).Inside SameTables w.called) :
    ∃ db, w.start.store.unit = some ⟨x.ctx, db⟩ ∧ db.log = s.store.committed.log ∧
      HasRow s.store.committed.snapshots w.snapshot w.globalId db.snapshots := by
  obtain ⟨-, db, hu, hloaded⟩ := loadOrFresh_eq_ok w.load
  cases hu
  obtain ⟨db₁, hsame, hu₁⟩ := hcalled.unit rfl
  obtain ⟨db₂, hu₂, hlog, hrow⟩ := ensureRow_hasRow hu₁ (hloaded.congr hsame) w.row
  rw [hsame.snapshots] at hrow
  exact ⟨db₂, hu₂, hlog.trans hsame.log, hrow⟩

end

/-- **The order of the work for events, and what handlers are shown.**  Take a table
built by any calls whose domain event handlers keep to the unit of work that they find
and leave snapshots and events to the engine, and a command that comes to its events, from
any session.

* It performs the plan of its events, piece by piece, and then saves the state.
* If no piece fails, all are taken up, in the order of the plan.  If one fails, those
  before it have succeeded, none behind it is taken up, and the command fails with its
  error.
* Where a domain event handler is taken up, exactly this has succeeded before: the work
  for the earlier events, the state handler, and the handlers that were registered before.
  It is told the number of the row and the metadata of the command, and no global sequence.
  It is shown the snapshots as they were before the first event, and the log with the
  earlier events behind what was there.
* Before the first event, if the handler of the command wrote no snapshots and events
  either, the aggregate has its row with the sequence that was loaded, and otherwise all
  is as it was committed. -/
theorem events_in_order (d : Dependencies D) (calls : List (Registration D (Session R W)))
    (hcalls : ∀ call ∈ calls, call.Respects (fun _ _ => True) (Inside SameTables))
    {x : Sending D} {s : Session R W} (w : Works (Registration.build d calls) x s) :
    let r := Registration.build d calls
    let handlers := Registration.domainHandlersFor d calls
    let pieces := plan handlers x.metadata w.globalId w.buffer.events
    let perform := Piece.perform r x.ctx x.metadata w.globalId
    let steps := taken r x.ctx x.metadata w.globalId pieces (w.state, []) w.start
    (process r x.ctx x.metadata w.snapshot.businessId x.type x.command).run
        (begun s w.snapshot.businessId x.ctx) =
      (pieces.foldlM perform (w.state, []) >>= saveApplied x.ctx w.snapshot w.globalId).run
        w.start ∧
    (∀ final s₁, (pieces.foldlM perform (w.state, [])).run w.start = (.ok final, s₁) →
      steps.map Prod.fst = pieces) ∧
    (∀ error s₁, (pieces.foldlM perform (w.state, [])).run w.start = (.error error, s₁) →
      answerTo r s x = .error error ∧
      ∃ earlier piece p s₂ later, steps = earlier ++ [(piece, s₂)] ∧
        pieces = earlier.map Prod.fst ++ piece :: later ∧
        ((earlier.map Prod.fst).foldlM perform (w.state, [])).run w.start = (.ok p, s₂) ∧
        (perform p piece).run s₂ = (.error error, s₁)) ∧
    (∀ earlier e f info s₁ later, steps = earlier ++ (.handler e f info, s₁) :: later →
      info = ⟨e.typeName, w.globalId, none, x.metadata⟩ ∧
      (∃ p, ((earlier.map Prod.fst).foldlM perform (w.state, [])).run w.start = (.ok p, s₁)) ∧
      ∃ before after done more, w.buffer.events = before ++ e :: after ∧
        handlers e.type = done ++ f :: more ∧
        earlier.map Prod.fst = plan handlers x.metadata w.globalId before ++
          .state e :: List.map (fun g => .handler e g info) done ∧
        ∀ db, w.start.store.unit = some ⟨x.ctx, db⟩ →
          Shown x.ctx x.metadata w.globalId db before s₁) ∧
    ((begun s w.snapshot.businessId x.ctx).Inside SameTables w.called →
      ∃ db, w.start.store.unit = some ⟨x.ctx, db⟩ ∧ db.log = s.store.committed.log ∧
        HasRow s.store.committed.snapshots w.snapshot w.globalId db.snapshots) := by
  intro r handlers pieces perform steps
  have hprocess := w.run_process (Registration.select_domainHandlers d calls)
  refine ⟨hprocess, fun final s₁ hok => taken_of_ok hok, fun error s₁ herror => ?_,
    fun earlier e f info s₁ later hsteps => ?_, w.hasRow⟩
  · have hfailed := hprocess.trans (Task.run_bind_of_error herror)
    obtain ⟨earlier, piece, p, s₂, hsteps, hearlier, hpiece⟩ := taken_of_error herror
    obtain ⟨later, hpieces⟩ := exists_eq_append_of_taken hsteps
    exact ⟨answerTo_of_process_error w.idle w.target hfailed, earlier, piece, p, s₂, later,
      hsteps, hpieces, hearlier, hpiece⟩
  · -- the plan says what comes before the handler, and the run of that what it is shown
    obtain ⟨rest, hpieces⟩ := exists_eq_append_of_taken hsteps
    obtain ⟨hinfo, before, after, done, more, hevents, hhandlers, hearlier⟩ :=
      eq_of_plan_eq_append hpieces
    obtain ⟨p, hrun⟩ := run_of_taken hsteps
    refine ⟨hinfo, ⟨p, hrun⟩, before, after, done, more, hevents, hhandlers, hearlier,
      fun db hu => ?_⟩
    -- only accepted calls have brought a handler into the table
    have hkeeps (t : D.EventType) (h : EventHandler D (Session R W) t) (hh : h ∈ handlers t)
        (values : Inputs h.inputs) (event : D.Event t) :
        (h.run values event).Respects (Inside SameTables) := by
      have hmem : ⟨t, h⟩ ∈ r.domainHandlers := by
        rw [← Tagged.mem_select, Registration.select_domainHandlers]
        exact hh
      exact (Registration.respects_build hcalls).domainEvent t h hmem values event
    have hpieces (y : Piece D (Session R W)) (hy : y ∈ earlier.map Prod.fst) : y.Keeps :=
      keeps_of_mem_plan hkeeps (hpieces ▸ List.mem_append_left _ hy)
    have hshown := (Shown.start hu x.metadata w.globalId).foldlM hpieces hrun
    rw [hearlier, List.flatMap_append, appended_plan, List.flatMap_cons, appended_handlers,
      List.nil_append] at hshown
    exact (List.append_nil before) ▸ hshown

/-- A handler that counts the switching of lamps. -/
def counting : EventHandler lamps (Session Nat Unit) () :=
  ⟨[.execution], fun ((ctx : ExecutionContext), _) _ =>
    Session.write ctx fun db => .ok ((), { db with readModel := db.readModel + 1 })⟩

/-- A handler that refuses to be shown an event. -/
def refusing : EventHandler lamps (Session Nat Unit) () :=
  ⟨[.execution], fun ((ctx : ExecutionContext), _) _ => do
    let shown ← Session.write ctx fun db => .ok (db.log.rows.length, db)
    if shown = 1 then throw "switched before"⟩

/-- A lamp is switched twice when it is installed. -/
def cautiousCalls : List (Registration lamps (Session Nat Unit)) :=
  [.creation .install ⟨[], fun _ _ => pure (false, ⟨[⟨(), ()⟩, ⟨(), ()⟩]⟩)⟩,
   .state ⟨(), (), fun on _ => !on⟩,
   .domainEvent () counting,
   .domainEvent () refusing]

/-- The table of these calls. -/
def cautiousTable : Registry lamps (Session Nat Unit) :=
  Registration.build Dependencies.empty cautiousCalls

/-- The command that installs the lamp. -/
def cautiousInstall : Sending lamps := ⟨⟨0⟩, Dictionary.empty, .install, Uuid.zero, 0⟩

/-- The session before anything was sent. -/
def cautiousStart : Session Nat Unit := Session.start (Database.blank 0).migrate ()

/-- The command comes to its events. -/
def twoSwitches : Works cautiousTable cautiousInstall cautiousStart where
  snapshot := Snapshot.fresh Uuid.zero
  state := false
  buffer := ⟨[⟨(), ()⟩, ⟨(), ()⟩]⟩
  globalId := 1
  loaded := begun cautiousStart Uuid.zero ⟨0⟩
  called := begun cautiousStart Uuid.zero ⟨0⟩
  start := ((ensureRow ⟨0⟩ (Snapshot.fresh (D := lamps) (a := ()) Uuid.zero)).run
    (begun cautiousStart Uuid.zero ⟨0⟩)).2
  idle := rfl
  target := rfl
  load := rfl
  call := rfl
  emitted := rfl
  row := rfl

/-- The pieces of the work for its two events. -/
def cautiousPieces : List (Piece lamps (Session Nat Unit)) :=
  plan (Registration.domainHandlersFor Dependencies.empty cautiousCalls) Dictionary.empty 1
    twoSwitches.buffer.events

/-- Those that the command takes up. -/
def cautiousSteps : List (Piece lamps (Session Nat Unit) × Session Nat Unit) :=
  taken cautiousTable ⟨0⟩ Dictionary.empty 1 cautiousPieces (a := ()) (false, []) twoSwitches.start

/-- The answer to the work, and the session in which it ends. -/
def cautiousResult : Except Error (Applied lamps ()) × Session Nat Unit :=
  (cautiousPieces.foldlM (Piece.perform cautiousTable ⟨0⟩ Dictionary.empty 1) (false, [])).run
    twoSwitches.start

/-- The second handler is shown the first event when it is called with the second, in the
last of seven pieces, and so the command fails. -/
theorem second_switch_refused :
    answerTo cautiousTable cautiousStart cautiousInstall = .error (.handler "switched before") ∧
      ∃ earlier info s₁ db, earlier.length = 6 ∧
        cautiousSteps = earlier ++ [(.handler ⟨(), ()⟩ refusing info, s₁)] ∧
        Shown ⟨0⟩ Dictionary.empty 1 db [(⟨(), ()⟩ : AnyEvent lamps)] s₁ ∧
        HasRow cautiousStart.store.committed.snapshots twoSwitches.snapshot 1 db.snapshots := by
  have hcalls : ∀ call ∈ cautiousCalls, call.Respects (fun _ _ => True) (Inside SameTables) := by
    intro call hcall
    simp only [cautiousCalls, List.mem_cons, List.not_mem_nil, or_false] at hcall
    rcases hcall with rfl | rfl | rfl | rfl
    · exact fun _ _ _ => trivial
    · trivial
    · rintro ⟨ctx, _⟩ _
      refine Session.write_respects SameTables.refl ctx fun db _ db' h => ?_
      cases h
      exact ⟨rfl, rfl⟩
    · rintro ⟨ctx, _⟩ _
      refine .bind (.trans (@SameTables.trans Nat))
        (Session.write_respects SameTables.refl ctx fun db _ db' h => ?_) fun shown => ?_
      · cases h
        exact SameTables.refl db
      · split
        · exact Work.respects_throw (.refl SameTables.refl) _
        · exact Work.respects_pure (.refl SameTables.refl) _
  have hhandlers : Registration.domainHandlersFor Dependencies.empty cautiousCalls () =
      [counting, refusing] := rfl
  have hseven : cautiousSteps.length = 7 := by decide +kernel
  obtain ⟨-, -, hfails, hshown, hrow⟩ :=
    events_in_order Dependencies.empty cautiousCalls hcalls twoSwitches
  have herror : cautiousResult.1 = .error (.handler "switched before") := rfl
  obtain ⟨hanswer, earlier, piece, p, s₁, later, hsteps, hpieces, -⟩ :=
    hfails _ cautiousResult.2 (Prod.ext herror rfl)
  obtain ⟨db, hu, -, hrow⟩ := hrow (.refl SameTables.refl _)
  have hsix : earlier.length = 6 := by
    have hlength := congrArg List.length hsteps
    rw [List.length_append] at hlength
    exact Nat.succ.inj (hlength.symm.trans hseven)
  obtain ⟨info, rfl⟩ : ∃ info, piece = .handler ⟨(), ()⟩ refusing info := by
    have hpiece := congrArg (·[6]?) hpieces
    have hseventh : cautiousPieces[6]? =
        some (.handler ⟨(), ()⟩ refusing ⟨"Switched", 1, none, Dictionary.empty⟩) := rfl
    have hlast : (earlier.map Prod.fst ++ piece :: later)[6]? = some piece := by
      rw [List.getElem?_append_right (by rw [List.length_map, hsix]), List.length_map, hsix]
      rfl
    exact ⟨_, Option.some.inj (hlast.symm.trans (hpiece.symm.trans hseventh))⟩
  obtain ⟨-, -, before, after, done, more, hevents, hsplit, hearlier, hshown⟩ :=
    hshown earlier _ refusing info s₁ [] hsteps
  have hbefore : before = [⟨(), ()⟩] := by
    rcases before with _ | ⟨e, before⟩
    · -- the two handlers of the first event are called in fewer pieces
      have hlength := congrArg List.length hearlier
      have htwo := congrArg List.length hsplit
      rw [hhandlers, List.length_append, List.length_cons] at htwo
      simp only [plan, List.flatMap_nil, List.nil_append, List.length_cons, List.length_nil,
        List.length_map, hsix] at hlength htwo
      omega
    · have hlength := congrArg List.length hevents
      have hboth : twoSwitches.buffer.events.length = 2 := rfl
      rw [hboth, List.length_append, List.length_cons, List.length_cons] at hlength
      rw [List.length_eq_zero_iff.1 (by omega : before.length = 0)]
      rfl
  rw [hbefore] at hshown
  exact ⟨hanswer, earlier, info, s₁, db, hsix, hsteps, hshown db hu, hrow⟩

end Gateway

end Chronicle
