/-
Chronicle/Proofs/Gateway/Local.lean

The work of a command knows the store and the outside world, and nothing else of
a session.

`Session.Local` says this of any work: it is a function on these two, its view,
that is lifted to sessions, and leaves critical sections, metrics and contexts as
they are.  The engine's own tasks are local.  For handlers it is a condition,
`Registry.Local`: the engine gives them neither the table of sections nor the
metrics.

Main results: the unit of work of a command is local (`Gateway.local_unitOfWork`,
`Gateway.local_process`), and a command answers and leaves behind what its unit of
work does in any session with the same view (`Gateway.view_send`).
-/
import Chronicle.Proofs.Gateway.Outcome
import Chronicle.Proofs.Registry.Built

namespace Chronicle

variable {D : Domain} {R W α β : Type}

/-! ### Local work -/

namespace Session

/-- What the work of commands is about. -/
def view (s : Session R W) : Store R × W := (s.store, s.world)

/-- The session with another view. -/
def withView (s : Session R W) (v : Store R × W) : Session R W :=
  { s with store := v.1, world := v.2 }

/-- Work that is a function on views, and changes nothing else. -/
def Local (t : StateM (Session R W) α) : Prop :=
  ∃ f : Store R × W → α × (Store R × W), ∀ s, t s = ((f s.view).1, s.withView (f s.view).2)

theorem local_pure (a : α) : Local (pure a : StateM (Session R W) α) :=
  ⟨fun v => (a, v), fun _ => rfl⟩

theorem Local.bind {t : StateM (Session R W) α} {f : α → StateM (Session R W) β} (ht : Local t)
    (hf : ∀ a, Local (f a)) : Local (t >>= f) := by
  obtain ⟨g, hg⟩ := ht
  choose k hk using hf
  refine ⟨fun v => k (g v).1 (g v).2, fun s => ?_⟩
  rw [bind_apply, hg, hk]
  rfl

theorem Local.sections {t : StateM (Session R W) α} (h : Local t) (s : Session R W) :
    (t s).2.sections = s.sections := by
  obtain ⟨f, hf⟩ := h
  rw [hf]
  rfl

/-- Local work does the same in all sessions with one view. -/
theorem Local.congr {t : StateM (Session R W) α} (h : Local t) {s s' : Session R W}
    (hview : s.view = s'.view) : (t s).1 = (t s').1 ∧ (t s).2.view = (t s').2.view := by
  obtain ⟨f, hf⟩ := h
  rw [hf, hf, hview]
  exact ⟨rfl, rfl⟩

theorem local_onStore (t : Task (Store R) α) : Local (onStore t : Task (Session R W) α).run :=
  ⟨fun v => ((t.run v.1).1, (t.run v.1).2, v.2), fun _ => rfl⟩

end Session

open Session

/-! ### Tasks and handlers -/

namespace Session

/-- A sequence of local work is local: a failure ends it where it is. -/
theorem local_seq {ε : Type} {t : ExceptT ε (StateM (Session R W)) α}
    {f : α → ExceptT ε (StateM (Session R W)) β} (ht : Local t.run) (hf : ∀ a, Local (f a).run) :
    Local (t >>= f).run := by
  show Local (t.run >>= ExceptT.bindCont f)
  refine ht.bind fun answer => ?_
  rcases answer with e | a
  · exact local_pure (Except.error e)
  · exact hf a

theorem local_ofExcept (a : Except Error α) :
    Local (MonadExcept.ofExcept a : Task (Session R W) α).run := by
  refine ⟨fun v => (a, v), fun s => ?_⟩
  exact Task.run_ofExcept a s

theorem local_throw (e : Error) : Local (throw e : Task (Session R W) α).run :=
  local_pure (Except.error e)

end Session

theorem Work.local_asTask {w : Work (Session R W) α} (h : Local w.run) : Local w.asTask.run := by
  refine Local.bind h fun answer => ?_
  rcases answer with text | a
  · exact local_pure _
  · exact local_pure _

/-- What a statement of a handler makes of a view. -/
def Session.written (ctx : ExecutionContext)
    (f : Database R → Except StorageFault (α × Database R)) (v : Store R × W) :
    Except String α × (Store R × W) :=
  match v.1.pending? ctx with
  | none => (.error Error.noUnitOfWork.message, v)
  | some db =>
    match f db with
    | .error fault => (.error fault.message, v)
    | .ok (a, db) => (.ok a, { v.1 with unit := some ⟨ctx, db⟩ }, v.2)

/-- A statement of a handler is local. -/
theorem Session.local_write (ctx : ExecutionContext)
    (f : Database R → Except StorageFault (α × Database R)) :
    Local (write ctx f : Work (Session R W) α).run := by
  refine ⟨written ctx f, fun s => ?_⟩
  show (write ctx f).run s = _
  rw [write, Work.run_get_bind]
  simp only [written, view]
  rcases s.store.pending? ctx with _ | db
  · rfl
  · dsimp only
    rcases f db with fault | ⟨a, db'⟩
    · rfl
    · rfl

theorem local_callWith (ctx : HandlerContext D) (inputs : List (SideInput D))
    {work : Inputs inputs → Work (Session R W) α} (h : ∀ values, Local (work values).run) :
    Local (callWith ctx inputs work).run :=
  local_seq (local_ofExcept _) fun values => Work.local_asTask (h values)

/-- Handlers that know the store and the outside world only. -/
structure Registry.Local (r : Registry D (Session R W)) : Prop where
  creation : ∀ c h, ⟨c, .creation h⟩ ∈ r.commands →
    ∀ values command, Session.Local (h.run values command).run
  mutation : ∀ c h, ⟨c, .mutation h⟩ ∈ r.commands →
    ∀ values state command, Session.Local (h.run values state command).run
  domainEvent : ∀ e h, ⟨e, h⟩ ∈ r.domainHandlers →
    ∀ values event, Session.Local (h.run values event).run

namespace Registry

variable {r : Registry D (Session R W)} (hr : r.Local)

include hr

theorem Local.dispatchCommand (c : D.CommandType) (state : Option (D.State (D.aggregateOf c)))
    (command : D.Command c) (ctx : HandlerContext D) :
    Session.Local (r.dispatchCommand c state command ctx).run := by
  unfold Registry.dispatchCommand
  split
  · exact local_throw _
  · rename_i h hfind
    have hmem := Tagged.mem_of_find? hfind
    split
    · exact local_throw _
    · split
      · exact local_throw _
      · exact local_throw _
      · exact local_callWith ctx _ fun values => hr.creation _ _ hmem values command
      · exact local_callWith ctx _ fun values => hr.mutation _ _ hmem values _ command

theorem Local.handler {e : D.EventType} {h : EventHandler D (Session R W) e}
    (hh : h ∈ Tagged.select e r.domainHandlers) (ctx : HandlerContext D) (event : D.Event e) :
    Session.Local (h.call ctx event).run :=
  local_callWith ctx _ fun values => hr.domainEvent e h (Tagged.mem_select.1 hh) values event

omit hr in
theorem local_callAll {e : D.EventType} (event : D.Event e) (ctx : HandlerContext D)
    {hs : List (EventHandler D (Session R W) e)}
    (h : ∀ f ∈ hs, Session.Local (f.call ctx event).run) :
    Session.Local (callAll event ctx hs).run := by
  induction hs with
  | nil => exact local_pure _
  | cons f hs ih =>
    exact local_seq (h f List.mem_cons_self) fun _ =>
      ih fun g hg => h g (List.mem_cons_of_mem _ hg)

end Registry

/-- The handler of a call knows the store and the outside world only. -/
def Registration.Local : Registration D (Session R W) → Prop
  | creation _ h => ∀ values command, Session.Local (h.run values command).run
  | mutation _ h => ∀ values state command, Session.Local (h.run values state command).run
  | domainEvent _ h => ∀ values event, Session.Local (h.run values event).run
  | _ => True

/-- A table built by calls with local handlers is local. -/
theorem Registration.local_build {d : Dependencies D} {calls : List (Registration D (Session R W))}
    (h : ∀ call ∈ calls, call.Local) : (build d calls).Local where
  creation _ _ hf := h _ (mem_of_mem_accepted (creation_mem_accepted hf))
  mutation _ _ hf := h _ (mem_of_mem_accepted (mutation_mem_accepted hf))
  domainEvent _ _ hf := h _ (mem_of_mem_accepted (domainEvent_mem_accepted hf))

/-! ### Commands -/

namespace Gateway

theorem local_loadOrFresh (ctx : ExecutionContext) (a : D.AggregateType) (id : Uuid) :
    Local (loadOrFresh ctx a id : Task (Session R W) _).run := by
  refine Local.bind (local_onStore (Store.load ctx a id)) fun answer => ?_
  split
  · exact local_pure _
  · exact local_pure _

theorem local_ensureRow (ctx : ExecutionContext) {a : D.AggregateType} (snapshot : Snapshot D a) :
    Local (ensureRow ctx snapshot : Task (Session R W) Int).run := by
  unfold ensureRow
  split
  · exact local_pure _
  · exact local_onStore _

section

variable {r : Registry D (Session R W)} (hr : r.Local) (ctx : ExecutionContext)
  (metadata : Metadata)

include hr

theorem local_applyEvents (globalId : Int) {a : D.AggregateType} (state : D.State a)
    (events : List (AnyEvent D)) :
    Local (applyEvents r ctx metadata globalId state events).run := by
  induction events generalizing state with
  | nil => exact local_pure _
  | cons e es ih =>
    have hevent : Local (applyEvent r ctx metadata globalId state e).run := by
      refine local_seq (local_ofExcept _) fun state' => ?_
      refine local_seq
        (Registry.local_callAll e.event _ fun h hh => hr.handler hh _ _) fun _ => ?_
      exact local_seq (local_onStore _) fun _ => local_pure _
    exact local_seq hevent fun result => local_seq (ih result.1) fun _ => local_pure _

theorem local_store {a : D.AggregateType} (snapshot : Snapshot D a) (state : D.State a)
    (events : List (AnyEvent D)) : Local (store r ctx metadata snapshot state events).run := by
  refine local_seq (local_ensureRow ctx snapshot) fun globalId => ?_
  refine local_seq (local_applyEvents hr ctx metadata globalId state events) fun result => ?_
  exact local_seq (local_onStore _) fun _ => local_pure _

theorem local_process (id : Uuid) (c : D.CommandType) (command : D.Command c) :
    Local (process r ctx metadata id c command).run := by
  refine local_seq (local_loadOrFresh ctx _ id) fun snapshot => ?_
  refine local_seq (hr.dispatchCommand c snapshot.state command _) fun result => ?_
  dsimp only
  split
  · exact local_pure _
  · exact local_store hr ctx metadata snapshot _ _

end

theorem local_unitOfWork (ctx : ExecutionContext) {work : Task (Session R W) α}
    (h : Local work.run) : Local (unitOfWork ctx work).run := by
  refine local_seq (local_onStore (Store.acquire ctx)) fun _ => ?_
  refine Local.bind h fun answer => ?_
  rcases answer with e | a
  · exact Local.bind (local_onStore _) fun _ => local_pure _
  · refine Local.bind (local_onStore _) fun committed => ?_
    split
    · exact local_pure _
    · exact local_pure _

/-- A command with a target, sent from a context without a unit of work, answers
what its unit of work answers in any session with the same view, and leaves the
same view behind. -/
theorem view_send {r : Registry D (Session R W)} (hr : r.Local) {ctx : ExecutionContext}
    (metadata : Metadata) {c : D.CommandType} {command : D.Command c} {id : Uuid}
    (htarget : D.target command = some id) (seconds : Float) {s s' : Session R W}
    (hview : s'.view = s.view) (hactive : s.store.isActive ctx = false) :
    let result := (unitOfWork ctx (process r ctx metadata id c command)).run s'
    let sent := (send r ctx metadata c command seconds).run s
    sent.1 = result.1 ∧ sent.2.view = result.2.view := by
  have hlocal := local_unitOfWork ctx (local_process hr ctx metadata id c command)
  obtain ⟨metrics, hsend⟩ := run_send r ctx metadata c command seconds s
  have hrun : (run r ctx metadata c command).run s =
      (inSection id (unitOfWork ctx (process r ctx metadata id c command))).run s := by
    simp only [run, Task.run_get_bind, hactive, htarget]
    rfl
  dsimp only
  rw [hsend, hrun, run_inSection]
  -- entering the section has changed sections and metrics only
  exact hlocal.congr (show (entered s id).view = s'.view from hview.symm)

end Gateway

end Chronicle
