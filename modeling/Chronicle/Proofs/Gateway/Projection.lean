/-
Chronicle/Proofs/Gateway/Projection.lean

What a command leaves for others to look up: the row of its aggregate, and the read
model.

`Registry.Projects f` says that the handlers of an event change the read model by `f`.
The statements of the engine leave it, and so do the handlers of commands, if they are
confined, so that a command changes it by `f` for each of its events, one after the
other (`Gateway.readModel_of_process`).

Main result: what can be looked up after a command that succeeds (`send_looks_up`).
`Gateway.Calls` is a call of a domain event handler on the way there; the command fails
there exactly if one of these calls does.
-/
import Chronicle.Proofs.Gateway.LifeCycle

namespace Chronicle

variable {D : Domain} {R W : Type}

open Session Database

namespace Database

/-- Statements of the engine leave the read model. -/
theorem admits_readModel : Admits fun db db' : Database R => db'.readModel = db.readModel where
  refl _ := rfl
  trans _ _ _ h h' := h'.trans h
  insertAggregate _ _ _ _ h := by
    obtain ⟨_, _, _, _, rfl⟩ := insertAggregate_eq_ok.1 h
    rfl
  swapAggregate _ _ _ _ _ _ _ h := by
    obtain ⟨_, _, _, rfl⟩ := swapAggregate_eq_ok.1 h
    rfl
  insertEvent _ _ _ _ h := by
    obtain ⟨_, _, _, _, rfl⟩ := insertEvent_eq_ok.1 h
    rfl

end Database

/-- What is loaded is determined by the database. -/
theorem Loaded.unique {db : Database R} {a : D.AggregateType} {id : Uuid}
    {snapshot snapshot' : Snapshot D a} (h : Loaded db a id snapshot)
    (h' : Loaded db a id snapshot') : snapshot' = snapshot := by
  cases h with
  | fresh hfind =>
    cases h' with
    | fresh => rfl
    | stored hfind' =>
      rw [hfind] at hfind'
      cases hfind'
  | stored hfind _ hstate =>
    cases h' with
    | fresh hfind' =>
      rw [hfind] at hfind'
      cases hfind'
    | stored hfind' _ hstate' =>
      rw [hfind] at hfind'
      cases hfind'
      rw [hstate] at hstate'
      cases hstate'
      rfl

/-- The domain event handlers change the read model by a function of the event. -/
def Registry.Projects (r : Registry D (Session R W)) (f : R → AnyEvent D → R) : Prop :=
  ∀ (e : AnyEvent D) (ctx : ExecutionContext) (info : EventInfo) (s s' : Session R W)
    (db : Database R), s.store.unit = some ⟨ctx, db⟩ →
    (r.dispatchDomain e (.forDomainEvent r.dependencies ctx info)).run s = (.ok (), s') →
    ∃ db', s'.store.unit = some ⟨ctx, db'⟩ ∧ db'.readModel = f db.readModel e

/-- Handlers in two parts are called one part after the other. -/
theorem Registry.callAll_append {σ : Type} {e : D.EventType} (event : D.Event e)
    (ctx : HandlerContext D) (hs hs' : List (EventHandler D σ e)) :
    callAll event ctx (hs ++ hs') = callAll event ctx hs >>= fun _ => callAll event ctx hs' := by
  induction hs with
  | nil => rfl
  | cons h hs ih =>
    rw [List.cons_append, callAll, callAll, ih, bind_assoc]

/-- If handlers fail, one of them does, after those before it have succeeded. -/
theorem Registry.callAll_eq_error {σ : Type} {e : D.EventType} {event : D.Event e}
    {ctx : HandlerContext D} {hs : List (EventHandler D σ e)} {error : Error} {s s' : σ}
    (h : (callAll event ctx hs).run s = (.error error, s')) :
    ∃ earlier f later s₁, hs = earlier ++ f :: later ∧
      (callAll event ctx earlier).run s = (.ok (), s₁) ∧
      (f.call ctx event).run s₁ = (.error error, s') := by
  induction hs generalizing s with
  | nil => cases h
  | cons f hs ih =>
    rw [callAll] at h
    rcases hf : (f.call ctx event).run s with ⟨error' | _, s₁⟩
    · rw [Task.run_bind_of_error hf] at h
      exact ⟨[], f, hs, s, rfl, rfl, hf.trans h⟩
    · rw [Task.run_bind_of_ok hf] at h
      obtain ⟨earlier, g, later, s₂, rfl, hearlier, hg⟩ := ih h
      exact ⟨f :: earlier, g, later, s₂, rfl, (Task.run_bind_of_ok hf).trans hearlier, hg⟩

namespace Gateway

/-! ### The row of the aggregate -/

/-- After the events of a command were stored, another row is found for its id, and no
other look-up answers anything else than before. -/
theorem Effect.findAggregate {r : Registry D (Session R W)} {metadata : Metadata}
    {a : D.AggregateType} {snapshot : Snapshot D a} {state final : D.State a}
    {events : List (AnyEvent D)} {db db' : Database R} {receipt : Receipt} {globalId : Int}
    {text : String} {rows : List EventRow} {id : Uuid} (hdb : db.Sound) (hdb' : db'.Sound)
    (hloaded : Loaded db a id snapshot)
    (h : Effect r metadata snapshot state events db db' receipt globalId final text rows)
    (id' : Uuid) :
    db'.findAggregate id' =
      if id' = id then .ok (some (globalId, ⟨id, D.aggregateName a, receipt.sequence, text⟩))
      else db.findAggregate id' := by
  have hcurrent := h.current
  rw [hloaded.businessId, hloaded.typeName] at hcurrent
  split
  · rename_i hid
    exact hdb'.findAggregate_eq_some.2 ⟨hcurrent, hid.symm⟩
  · rename_i hid
    have htable : db.aggregates.isSome := by
      cases hloaded with
      | fresh hfind =>
        obtain ⟨t, ht, -⟩ := findAggregate_eq_ok.1 hfind
        rw [ht]
        rfl
      | stored hfind =>
        obtain ⟨t, ht, -⟩ := findAggregate_eq_ok.1 hfind
        rw [ht]
        rfl
    have htable' : db'.aggregates.isSome := by
      obtain ⟨t', ht', -⟩ := exists_aggregates_of_mem hcurrent
      rw [ht']
      rfl
    -- a row of another id has another number, before and after
    refine hdb.findAggregate_congr hdb' htable htable' fun g row hrow => ?_
    by_cases hg : g = globalId
    · subst hg
      constructor
      · intro hmem
        rw [hdb'.snapshots.unique hmem hcurrent] at hrow
        exact absurd hrow.symm hid
      · intro hmem
        obtain ⟨row', hmem', hid', -⟩ := h.keeps hdb hloaded _ _ hmem
        rw [hdb'.snapshots.unique hmem' hcurrent] at hid'
        exact absurd (hrow.symm.trans hid'.symm) hid
    · exact h.mem_of_ne hg

/-! ### The read model -/

section

variable {r : Registry D (Session R W)} {f : R → AnyEvent D → R} (hf : r.Projects f)
  {ctx : ExecutionContext} {metadata : Metadata}

include hf

theorem readModel_of_applyEvent {globalId sequence : Int} {a : D.AggregateType}
    {state state' : D.State a} {e : AnyEvent D} {s s' : Session R W} {db : Database R}
    (hu : s.store.unit = some ⟨ctx, db⟩)
    (h : (applyEvent r ctx metadata globalId state e).run s = (.ok (state', sequence), s')) :
    ∃ db', s'.store.unit = some ⟨ctx, db'⟩ ∧ db'.readModel = f db.readModel e := by
  obtain ⟨-, s₁, hdomain, happend⟩ := applyEvent_cases h
  obtain ⟨db₁, hu₁, hmodel⟩ := hf e ctx _ s s₁ db hu hdomain
  obtain ⟨db', hsame, hs'⟩ :=
    (Store.append_respects admits_readModel ctx globalId e metadata).run happend ctx db₁ hu₁
  exact ⟨db', congrArg Store.unit hs', hsame.trans hmodel⟩

/-- Events change the read model one after the other. -/
theorem readModel_of_applyEvents {globalId : Int} {a : D.AggregateType}
    {state state' : D.State a} {events : List (AnyEvent D)} {appended : List (String × Int)}
    {s s' : Session R W} {db : Database R} (hu : s.store.unit = some ⟨ctx, db⟩)
    (h : (applyEvents r ctx metadata globalId state events).run s = (.ok (state', appended), s')) :
    ∃ db', s'.store.unit = some ⟨ctx, db'⟩ ∧ db'.readModel = events.foldl f db.readModel := by
  induction events generalizing state appended s db with
  | nil =>
    cases h
    exact ⟨db, hu, rfl⟩
  | cons e es ih =>
    obtain ⟨⟨state₁, sequence⟩, s₁, hfirst, h⟩ := Task.bind_eq_ok.1 h
    obtain ⟨⟨state₂, rest⟩, s₂, hrest, h⟩ := Task.bind_eq_ok.1 h
    cases h
    obtain ⟨db₁, hu₁, hmodel₁⟩ := readModel_of_applyEvent hf hu hfirst
    obtain ⟨db', hu', hmodel⟩ := ih hu₁ hrest
    exact ⟨db', hu', by rw [hmodel, hmodel₁, List.foldl_cons]⟩

omit hf in
/-- A row for the aggregate is not in the read model. -/
theorem readModel_of_ensureRow {a : D.AggregateType} {snapshot : Snapshot D a} {globalId : Int}
    {s s' : Session R W} {db : Database R} (hu : s.store.unit = some ⟨ctx, db⟩)
    (h : (ensureRow ctx snapshot).run s = (.ok globalId, s')) :
    ∃ db', s'.store.unit = some ⟨ctx, db'⟩ ∧ db'.readModel = db.readModel := by
  obtain ⟨db', hmodel, hu'⟩ := ((ensureRow_inside admits_readModel ctx snapshot).run h).unit hu
  exact ⟨db', hu', hmodel⟩

theorem readModel_of_store {a : D.AggregateType} {snapshot : Snapshot D a} {state : D.State a}
    {events : List (AnyEvent D)} {receipt : Receipt} {s s' : Session R W} {db : Database R}
    (hu : s.store.unit = some ⟨ctx, db⟩)
    (h : (store r ctx metadata snapshot state events).run s = (.ok receipt, s')) :
    ∃ db', s'.store.unit = some ⟨ctx, db'⟩ ∧ db'.readModel = events.foldl f db.readModel := by
  obtain ⟨globalId, s₁, hrow, h⟩ := Task.bind_eq_ok.1 h
  obtain ⟨⟨final, appended⟩, s₂, hevents, h⟩ := Task.bind_eq_ok.1 h
  obtain ⟨_, s₃, hsave, h⟩ := Task.bind_eq_ok.1 h
  cases h
  obtain ⟨db₁, hu₁, hmodel₁⟩ := readModel_of_ensureRow hu hrow
  obtain ⟨db₂, hu₂, hmodel₂⟩ := readModel_of_applyEvents hf hu₁ hevents
  obtain ⟨db', hsame, hs'⟩ :=
    (Store.save_respects admits_readModel ctx _).run (run_of_onStore hsave) ctx db₂ hu₂
  exact ⟨db', congrArg Store.unit hs', by rw [hsame, hmodel₂, hmodel₁]⟩

variable {δ : Database R → Database R → Prop} (hr : r.Confined Eq δ)

omit hf in
include hr in
/-- Handlers of commands that write nothing leave what is pending. -/
theorem unit_of_dispatchCommand {c : D.CommandType} {state : Option (D.State (D.aggregateOf c))}
    {command : D.Command c} {context : HandlerContext D}
    {result : D.State (D.aggregateOf c) × EventBuffer D} {s s' : Session R W} {db : Database R}
    (hu : s.store.unit = some ⟨ctx, db⟩)
    (h : (r.dispatchCommand c state command context).run s = (.ok result, s')) :
    s'.store.unit = some ⟨ctx, db⟩ := by
  have hinside : s.Inside Eq s' :=
    (r.dispatchCommand_inside hr (fun _ => rfl) (fun _ _ _ => Eq.trans) c state command _).run h
  obtain ⟨_, rfl, hu'⟩ := hinside.unit hu
  exact hu'

include hr in
theorem readModel_of_process {id : Uuid} {c : D.CommandType} {command : D.Command c}
    {receipt : Receipt} {s s' : Session R W} {db : Database R}
    (hu : s.store.unit = some ⟨ctx, db⟩)
    (h : (process r ctx metadata id c command).run s = (.ok receipt, s')) :
    ∃ snapshot state buffer s₁ db', Loaded db (D.aggregateOf c) id snapshot ∧
      (r.dispatchCommand c snapshot.state command (.forCommand r.dependencies ctx)).run s =
        (.ok (state, buffer), s₁) ∧
      s'.store.unit = some ⟨ctx, db'⟩ ∧ db'.readModel = buffer.events.foldl f db.readModel := by
  obtain ⟨snapshot, s₀, hload, hrest⟩ := Task.bind_eq_ok.1 h
  obtain ⟨⟨state, buffer⟩, s₁, hcommand, hstored⟩ := Task.bind_eq_ok.1 hrest
  obtain ⟨rfl, db₀, hu₀, hloaded⟩ := loadOrFresh_eq_ok hload
  rw [hu] at hu₀
  cases hu₀
  have hu₁ := unit_of_dispatchCommand hr hu hcommand
  dsimp only at hstored
  split at hstored
  · rename_i hempty
    cases hstored
    refine ⟨snapshot, state, buffer, _, db, hloaded, hcommand, hu₁, ?_⟩
    rw [List.isEmpty_iff.1 hempty]
    rfl
  · obtain ⟨db', hu', hmodel⟩ := readModel_of_store hf hu₁ hstored
    exact ⟨snapshot, state, buffer, s₁, db', hloaded, hcommand, hu', hmodel⟩

end

/-- What can be looked up after a command that succeeds.  It has called its handler
with the state that is stored, and has changed the read model by every event.  If there
are any, the row of its id holds the state that they make; all other rows are the same. -/
theorem send_looks_up {r : Registry D (Session R W)} {f : R → AnyEvent D → R}
    (hr : r.Confined Eq SameTables) (hf : r.Projects f) {x : Sending D} {receipt : Receipt}
    {s s' : Session R W} (hs : s.store.committed.Sound)
    (h : (send r x.ctx x.metadata x.type x.command x.seconds).run s = (.ok receipt, s')) :
    let db := s.store.committed
    let db' := s'.store.committed
    db'.Sound ∧ ∃ id snapshot state buffer s₁, D.target x.command = some id ∧
      Loaded db x.aggregate id snapshot ∧
      (r.dispatchCommand x.type snapshot.state x.command
        (.forCommand r.dependencies x.ctx)).run (begun s id x.ctx) = (.ok (state, buffer), s₁) ∧
      db'.readModel = buffer.events.foldl f db.readModel ∧
      (buffer.events = [] ∧ (∀ id', db'.findAggregate id' = db.findAggregate id') ∨
        buffer.events ≠ [] ∧ ∃ globalId final text,
          buffer.events.foldlM (r.dispatchState x.aggregate) state = .ok final ∧
          (D.stateCodec x.aggregate).serialize (D.aggregateName x.aggregate) final = .ok text ∧
          ∀ id', db'.findAggregate id' =
            if id' = id then
              .ok (some (globalId, ⟨id, D.aggregateName x.aggregate, receipt.sequence, text⟩))
            else db.findAggregate id') := by
  intro db db'
  have hr' : r.Confined SameTables SameTables := hr.mono (fun _ _ h => h ▸ .refl _) fun _ _ h => h
  obtain ⟨-, -, hs', id, snapshot, state, buffer, s₁, htarget, hloaded, hcommand, hcase⟩ :=
    send_effect hr' hs h
  refine ⟨hs', id, snapshot, state, buffer, s₁, htarget, hloaded, hcommand, ?_, ?_⟩
  · -- the work of the command is the same, seen from the read model
    have hend := send_ending admits_true (hr.mono (fun _ _ _ => trivial) fun _ _ _ => trivial)
      x.ctx x.metadata x.type x.command x.seconds s
    rw [h] at hend
    generalize hstore : s'.store = store' at hend
    cases hend with
    | @committed id₀ _ s₂ db₂ hunit htarget₀ hrun hs₂ =>
      rw [htarget] at htarget₀
      cases htarget₀
      obtain ⟨snapshot₀, state₀, buffer₀, s₃, db₃, hloaded₀, hcommand₀, hu₃, hmodel⟩ :=
        readModel_of_process hf hr (rfl : (begun s id x.ctx).store.unit = _) hrun
      have hsnapshot := hloaded.unique hloaded₀
      subst hsnapshot
      rw [hcommand] at hcommand₀
      cases hcommand₀
      rw [hs₂] at hu₃
      cases hu₃
      show s'.store.committed.readModel = _
      rw [hstore]
      exact hmodel
  · rcases hcase with ⟨hnil, -, hsame⟩ | ⟨hne, globalId, final, text, rows, heffect⟩
    · refine .inl ⟨hnil, fun id' => ?_⟩
      rw [Database.findAggregate, Database.findAggregate, aggregateTable, aggregateTable,
        hsame.aggregates]
    · have hserialized := heffect.serialized
      rw [hloaded.typeName] at hserialized
      exact .inr ⟨hne, globalId, final, text, heffect.folded, hserialized,
        heffect.findAggregate hs hs' hloaded⟩

/-! ### Calls of domain event handlers -/

/-- On the way of a command from a session, a domain event handler is called with an
event, when all before it has succeeded: the events before this one, its state handler
and the handlers before this one. -/
inductive Calls (r : Registry D (Session R W)) (x : Sending D) (s : Session R W) :
    (e : AnyEvent D) → EventHandler D (Session R W) e.type → EventInfo → Session R W → Prop
  | intro {id : Uuid} {snapshot : Snapshot D x.aggregate} {state state' : D.State x.aggregate}
      {buffer : EventBuffer D} {globalId : Int} {before after : List (AnyEvent D)}
      {e : AnyEvent D} {appended : List (String × Int)}
      {h : EventHandler D (Session R W) e.type}
      {earlier later : List (EventHandler D (Session R W) e.type)}
      {s₁ s₂ s₃ s₄ s₅ : Session R W} :
      s.store.unit = none → D.target x.command = some id →
      (loadOrFresh x.ctx x.aggregate id).run (begun s id x.ctx) = (.ok snapshot, s₁) →
      (r.dispatchCommand x.type snapshot.state x.command
        (.forCommand r.dependencies x.ctx)).run s₁ = (.ok (state, buffer), s₂) →
      buffer.events = before ++ e :: after →
      (ensureRow x.ctx snapshot).run s₂ = (.ok globalId, s₃) →
      (applyEvents r x.ctx x.metadata globalId state before).run s₃ =
        (.ok (state', appended), s₄) →
      (∃ next, r.dispatchState x.aggregate state' e = .ok next) →
      Tagged.select e.type r.domainHandlers = earlier ++ h :: later →
      (Registry.callAll e.event (.forDomainEvent r.dependencies x.ctx
        ⟨e.typeName, globalId, none, x.metadata⟩) earlier).run s₄ = (.ok (), s₅) →
      Calls r x s e h ⟨e.typeName, globalId, none, x.metadata⟩ s₅

/-- If the handlers of an event fail, one that is called does. -/
theorem exists_calls_of_error {r : Registry D (Session R W)} {x : Sending D} {id : Uuid}
    {snapshot : Snapshot D x.aggregate} {state state' next : D.State x.aggregate}
    {buffer : EventBuffer D} {globalId : Int} {before after : List (AnyEvent D)} {e : AnyEvent D}
    {appended : List (String × Int)} {error : Error} {s s₁ s₂ s₃ s₄ s₆ : Session R W}
    (hunit : s.store.unit = none) (htarget : D.target x.command = some id)
    (hload : (loadOrFresh x.ctx x.aggregate id).run (begun s id x.ctx) = (.ok snapshot, s₁))
    (hcommand : (r.dispatchCommand x.type snapshot.state x.command
      (.forCommand r.dependencies x.ctx)).run s₁ = (.ok (state, buffer), s₂))
    (hevents : buffer.events = before ++ e :: after)
    (hrow : (ensureRow x.ctx snapshot).run s₂ = (.ok globalId, s₃))
    (hbefore : (applyEvents r x.ctx x.metadata globalId state before).run s₃ =
      (.ok (state', appended), s₄))
    (hstate : r.dispatchState x.aggregate state' e = .ok next)
    (herror : (r.dispatchDomain e (.forDomainEvent r.dependencies x.ctx
      ⟨e.typeName, globalId, none, x.metadata⟩)).run s₄ = (.error error, s₆)) :
    ∃ f info s₅, Calls r x s e f info s₅ ∧
      (f.call (.forDomainEvent r.dependencies x.ctx info) e.event).run s₅ = (.error error, s₆) := by
  obtain ⟨earlier, f, later, s₅, hselect, hearlier, hf⟩ := Registry.callAll_eq_error herror
  exact ⟨f, _, s₅, .intro hunit htarget hload hcommand hevents hrow hbefore ⟨next, hstate⟩ hselect
    hearlier, hf⟩

/-- Events are applied up to the first that fails. -/
theorem run_applyEvents_of_error {r : Registry D (Session R W)} {ctx : ExecutionContext}
    {metadata : Metadata} {globalId : Int} {a : D.AggregateType} {state state' : D.State a}
    {before after : List (AnyEvent D)} {e : AnyEvent D} {appended : List (String × Int)}
    {error : Error} {s s' s'' : Session R W}
    (hbefore : (applyEvents r ctx metadata globalId state before).run s =
      (.ok (state', appended), s'))
    (he : (applyEvent r ctx metadata globalId state' e).run s' = (.error error, s'')) :
    (applyEvents r ctx metadata globalId state (before ++ e :: after)).run s =
      (.error error, s'') := by
  induction before generalizing state appended s with
  | nil =>
    cases hbefore
    exact Task.run_bind_of_error he
  | cons e' es ih =>
    obtain ⟨⟨state₁, sequence⟩, s₁, hfirst, h⟩ := Task.bind_eq_ok.1 hbefore
    obtain ⟨⟨state₂, rest⟩, s₂, hrest, h⟩ := Task.bind_eq_ok.1 h
    cases h
    rw [List.cons_append, applyEvents, Task.run_bind_of_ok hfirst]
    exact Task.run_bind_of_error (ih hrest)

/-- If a handler that is called fails, so does the command. -/
theorem Calls.answerTo_of_error {r : Registry D (Session R W)} {x : Sending D}
    {s s₅ s₆ : Session R W} {e : AnyEvent D} {h : EventHandler D (Session R W) e.type}
    {info : EventInfo} {error : Error} (hcalls : Calls r x s e h info s₅)
    (herror : (h.call (.forDomainEvent r.dependencies x.ctx info) e.event).run s₅ =
      (.error error, s₆)) : answerTo r s x = .error error := by
  cases hcalls with
  | @intro id snapshot state state' buffer globalId before after _ appended _ earlier later s₁ s₂
      s₃ s₄ _ hunit htarget hload hcommand hevents hrow hbefore hstate hselect hearlier =>
    obtain ⟨next, hstate⟩ := hstate
    have hdomain : (r.dispatchDomain e (.forDomainEvent r.dependencies x.ctx
        ⟨e.typeName, globalId, none, x.metadata⟩)).run s₄ = (.error error, s₆) := by
      rw [Registry.dispatchDomain, hselect, Registry.callAll_append, Task.run_bind_of_ok hearlier]
      exact Task.run_bind_of_error herror
    have hevent : (applyEvent r x.ctx x.metadata globalId state' e).run s₄ = (.error error, s₆) := by
      rw [applyEvent, Task.run_ofExcept_bind, hstate]
      exact Task.run_bind_of_error hdomain
    have hstored : (store r x.ctx x.metadata snapshot state buffer.events).run s₂ =
        (.error error, s₆) := by
      rw [store, Task.run_bind_of_ok hrow, hevents]
      exact Task.run_bind_of_error (run_applyEvents_of_error hbefore hevent)
    have hsome : buffer.isEmpty = false := by
      rw [EventBuffer.isEmpty, List.isEmpty_eq_false_iff, hevents]
      exact List.append_ne_nil_of_right_ne_nil _ (List.cons_ne_nil _ _)
    have hprocess : (process r x.ctx x.metadata id x.type x.command).run (begun s id x.ctx) =
        (.error error, s₆) := by
      refine (Task.run_bind_of_ok hload).trans ((Task.run_bind_of_ok hcommand).trans ?_)
      simp only [hsome, Bool.false_eq_true, if_false]
      exact hstored
    exact answerTo_of_process_error hunit htarget hprocess

end Gateway

end Chronicle
