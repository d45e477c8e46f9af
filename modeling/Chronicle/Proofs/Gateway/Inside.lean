/-
Chronicle/Proofs/Gateway/Inside.lean

What a command may do between the begin and the end of its unit of work.

`Session.Inside ρ` is `Store.Within ρ` for sessions, where the critical sections
are occupied as before.  The engine itself never leaves it.  For handlers it is a
condition, `Registry.Confined`: they use the unit of work that they find and
neither begin nor end one.

Main result: `Gateway.process_inside`, for the work of a command.
-/
import Chronicle.Gateway.Command
import Chronicle.Proofs.CriticalSection.Occupancy
import Chronicle.Proofs.Store.UnitOfWork

namespace Chronicle

variable {D : Domain} {R W α : Type} {ρ δ : Database R → Database R → Prop}

/-! ### Inside a unit of work -/

namespace Session

/-- Later in the same unit of work, with the same critical sections occupied. -/
structure Inside (ρ : Database R → Database R → Prop) (s s' : Session R W) : Prop where
  store : s.store.Within ρ s'.store
  sections : s.sections.SameOccupants s'.sections

theorem Inside.refl (hrefl : ∀ db, ρ db db) (s : Session R W) : s.Inside ρ s :=
  ⟨.refl hrefl s.store, .refl s.sections⟩

theorem Inside.trans (htrans : ∀ ⦃a b c⦄, ρ a b → ρ b c → ρ a c) {s s' s'' : Session R W}
    (h : s.Inside ρ s') (h' : s'.Inside ρ s'') : s.Inside ρ s'' :=
  ⟨h.store.trans htrans h'.store, h.sections.trans h'.sections⟩

theorem Inside.mono (hρ : ∀ ⦃db db'⦄, ρ db db' → δ db db') {s s' : Session R W}
    (h : s.Inside ρ s') : s.Inside δ s' :=
  ⟨h.store.mono hρ, h.sections⟩

theorem Inside.unit {s s' : Session R W} (h : s.Inside ρ s') {ctx : ExecutionContext}
    {db : Database R} (hu : s.store.unit = some ⟨ctx, db⟩) :
    ∃ db', ρ db db' ∧ s'.store.unit = some ⟨ctx, db'⟩ := by
  obtain ⟨db', hρ, hs'⟩ := h.store ctx db hu
  exact ⟨db', hρ, congrArg Store.unit hs'⟩

/-- Tasks on the store change nothing else. -/
theorem onStore_respects {t : Task (Store R) α} (h : t.Respects (Store.Within ρ)) :
    (onStore t : Task (Session R W) α).Respects (Inside ρ) := by
  intro s
  rw [run_onStore]
  exact ⟨h s.store, .refl s.sections⟩

end Session

open Session

/-- A statement of a handler changes what is pending as its function says. -/
theorem Session.write_respects (hrefl : ∀ db, ρ db db) (ctx : ExecutionContext)
    {f : Database R → Except StorageFault (α × Database R)}
    (hf : ∀ ⦃db a db'⦄, f db = .ok (a, db') → ρ db db') :
    (write ctx f : Work (Session R W) α).Respects (Inside ρ) := by
  intro s
  rw [write, Work.run_get_bind]
  split
  · exact .refl hrefl s
  · rename_i db hpending
    split
    · exact .refl hrefl s
    · rename_i a db' hok
      exact ⟨Store.within_pending (Store.pending?_eq_some.1 hpending) (hf hok), .refl s.sections⟩

/-! ### Handlers -/

/-- Handlers that keep to the unit of work of their command: those of commands
change what is pending within `ρ`, and those of domain events within `δ`. -/
structure Registry.Confined (r : Registry D (Session R W)) (ρ δ : Database R → Database R → Prop) :
    Prop where
  creation : ∀ c h, ⟨c, .creation h⟩ ∈ r.commands →
    ∀ values command, (h.run values command).Respects (Inside ρ)
  mutation : ∀ c h, ⟨c, .mutation h⟩ ∈ r.commands →
    ∀ values state command, (h.run values state command).Respects (Inside ρ)
  domainEvent : ∀ e h, ⟨e, h⟩ ∈ r.domainHandlers →
    ∀ values event, (h.run values event).Respects (Inside δ)

theorem Registry.Confined.mono {r : Registry D (Session R W)}
    {ρ' δ' : Database R → Database R → Prop}
    (h : r.Confined ρ δ) (hρ : ∀ ⦃db db'⦄, ρ db db' → ρ' db db')
    (hδ : ∀ ⦃db db'⦄, δ db db' → δ' db db') : r.Confined ρ' δ' where
  creation c f hf values command s := (h.creation c f hf values command s).mono hρ
  mutation c f hf values state command s := (h.mutation c f hf values state command s).mono hρ
  domainEvent e f hf values event s := (h.domainEvent e f hf values event s).mono hδ

namespace Tagged

variable {ι : Type} [DecidableEq ι] {β : ι → Type}

theorem mem_select {i : ι} {b : β i} {xs : List (Σ i, β i)} : b ∈ select i xs ↔ ⟨i, b⟩ ∈ xs := by
  simp only [select, List.mem_filterMap, as?_eq_some]
  constructor
  · rintro ⟨_, hx, rfl⟩
    exact hx
  · intro hx
    exact ⟨_, hx, rfl⟩

theorem mem_of_find? {i : ι} {b : β i} {xs : List (Σ i, β i)} (h : find? i xs = some b) :
    ⟨i, b⟩ ∈ xs :=
  mem_select.1 (List.mem_of_head? h)

end Tagged

/-- Handlers that go from every state to a related one: those of commands by `Q`,
and those of domain events by `Q'`. -/
structure Registry.Respects {σ : Type} (r : Registry D σ) (Q Q' : σ → σ → Prop) : Prop where
  creation : ∀ c h, ⟨c, .creation h⟩ ∈ r.commands →
    ∀ values command, (h.run values command).Respects Q
  mutation : ∀ c h, ⟨c, .mutation h⟩ ∈ r.commands →
    ∀ values state command, (h.run values state command).Respects Q
  domainEvent : ∀ e h, ⟨e, h⟩ ∈ r.domainHandlers →
    ∀ values event, (h.run values event).Respects Q'

theorem Registry.Confined.respects {r : Registry D (Session R W)} (h : r.Confined ρ δ) :
    r.Respects (Inside ρ) (Inside δ) :=
  ⟨h.creation, h.mutation, h.domainEvent⟩

namespace Registry

section

variable {σ : Type} {r : Registry D σ} {Q Q' : σ → σ → Prop}

theorem callAll_respects (hrefl : ∀ s, Q s s) (htrans : ∀ {a b c}, Q a b → Q b c → Q a c)
    {e : D.EventType} (event : D.Event e) (ctx : HandlerContext D)
    {hs : List (EventHandler D σ e)}
    (h : ∀ f ∈ hs, ∀ values event, (f.run values event).Respects Q) :
    (callAll event ctx hs).Respects Q := by
  induction hs with
  | nil => exact Task.respects_pure hrefl _
  | cons f hs ih =>
    have hf : (f.call ctx event).Respects Q :=
      callWith_respects hrefl @htrans _ _ fun values => h f List.mem_cons_self values event
    exact hf.bind @htrans fun _ => ih fun g hg => h g (List.mem_cons_of_mem _ hg)

theorem Respects.dispatchCommand (hr : r.Respects Q Q') (hrefl : ∀ s, Q s s)
    (htrans : ∀ {a b c}, Q a b → Q b c → Q a c) (c : D.CommandType)
    (state : Option (D.State (D.aggregateOf c))) (command : D.Command c) (ctx : HandlerContext D) :
    (r.dispatchCommand c state command ctx).Respects Q := by
  unfold Registry.dispatchCommand
  split
  · exact Task.respects_throw hrefl _
  · rename_i h hfind
    have hmem := Tagged.mem_of_find? hfind
    split
    · exact Task.respects_throw hrefl _
    · split
      · exact Task.respects_throw hrefl _
      · exact Task.respects_throw hrefl _
      · exact callWith_respects hrefl @htrans _ _ fun values =>
          hr.creation _ _ hmem values command
      · exact callWith_respects hrefl @htrans _ _ fun values =>
          hr.mutation _ _ hmem values _ command

theorem Respects.dispatchDomain (hr : r.Respects Q Q') (hrefl : ∀ s, Q' s s)
    (htrans : ∀ {a b c}, Q' a b → Q' b c → Q' a c) (e : AnyEvent D) (ctx : HandlerContext D) :
    (r.dispatchDomain e ctx).Respects Q' :=
  callAll_respects hrefl @htrans e.event ctx fun f hf =>
    hr.domainEvent e.type f (Tagged.mem_select.1 hf)

end

variable {r : Registry D (Session R W)}

theorem dispatchCommand_inside (hr : r.Confined ρ δ) (hrefl : ∀ db, ρ db db)
    (htrans : ∀ ⦃a b c⦄, ρ a b → ρ b c → ρ a c) (c : D.CommandType)
    (state : Option (D.State (D.aggregateOf c))) (command : D.Command c) (ctx : HandlerContext D) :
    (r.dispatchCommand c state command ctx).Respects (Inside ρ) :=
  hr.respects.dispatchCommand (.refl hrefl) (.trans htrans) c state command ctx

theorem dispatchDomain_inside (hr : r.Confined ρ δ) (hrefl : ∀ db, δ db db)
    (htrans : ∀ ⦃a b c⦄, δ a b → δ b c → δ a c) (e : AnyEvent D) (ctx : HandlerContext D) :
    (r.dispatchDomain e ctx).Respects (Inside δ) :=
  hr.respects.dispatchDomain (.refl hrefl) (.trans htrans) e ctx

end Registry

/-! ### The work of a command -/

namespace Gateway

/-- A relation that everything the engine does to the store for one command stays
within. -/
structure Allows (D : Domain) (ctx : ExecutionContext) (metadata : Metadata)
    (Q : Session R W → Session R W → Prop) : Prop where
  refl : ∀ s, Q s s
  trans : ∀ {a b c}, Q a b → Q b c → Q a c
  load : ∀ (a : D.AggregateType) (id : Uuid),
    (onStore (Store.load ctx a id) : Task (Session R W) _).Respects Q
  save : ∀ {a : D.AggregateType} (snapshot : Snapshot D a),
    (onStore (Store.save ctx snapshot) : Task (Session R W) _).Respects Q
  append : ∀ (globalId : Int) (e : AnyEvent D),
    (onStore (Store.append ctx globalId e metadata) : Task (Session R W) _).Respects Q

theorem allows_inside (hρ : Database.Admits ρ) (ctx : ExecutionContext) (metadata : Metadata) :
    Allows D ctx metadata (Inside ρ : Session R W → Session R W → Prop) where
  refl := .refl hρ.refl
  trans := .trans hρ.trans
  load a id := onStore_respects (Store.load_respects hρ.refl hρ.trans ctx a id)
  save snapshot := onStore_respects (Store.save_respects hρ ctx snapshot)
  append globalId e := onStore_respects (Store.append_respects hρ ctx globalId e metadata)

/-- Whatever the load answers, its last state is kept. -/
theorem loadOrFresh_respects {Q : Session R W → Session R W → Prop} {ctx : ExecutionContext}
    {a : D.AggregateType} {id : Uuid}
    (h : (onStore (Store.load ctx a id) : Task (Session R W) (Snapshot D a)).Respects Q) :
    (loadOrFresh ctx a id : Task (Session R W) _).Respects Q := by
  intro s
  rcases hrun : (onStore (Store.load ctx a id) : Task (Session R W) (Snapshot D a)).run s with
    ⟨answer, s'⟩
  -- a missing aggregate turns the error into an answer, and only that
  have hfresh : ((loadOrFresh ctx a id : Task (Session R W) _).run s).2 = s' := by
    simp only [loadOrFresh, Task.run_mk, bind, StateT.bind]
    rw [hrun]
    dsimp only
    split
    · rfl
    · rfl
  rw [hfresh]
  exact h.run hrun

theorem loadOrFresh_inside (hrefl : ∀ db, ρ db db) (htrans : ∀ ⦃a b c⦄, ρ a b → ρ b c → ρ a c)
    (ctx : ExecutionContext) (a : D.AggregateType) (id : Uuid) :
    (loadOrFresh ctx a id : Task (Session R W) _).Respects (Inside ρ) :=
  loadOrFresh_respects (onStore_respects (Store.load_respects hrefl htrans ctx a id))

section

variable {Q : Session R W → Session R W → Prop} {ctx : ExecutionContext} {metadata : Metadata}
  (hQ : Allows D ctx metadata Q)

include hQ

theorem Allows.ensureRow {a : D.AggregateType} (snapshot : Snapshot D a) :
    (ensureRow ctx snapshot).Respects Q := by
  unfold Gateway.ensureRow
  split
  · exact Task.respects_pure hQ.refl _
  · exact hQ.save _

variable {r : Registry D (Session R W)} (hr : r.Respects Q Q)

include hr

theorem Allows.applyEvent (globalId : Int) {a : D.AggregateType} (state : D.State a)
    (e : AnyEvent D) : (applyEvent r ctx metadata globalId state e).Respects Q := by
  refine .bind @hQ.trans (Task.respects_ofExcept hQ.refl _) fun state => ?_
  refine .bind @hQ.trans (hr.dispatchDomain hQ.refl @hQ.trans e _) fun _ => ?_
  refine .bind @hQ.trans (hQ.append _ e) fun _ => ?_
  exact Task.respects_pure hQ.refl _

theorem Allows.applyEvents (globalId : Int) {a : D.AggregateType} (state : D.State a)
    (events : List (AnyEvent D)) :
    (applyEvents r ctx metadata globalId state events).Respects Q := by
  induction events generalizing state with
  | nil => exact Task.respects_pure hQ.refl _
  | cons e es ih =>
    refine .bind @hQ.trans (hQ.applyEvent hr globalId state e) ?_
    rintro ⟨state', sequence⟩
    refine .bind @hQ.trans (ih state') ?_
    rintro ⟨state'', appended⟩
    exact Task.respects_pure hQ.refl _

theorem Allows.store {a : D.AggregateType} (snapshot : Snapshot D a) (state : D.State a)
    (events : List (AnyEvent D)) : (store r ctx metadata snapshot state events).Respects Q := by
  refine .bind @hQ.trans (hQ.ensureRow snapshot) fun globalId => ?_
  refine .bind @hQ.trans (hQ.applyEvents hr globalId state events) ?_
  rintro ⟨state', appended⟩
  refine .bind @hQ.trans (hQ.save _) fun _ => ?_
  exact Task.respects_pure hQ.refl _

/-- The work of a command stays within what its handlers and its statements do. -/
theorem Allows.process (id : Uuid) (c : D.CommandType) (command : D.Command c) :
    (process r ctx metadata id c command).Respects Q := by
  refine .bind @hQ.trans (loadOrFresh_respects (hQ.load _ id)) fun snapshot => ?_
  refine .bind @hQ.trans (hr.dispatchCommand hQ.refl @hQ.trans c snapshot.state command _) ?_
  rintro ⟨state, buffer⟩
  dsimp only
  split
  · exact Task.respects_pure hQ.refl _
  · exact hQ.store hr snapshot state buffer.events

end

section

variable (hρ : Database.Admits ρ)

include hρ

theorem ensureRow_inside (ctx : ExecutionContext) {a : D.AggregateType} (snapshot : Snapshot D a) :
    (ensureRow ctx snapshot : Task (Session R W) Int).Respects (Inside ρ) :=
  (allows_inside hρ ctx Dictionary.empty).ensureRow snapshot

/-- The work of a command stays inside its unit of work. -/
theorem process_inside {r : Registry D (Session R W)} (hr : r.Confined ρ ρ)
    (ctx : ExecutionContext) (metadata : Metadata) (id : Uuid) (c : D.CommandType)
    (command : D.Command c) : (process r ctx metadata id c command).Respects (Inside ρ) :=
  (allows_inside hρ ctx metadata).process hr.respects id c command

end

end Gateway

end Chronicle
