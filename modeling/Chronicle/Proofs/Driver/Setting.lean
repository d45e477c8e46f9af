/-
Chronicle/Proofs/Driver/Setting.lean

Drivers among other businesses.

The handlers of drivers are registered among those of others, which leave the tables
alone and emit no events of drivers (`Driver.Setting`).  Since a registration looks at
the day, there is a table of handlers for every day.  In all of them the handlers of
drivers are the ones that are found for their commands, events and query, and the read
model is changed by the events of drivers only (`Driver.Setting.projects_registry`).
-/
import Chronicle.Gateway.Query
import Chronicle.Proofs.Driver.Projection
import Chronicle.Proofs.Gateway.Projection
import Chronicle.Proofs.Registry.Lookup

namespace Chronicle

/-- What handlers are confined to may be widened. -/
theorem Registration.Confined.mono {D : Domain} {R W : Type}
    {ρ δ ρ' δ' : Database R → Database R → Prop} {call : Registration D (Session R W)}
    (h : call.Confined ρ δ) (hρ : ∀ ⦃db db'⦄, ρ db db' → ρ' db db')
    (hδ : ∀ ⦃db db'⦄, δ db db' → δ' db db') : call.Confined ρ' δ' := by
  cases call with
  | creation c f => exact fun values command s => (h values command s).mono hρ
  | mutation c f => exact fun values state command s => (h values state command s).mono hρ
  | domainEvent e f => exact fun values event s => (h values event s).mono hδ
  | _ => trivial

namespace Driver

variable {O : Domain} {W : Type}

open Session Database Gateway Registration

/-! ### Drivers among others -/

/-- The handler of a call emits no events of drivers. -/
def Silent : Registration (beside O) (Scene W) → Prop
  | .creation _ h => ∀ values command s state buffer s',
    (h.run values command).run s = (.ok (state, buffer), s') →
      ∀ e ∈ buffer.events, ∃ t, e.type = EventType.other t
  | .mutation _ h => ∀ values state command s state' buffer s',
    (h.run values state command).run s = (.ok (state', buffer), s') →
      ∀ e ∈ buffer.events, ∃ t, e.type = EventType.other t
  | _ => True

/-- A call for another business: its handler leaves the tables alone. -/
structure Foreign (call : Registration (beside O) (Scene W)) : Prop where
  confined : call.Confined Eq Eq
  silent : Silent call

/-- Handlers of others leave what is pending. -/
theorem unit_of_callAll {e : (beside O).EventType}
    {hs : List (EventHandler (beside O) (Scene W) e)}
    (hforeign : ∀ h ∈ hs, Foreign (.domainEvent e h)) {event : (beside O).Event e}
    {context : HandlerContext (beside O)} {ctx : ExecutionContext} {s s' : Scene W}
    {db : Database ReadModel} (hu : s.store.unit = some ⟨ctx, db⟩)
    (h : (Registry.callAll event context hs).run s = (.ok (), s')) :
    s'.store.unit = some ⟨ctx, db⟩ := by
  have htrans : ∀ {a b c : Scene W}, a.Inside Eq b → b.Inside Eq c → a.Inside Eq c :=
    Inside.trans (ρ := Eq) fun _ _ _ => Eq.trans
  have hrespects : (Registry.callAll event context hs).Respects (Inside Eq) :=
    Registry.callAll_respects (.refl fun _ => rfl) @htrans event context fun f hf =>
      (hforeign f hf).confined
  obtain ⟨_, rfl, hu'⟩ := (hrespects.run h).unit hu
  exact hu'

theorem Foreign.pending_eq {e : (beside O).EventType} {f : EventHandler (beside O) (Scene W) e}
    (hf : Foreign (.domainEvent e f)) {event : (beside O).Event e}
    {context : HandlerContext (beside O)} {ctx : ExecutionContext} {s : Scene W}
    {db db' : Database ReadModel}
    (h : (f.call context event).run (s.withPending ctx db) = (.ok (), s.withPending ctx db')) :
    db' = db := by
  have hcall : (Registry.callAll event context [f]).run (s.withPending ctx db) =
      (.ok (), s.withPending ctx db') := Task.run_bind_of_ok h
  have hu := unit_of_callAll (fun g hg => List.mem_singleton.1 hg ▸ hf) rfl hcall
  cases hu
  rfl

/-- The domain event handlers of drivers. -/
def projections : List (Σ e : (beside O).EventType, EventHandler (beside O) (Scene W) e) :=
  [⟨.registered, projectRegistered⟩, ⟨.nameAmended, projectNameAmended⟩]

theorem mem_projections {e : (beside O).EventType} {f : EventHandler (beside O) (Scene W) e}
    {today : Date}
    (hf : .domainEvent e f ∈ (registrations today : List (Registration (beside O) (Scene W)))) :
    (⟨e, f⟩ : Σ e, EventHandler (beside O) (Scene W) e) = ⟨.registered, projectRegistered⟩ ∨
      (⟨e, f⟩ : Σ e, EventHandler (beside O) (Scene W) e) = ⟨.nameAmended, projectNameAmended⟩ := by
  simp only [registrations, List.mem_cons, List.not_mem_nil, or_false] at hf
  rcases hf with hf | hf | hf | hf | hf | hf | hf | hf | hf | hf
  all_goals cases hf
  · exact .inl rfl
  · exact .inr rfl

/-- An event has one of them at most. -/
theorem select_projections {e : (beside O).EventType} {f : EventHandler (beside O) (Scene W) e}
    {today : Date}
    (hf : .domainEvent e f ∈ (registrations today : List (Registration (beside O) (Scene W)))) :
    Tagged.select e projections = [f] := by
  rcases mem_projections hf with h | h
  · cases h
    rfl
  · cases h
    rfl

/-- The projections are not calls for another business: they can change the table. -/
theorem Foreign.not_mem_registrations {e : (beside O).EventType} {today : Date}
    {f : EventHandler (beside O) (Scene W) e} (hf : Foreign (.domainEvent e f)) (s : Scene W) :
    .domainEvent e f ∉ (registrations today : List (Registration (beside O) (Scene W))) := by
  intro hcall
  rcases mem_projections hcall with h | h
  · cases h
    let e : DriverRegistered := ⟨Uuid.zero, "", newYear⟩
    have h : ((projectRegistered : EventHandler (beside O) (Scene W) .registered).call
        (.forDomainEvent Dependencies.empty ⟨0⟩ ⟨"", 0, none, Dictionary.empty⟩) e).run
          (s.withPending ⟨0⟩ ⟨none, none, some Table.empty⟩) = _ :=
      projectRegistered_eq_ok.2 ⟨_, _, rfl, rfl, rfl, rfl⟩
    cases hf.pending_eq h
  · cases h
    let e : DriverNameAmended := ⟨Uuid.zero, "Ada"⟩
    let t : Table DriverView := Table.empty.insert ⟨Uuid.zero, "", newYear⟩
    have h : ((projectNameAmended : EventHandler (beside O) (Scene W) .nameAmended).call
        (.forDomainEvent Dependencies.empty ⟨0⟩ ⟨"", 0, none, Dictionary.empty⟩) e).run
          (s.withPending ⟨0⟩ ⟨none, none, some t⟩) = _ :=
      projectNameAmended_eq_ok.2 ⟨_, _, rfl, rfl, rfl, rfl⟩
    have ht : ReadModel.amended t Uuid.zero "Ada" = t :=
      Option.some.inj (congrArg Database.readModel (hf.pending_eq h))
    exact absurd (congrArg (ReadModel.view? · Uuid.zero) ht) (by decide)

/-- The calls of every day: those for drivers, which do not fail, among others. -/
structure Setting (O : Domain) (W : Type) where
  dependencies : Dependencies (beside O)
  before : Date → List (Registration (beside O) (Scene W))
  behind : Date → List (Registration (beside O) (Scene W))
  /-- Other types of aggregates are those with another name, by which the store tells them
  apart.  It matters only if commands of others are sent. -/
  named : ∀ a, O.aggregateName a ≠ "Driver"
  foreign : ∀ today, ∀ call ∈ before today ++ behind today, Foreign call
  performed : ∀ today,
    ((performAll (registrations today)).run (build dependencies (before today))).1 = .ok ()

namespace Setting

/-- The calls for other businesses. -/
def others (S : Setting O W) (today : Date) : List (Registration (beside O) (Scene W)) :=
  S.before today ++ S.behind today

/-- The table of all handlers. -/
def registry (S : Setting O W) (today : Date) : Registry (beside O) (Scene W) :=
  build S.dependencies (S.before today ++ registrations today ++ S.behind today)

variable (S : Setting O W) (today : Date)

/-- The calls that succeed. -/
theorem exists_accepted : ∃ earlier later,
    (∀ call ∈ earlier ++ later, call ∈ S.others today) ∧
      accepted S.dependencies (S.before today ++ registrations today ++ S.behind today) =
        earlier ++ registrations today ++ later := by
  obtain ⟨behind, hbehind, h⟩ := accepted_among (S.performed today) (S.behind today)
  refine ⟨accepted S.dependencies (S.before today), behind, fun call hcall => ?_, h⟩
  rcases List.mem_append.1 hcall with hcall | hcall
  · exact List.mem_append_left _ (mem_of_mem_accepted hcall)
  · exact List.mem_append_right _ (hbehind.mem hcall)

variable {today}

theorem mem_accepted {call : Registration (beside O) (Scene W)} (h : call ∈ registrations today) :
    call ∈ accepted S.dependencies (S.before today ++ registrations today ++ S.behind today) := by
  obtain ⟨earlier, later, -, haccepted⟩ := S.exists_accepted today
  rw [haccepted]
  exact List.mem_append_left _ (List.mem_append_right _ h)

theorem mem_or_mem_others {call : Registration (beside O) (Scene W)}
    (h : call ∈
      accepted S.dependencies (S.before today ++ registrations today ++ S.behind today)) :
    call ∈ registrations today ∨ call ∈ S.others today := by
  have hmem := mem_of_mem_accepted h
  simp only [List.mem_append] at hmem
  rcases hmem with (hmem | hmem) | hmem
  · exact .inr (List.mem_append_left _ hmem)
  · exact .inl hmem
  · exact .inr (List.mem_append_right _ hmem)

theorem confined_registry : (S.registry today).Confined Eq SameTables := by
  refine confined_build fun call hcall => ?_
  rw [List.append_assoc, List.mem_append, List.mem_append] at hcall
  have hforeign (hcall : call ∈ S.before today ++ S.behind today) : call.Confined Eq SameTables :=
    (S.foreign today call hcall).confined.mono (fun _ _ h => h) fun _ _ h => h ▸ .refl _
  rcases hcall with hcall | hcall | hcall
  · exact hforeign (List.mem_append_left _ hcall)
  · exact confined_registrations today call hcall
  · exact hforeign (List.mem_append_right _ hcall)

/-! ### Commands -/

section

variable {ctx : HandlerContext (beside O)} {buffer : EventBuffer (beside O)} {s s' : Scene W}

/-- A registration has found no driver, and emits one event. -/
theorem emitted_register {c : RegisterDriver} {d : Option Driver} {state : Driver}
    (h : ((S.registry today).dispatchCommand .register d c ctx).run s =
      (.ok (state, buffer), s')) :
    d = none ∧ state = Driver.blank ∧
      ∃ e, register today c = .ok e ∧ buffer.events = [registeredEvent e] := by
  have hcall : .creation .register (registerHandler today) ∈
      (registrations today : List (Registration (beside O) (Scene W))) := List.mem_cons_self
  have hfind := find_command (S.mem_accepted hcall) List.mem_cons_self
  obtain ⟨rfl, hrun⟩ := Registry.dispatchCommand_creation hfind h
  exact ⟨rfl, registerHandler_eq_ok hrun⟩

/-- An amendment has found a driver, and emits one event or none. -/
theorem emitted_amendName {c : AmendDriverName} {found : Option Driver} {state : Driver}
    (h : ((S.registry today).dispatchCommand .amendName found c ctx).run s =
      (.ok (state, buffer), s')) :
    ∃ e, found = some state ∧ amendName state c = .ok e ∧
      buffer.events = e.toList.map nameAmendedEvent := by
  have hcall : .mutation .amendName amendNameHandler ∈
      (registrations today : List (Registration (beside O) (Scene W))) :=
    List.mem_cons_of_mem _ List.mem_cons_self
  have hfind := find_command (S.mem_accepted hcall) List.mem_cons_self
  obtain ⟨d, rfl, hrun⟩ := Registry.dispatchCommand_mutation hfind h
  obtain ⟨rfl, e, hrule, hevents⟩ := amendNameHandler_eq_ok hrun
  exact ⟨e, rfl, hrule, hevents⟩

/-- The handler of a command of another business is not one for drivers. -/
theorem not_mem_registrations_of_place {c : O.CommandType}
    {call : Registration (beside O) (Scene W)}
    (h : call.place? = some (.command (CommandType.other c))) : call ∉ registrations today := by
  intro hcall
  simp only [registrations, List.mem_cons, List.not_mem_nil, or_false] at hcall
  rcases hcall with rfl | rfl | rfl | rfl | rfl | rfl | rfl | rfl | rfl | rfl
  all_goals cases h

/-- A command of another business emits no event of drivers. -/
theorem emitted_other {c : O.CommandType} {found : Option (O.State (O.aggregateOf c))}
    {command : O.Command c} {state : O.State (O.aggregateOf c)}
    (h : ((S.registry today).dispatchCommand (.other c) found command ctx).run s =
      (.ok (state, buffer), s')) : ∀ e ∈ buffer.events, ∃ t, e.type = EventType.other t := by
  rcases Registry.dispatchCommand_cases h with ⟨f, hfind, -, hrun⟩ | ⟨f, d, hfind, -, hrun⟩
  · obtain ⟨values, hrun⟩ := Registry.callWith_eq_ok hrun
    rcases S.mem_or_mem_others (creation_mem_accepted (Tagged.mem_of_find? hfind)) with hcall | hcall
    · exact absurd hcall (not_mem_registrations_of_place rfl)
    · exact (S.foreign today _ hcall).silent values command s state buffer s' hrun
  · obtain ⟨values, hrun⟩ := Registry.callWith_eq_ok hrun
    rcases S.mem_or_mem_others (mutation_mem_accepted (Tagged.mem_of_find? hfind)) with hcall | hcall
    · exact absurd hcall (not_mem_registrations_of_place rfl)
    · exact (S.foreign today _ hcall).silent values d command s state buffer s' hrun

end

/-! ### Events -/

/-- The domain event handlers for drivers stand among those of others. -/
theorem select_domainHandlers (today : Date) (e : (beside O).EventType) : ∃ earlier later,
    (∀ h ∈ earlier ++ later, .domainEvent e h ∈ S.others today) ∧
      Tagged.select e (S.registry today).domainHandlers =
        earlier ++ Tagged.select e projections ++ later := by
  obtain ⟨earlier, later, hothers, haccepted⟩ := S.exists_accepted today
  refine ⟨Tagged.select e (earlier.flatMap domainHandlers),
    Tagged.select e (later.flatMap domainHandlers), fun h hh => ?_, ?_⟩
  · rw [← Tagged.select_append, ← List.flatMap_append] at hh
    obtain ⟨call, hcall, hmem⟩ := List.mem_flatMap.1 (Tagged.mem_select.1 hh)
    rw [← eq_of_mem_domainHandlers hmem]
    exact hothers call hcall
  · rw [registry, (holds_build _ _).domainHandlers, haccepted, List.flatMap_append,
      List.flatMap_append, Tagged.select_append, Tagged.select_append]
    rfl

/-- What an event makes of the read model. -/
def project (m : ReadModel) (e : AnyEvent (beside O)) : ReadModel :=
  match e with
  | ⟨.registered, event⟩ =>
    let event : DriverRegistered := event
    m.map fun t => t.insert event.view
  | ⟨.nameAmended, event⟩ =>
    let event : DriverNameAmended := event
    m.map fun t => ReadModel.amended t event.driverId event.name
  | ⟨.other _, _⟩ => m

/-- The read model is changed by the events of drivers only. -/
theorem projects_registry : (S.registry today).Projects project := by
  intro e ctx info s s' db hu h
  obtain ⟨earlier, later, hothers, hselect⟩ := S.select_domainHandlers today e.type
  rw [Registry.dispatchDomain, hselect, Registry.callAll_append, Registry.callAll_append] at h
  obtain ⟨_, s₂, h, hlater⟩ := Task.bind_eq_ok.1 h
  obtain ⟨_, s₁, hearlier, hown⟩ := Task.bind_eq_ok.1 h
  have hu₁ := unit_of_callAll
    (fun f hf => S.foreign today _ (hothers f (List.mem_append_left _ hf))) hu hearlier
  have hown : ∃ db', s₂.store.unit = some ⟨ctx, db'⟩ ∧ db'.readModel = project db.readModel e := by
    rcases e with ⟨_ | _ | t, e⟩
    · obtain ⟨_, s₃, hcall, hnil⟩ := Task.bind_eq_ok.1 hown
      cases hnil
      obtain ⟨db₁, t, hu₂, ht, -, rfl⟩ := projectRegistered_eq_ok.1 hcall
      rw [hu₁] at hu₂
      cases hu₂
      refine ⟨_, rfl, ?_⟩
      show _ = db.readModel.map _
      rw [ht]
      rfl
    · obtain ⟨_, s₃, hcall, hnil⟩ := Task.bind_eq_ok.1 hown
      cases hnil
      obtain ⟨db₁, t, hu₂, ht, -, rfl⟩ := projectNameAmended_eq_ok.1 hcall
      rw [hu₁] at hu₂
      cases hu₂
      refine ⟨_, rfl, ?_⟩
      show _ = db.readModel.map _
      rw [ht]
      rfl
    · cases hown
      exact ⟨db, hu₁, rfl⟩
  obtain ⟨db', hu₂, hmodel⟩ := hown
  exact ⟨db', unit_of_callAll
    (fun f hf => S.foreign today _ (hothers f (List.mem_append_right _ hf))) hu₂ hlater, hmodel⟩

theorem dispatchState_registered (d : Driver) (e : DriverRegistered) :
    (S.registry today).dispatchState .driver d (registeredEvent e) = .ok (onRegistered d e) := by
  have hcall : .state registeredState ∈
      (registrations today : List (Registration (beside O) (Scene W))) := by
    simp [registrations]
  exact dispatchState_build (S.mem_accepted hcall) d e

theorem dispatchState_nameAmended (d : Driver) (e : DriverNameAmended) :
    (S.registry today).dispatchState .driver d (nameAmendedEvent e) = .ok (onNameAmended d e) := by
  have hcall : .state nameAmendedState ∈
      (registrations today : List (Registration (beside O) (Scene W))) := by
    simp [registrations]
  exact dispatchState_build (S.mem_accepted hcall) d e

/-! ### Queries -/

/-- The query for a driver shows the view of its id. -/
theorem run_query {s : Scene W} {t : Table DriverView}
    (ht : s.store.committed.readModel = some t) (id : Uuid) :
    (Gateway.query (D := beside O) (S.registry today) byIdKey .uuid .view id).run s =
      (.ok (ReadModel.view? t id), s) := by
  have hcall : .query byIdKey byId ∈
      (registrations today : List (Registration (beside O) (Scene W))) := by
    simp [registrations]
  have hget : (S.registry today).queries.get? byIdKey = some byId :=
    queries_build (S.mem_accepted hcall)
  have hread : (Session.read (ReadModel.find id) : Work (Scene W) (Option DriverView)).run s =
      (.ok (ReadModel.view? t id), s) := by
    rw [Session.read, Work.run_get_bind, ReadModel.find_eq_ok ht]
    rfl
  have hquery := Registry.dispatchQuery_eq hget id (.forQuery (S.registry today).dependencies)
  refine (congrArg (·.run s) hquery).trans ?_
  exact Work.asTask_eq_ok.2 hread

end Setting

end Driver

end Chronicle
