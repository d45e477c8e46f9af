/-
Chronicle/Proofs/Driver/Projection.lean

What the handlers of drivers make of the read model, and when they succeed.

`ReadModel.view? t id` is the view of an id.  An insertion and an amendment change it
for their id and for no other.  The insertion succeeds when there is no view of the id,
and the amendment when there is exactly one.
-/
import Chronicle.Proofs.Driver.Confined
import Chronicle.Proofs.Gateway.Replay

namespace Chronicle

variable {D : Domain} {R W σ α : Type}

open Session

/-! ### Calls of handlers -/

/-- Work succeeds if its first part does and then the rest. -/
theorem Work.bind_eq_ok {β : Type} {w : Work σ α} {f : α → Work σ β} {s s'' : σ} {b : β} :
    (w >>= f).run s = (.ok b, s'') ↔
      ∃ a s', w.run s = (.ok a, s') ∧ (f a).run s' = (.ok b, s'') := by
  show (match w.run s with
    | (answer, s') => ExceptT.bindCont f answer s') = _ ↔ _
  rcases w.run s with ⟨text | a, s'⟩
  · constructor
    · intro h
      cases h
    · rintro ⟨_, _, ⟨⟩, -⟩
  · constructor
    · exact fun h => ⟨a, s', rfl, h⟩
    · rintro ⟨_, _, ⟨⟩, h⟩
      exact h

theorem Work.asTask_eq_ok {w : Work σ α} {a : α} {s s' : σ} :
    w.asTask.run s = (.ok a, s') ↔ w.run s = (.ok a, s') := by
  rw [run_asTask]
  rcases w.run s with ⟨text | b, s''⟩
  · constructor
    · intro h
      cases h
    · intro h
      cases h
  · constructor
    · intro h
      cases h
      rfl
    · intro h
      cases h
      rfl

/-- A handler that asks for the execution context is given that of the command. -/
theorem EventHandler.call_eq_ok {e : D.EventType} {d : Dependencies D} {ctx : ExecutionContext}
    {info : EventInfo} {event : D.Event e} {s s' : σ}
    {run : Inputs [SideInput.execution] → D.Event e → Work σ Unit} :
    ((⟨[.execution], run⟩ : EventHandler D σ e).call (.forDomainEvent d ctx info) event).run s =
        (.ok (), s') ↔ (run (ctx, ()) event).run s = (.ok (), s') :=
  Work.asTask_eq_ok

/-- The session with another storage pending in the unit of work of a context. -/
def Session.withPending (s : Session R W) (ctx : ExecutionContext) (db : Database R) :
    Session R W :=
  { s with store := { s.store with unit := some ⟨ctx, db⟩ } }

/-- A statement of a handler changes what is pending. -/
theorem Session.write_eq_ok {ctx : ExecutionContext} {a : α} {s s' : Session R W}
    {f : Database R → Except StorageFault (α × Database R)} :
    (write ctx f).run s = (.ok a, s') ↔ ∃ db db', s.store.unit = some ⟨ctx, db⟩ ∧
      f db = .ok (a, db') ∧ s' = s.withPending ctx db' := by
  rw [write, Work.run_get_bind]
  simp only [← Store.pending?_eq_some]
  rcases s.store.pending? ctx with _ | db
  · constructor
    · intro h
      cases h
    · rintro ⟨_, _, ⟨⟩, -⟩
  · dsimp only
    rcases hf : f db with fault | ⟨b, db'⟩
    · constructor
      · intro h
        cases h
      · rintro ⟨_, _, ⟨⟩, hok, -⟩
        rw [hf] at hok
        cases hok
    · constructor
      · intro h
        cases h
        exact ⟨db, db', rfl, hf, rfl⟩
      · rintro ⟨_, _, ⟨⟩, hok, rfl⟩
        rw [hf] at hok
        cases hok
        rfl

namespace Driver

variable {O : Domain}

/-! ### The table -/

namespace ReadModel

/-- The view of an id. -/
def view? (t : Table DriverView) (id : Uuid) : Option DriverView :=
  (t.find? fun v => v.driverId == id).map (·.2)

variable {t : Table DriverView} {id : Uuid} {view : DriverView}

theorem driverId_of_view? (h : view? t id = some view) : view.driverId = id := by
  obtain ⟨r, hr, rfl⟩ := Option.map_eq_some_iff.1 h
  simpa using List.find?_some hr

theorem view?_eq_none : view? t id = none ↔ ∀ v ∈ t.rows, v.2.driverId ≠ id := by
  simp [view?, Table.find?]

/-- An insertion adds the view of its id. -/
theorem view?_insert (hnew : view? t view.driverId = none) (id : Uuid) :
    view? (t.insert view) id = if id = view.driverId then some view else view? t id := by
  split
  · rename_i hid
    subst hid
    have hrows : t.rows.find? (fun v => v.2.driverId == view.driverId) = none := by
      simpa using view?_eq_none.1 hnew
    simp [view?, Table.find?, List.find?_append, hrows]
  · rename_i hid
    simp [view?, Table.find?, List.find?_append, Ne.symm hid]

/-- The table after the views of an id were amended. -/
def amended (t : Table DriverView) (id : Uuid) (name : String) : Table DriverView :=
  t.update (fun _ v => v.driverId == id) fun v => { v with name }

/-- An amendment changes the name in the view of its id. -/
theorem view?_amended (t : Table DriverView) (id : Uuid) (name : String) (id' : Uuid) :
    view? (amended t id name) id' =
      if id' = id then (view? t id').map fun v => { v with name } else view? t id' := by
  -- to be a view of an id does not depend on the name
  have hids : ((fun v : Int × DriverView => v.2.driverId == id') ∘ fun v =>
      if v.2.driverId == id then (v.1, { v.2 with name }) else v) =
        fun v => v.2.driverId == id' := by
    funext v
    dsimp only [Function.comp]
    split <;> rfl
  simp only [view?, amended, Table.find?, Table.update, List.find?_map, hids, Option.map_map]
  rcases hfind : t.rows.find? fun v => v.2.driverId == id' with _ | v
  · simp [hfind]
  · have hid : v.2.driverId = id' := by simpa using List.find?_some hfind
    simp only [hfind, Option.map_some, Function.comp, hid, beq_iff_eq]
    split
    · rfl
    · rfl

/-- The ids of the views. -/
def ids (t : Table DriverView) : List Uuid := t.rows.map fun v => v.2.driverId

theorem ids_insert (t : Table DriverView) (view : DriverView) :
    ids (t.insert view) = ids t ++ [view.driverId] := by
  rw [ids, Table.rows_insert, List.map_append]
  rfl

theorem ids_amended (t : Table DriverView) (id : Uuid) (name : String) :
    ids (amended t id name) = ids t := by
  simp only [ids, amended, Table.update, List.map_map]
  apply List.map_congr_left
  intro v _
  dsimp only [Function.comp]
  split <;> rfl

theorem mem_ids : id ∈ ids t ↔ ∃ view, view? t id = some view := by
  rw [← Option.isSome_iff_exists]
  simp [ids, view?, Table.find?]

/-- When no id has two views, an id has one view or none. -/
theorem count_eq_one (hids : (ids t).Nodup) (hview : view? t id = some view) :
    t.count (fun _ v => v.driverId == id) = 1 := by
  have hcount : t.count (fun _ v => v.driverId == id) = (ids t).count id := by
    rw [ids, List.count, List.countP_map]
    rfl
  rw [hcount]
  exact List.count_eq_one_of_mem hids (mem_ids.2 ⟨view, hview⟩)

/-! ### Statements -/

theorem insert_eq_ok {db db' : Database ReadModel} {u : Unit} :
    insert view db = .ok (u, db') ↔ ∃ t, db.readModel = some t ∧
      view? t view.driverId = none ∧ db' = { db with readModel := some (t.insert view) } := by
  rcases h : db.readModel with _ | t
  · simp [insert, table, h, bind, Except.bind]
  · simp only [insert, table, h, bind, Except.bind]
    rcases hfind : t.find? fun v => v.driverId == view.driverId with _ | v
    · simp [view?, hfind, pure, Except.pure, eq_comm]
    · simp [view?, hfind]

theorem amend_eq_ok {db db' : Database ReadModel} {name : String} {changed : Nat} :
    amend id name db = .ok (changed, db') ↔ ∃ t, db.readModel = some t ∧
      changed = t.count (fun _ v => v.driverId == id) ∧
      db' = { db with readModel := some (amended t id name) } := by
  rcases h : db.readModel with _ | t
  · simp [amend, table, h, bind, Except.bind]
  · simp [amend, table, h, bind, Except.bind, pure, Except.pure, amended, eq_comm]

theorem find_eq_ok {db : Database ReadModel} (ht : db.readModel = some t) (id : Uuid) :
    find id db = .ok (view? t id) := by
  simp only [find, table, ht]
  rfl

end ReadModel

/-! ### Commands -/

theorem ofRule_eq_ok {answer : Except Fault α} {a : α} {s s' : Scene W} :
    (ofRule answer : Work (Scene W) α).run s = (.ok a, s') ↔ answer = .ok a ∧ s' = s := by
  rcases answer with fault | b
  · constructor
    · intro h
      cases h
    · rintro ⟨⟨⟩, -⟩
  · constructor
    · intro h
      cases h
      exact ⟨rfl, rfl⟩
    · rintro ⟨⟨⟩, rfl⟩
      rfl

/-- A registration is of the id of its command. -/
theorem driverId_of_register {today : Date} {c : RegisterDriver} {e : DriverRegistered}
    (h : register today c = .ok e) : e.driverId = c.id := by
  simp only [register, bind, Except.bind] at h
  split at h
  · cases h
  · split at h
    · cases h
    · cases h
      rfl

theorem driverId_of_amendName {d : Driver} {c : AmendDriverName} {e : DriverNameAmended}
    (h : amendName d c = .ok (some e)) : e.driverId = c.id := by
  simp only [amendName, bind, Except.bind] at h
  split at h
  · cases h
  · split at h
    · cases h
    · cases h
      rfl

/-- A registration emits one event, for a driver that nothing is known about. -/
theorem registerHandler_eq_ok {today : Date} {c : RegisterDriver}
    {ctx : HandlerContext (beside O)} {state : Driver} {buffer : EventBuffer (beside O)}
    {s s' : Scene W}
    (h : ((registerHandler today).call ctx c).run s = (.ok (state, buffer), s')) :
    state = Driver.blank ∧ ∃ e, register today c = .ok e ∧ buffer.events = [registeredEvent e] := by
  obtain ⟨_, h⟩ := Registry.callWith_eq_ok h
  obtain ⟨e, _, hrule, h⟩ := Work.bind_eq_ok.1 h
  cases h
  exact ⟨rfl, e, (ofRule_eq_ok.1 hrule).1, rfl⟩

/-- An amendment emits one event or none, and leaves the driver to it. -/
theorem amendNameHandler_eq_ok {d : Driver} {c : AmendDriverName}
    {ctx : HandlerContext (beside O)} {state : Driver} {buffer : EventBuffer (beside O)}
    {s s' : Scene W}
    (h : (amendNameHandler.call ctx d c).run s = (.ok (state, buffer), s')) :
    state = d ∧ ∃ e, amendName d c = .ok e ∧ buffer.events = e.toList.map nameAmendedEvent := by
  obtain ⟨_, h⟩ := Registry.callWith_eq_ok h
  obtain ⟨e, _, hrule, h⟩ := Work.bind_eq_ok.1 h
  cases h
  exact ⟨rfl, e, (ofRule_eq_ok.1 hrule).1, rfl⟩

/-! ### Projections -/

/-- The view that a registration adds. -/
def DriverRegistered.view (e : DriverRegistered) : DriverView := ⟨e.driverId, e.name, e.dateOfBirth⟩

@[simp] theorem DriverRegistered.driverId_view (e : DriverRegistered) :
    e.view.driverId = e.driverId := rfl

section

variable {d : Dependencies (beside O)} {ctx : ExecutionContext} {info : EventInfo}
  {s s' : Scene W}

/-- A registration is projected if the read model has no view of its id. -/
theorem projectRegistered_eq_ok {e : DriverRegistered} :
    ((projectRegistered : EventHandler (beside O) (Scene W) .registered).call
        (.forDomainEvent d ctx info) e).run s = (.ok (), s') ↔
      ∃ db t, s.store.unit = some ⟨ctx, db⟩ ∧ db.readModel = some t ∧
        ReadModel.view? t e.driverId = none ∧
        s' = s.withPending ctx { db with readModel := some (t.insert e.view) } := by
  refine EventHandler.call_eq_ok.trans ?_
  show (write ctx (ReadModel.insert e.view)).run s = _ ↔ _
  rw [write_eq_ok]
  simp only [ReadModel.insert_eq_ok]
  constructor
  · rintro ⟨db, _, hu, ⟨t, ht, hnew, rfl⟩, rfl⟩
    exact ⟨db, t, hu, ht, hnew, rfl⟩
  · rintro ⟨db, t, hu, ht, hnew, rfl⟩
    exact ⟨db, _, hu, ⟨t, ht, hnew, rfl⟩, rfl⟩

/-- An amendment is projected if the read model has exactly one view of its id. -/
theorem projectNameAmended_eq_ok {e : DriverNameAmended} :
    ((projectNameAmended : EventHandler (beside O) (Scene W) .nameAmended).call
        (.forDomainEvent d ctx info) e).run s = (.ok (), s') ↔
      ∃ db t, s.store.unit = some ⟨ctx, db⟩ ∧ db.readModel = some t ∧
        t.count (fun _ v => v.driverId == e.driverId) = 1 ∧
        s' = s.withPending ctx
          { db with readModel := some (ReadModel.amended t e.driverId e.name) } := by
  refine EventHandler.call_eq_ok.trans ?_
  show (write ctx (ReadModel.amend e.driverId e.name) >>= _).run s = _ ↔ _
  rw [Work.bind_eq_ok]
  simp only [write_eq_ok, ReadModel.amend_eq_ok]
  constructor
  · rintro ⟨changed, _, ⟨db, _, hu, ⟨t, ht, rfl, rfl⟩, rfl⟩, h⟩
    split at h
    · cases h
    · rename_i hone
      cases h
      exact ⟨db, t, hu, ht, Decidable.not_not.1 hone, rfl⟩
  · rintro ⟨db, t, hu, ht, hone, rfl⟩
    refine ⟨1, _, ⟨db, _, hu, ⟨t, ht, hone.symm, rfl⟩, rfl⟩, ?_⟩
    rfl

end

end Driver

end Chronicle
