/-
Chronicle/Proofs/Driver/Agreement.lean

The read model of drivers agrees with their snapshots.

`Driver.Agrees` relates the views to the snapshots: an id has a view exactly if it has
the row of a driver, and the view shows what is stored there.  So a registration, which
has found no driver, can add a view (`Driver.Ready`), and does so together with the row;
an amendment finds the view by the id that both have.

Main result: `read_model_agrees`, for any sequence of commands on any days.
-/
import Chronicle.Bench.Vocabulary
import Chronicle.Proofs.Driver.Codec
import Chronicle.Proofs.Driver.Setting

namespace Chronicle.Driver

variable {O : Domain} {W : Type}

open Session Database Gateway Registration

/-! ### Views and rows -/

/-- The driver that a view shows. -/
def DriverView.driver (v : DriverView) : Driver := ⟨v.driverId, v.name, some v.dateOfBirth⟩

/-- What is shown for what is stored under an id. -/
inductive Shows : Option (Int × AggregateRow) → Option DriverView → Prop
  | nothing : Shows none none
  | other {g : Int} {row : AggregateRow} : row.typeName ≠ "Driver" → Shows (some (g, row)) none
  | driver {g : Int} {row : AggregateRow} {view : DriverView} : row.typeName = "Driver" →
      codec.serialize "Driver" view.driver = .ok row.state → Shows (some (g, row)) (some view)

namespace Shows

variable {g : Int} {row : AggregateRow} {view : Option DriverView}

theorem eq_none (h : Shows none view) : view = none := by
  cases h
  rfl

theorem eq_none_of_other (h : Shows (some (g, row)) view) (hname : row.typeName ≠ "Driver") :
    view = none := by
  cases h with
  | other => rfl
  | driver hdriver => exact absurd hdriver hname

theorem eq_some (h : Shows (some (g, row)) view) (hname : row.typeName = "Driver") :
    ∃ v, view = some v ∧ codec.serialize "Driver" v.driver = .ok row.state := by
  cases h with
  | other hother => exact absurd hname hother
  | driver _ htext => exact ⟨_, rfl, htext⟩

/-- A view is of the row of a driver. -/
theorem exists_row {found : Option (Int × AggregateRow)} {v : DriverView}
    (h : Shows found (some v)) : ∃ g row, found = some (g, row) ∧ row.typeName = "Driver" ∧
      codec.serialize "Driver" v.driver = .ok row.state := by
  cases h with
  | driver hname htext => exact ⟨_, _, rfl, hname, htext⟩

end Shows

/-- The views of a database, of which no id has two, show what is stored. -/
structure Agrees (db : Database ReadModel) (t : Table DriverView) : Prop where
  sound : db.Sound
  present : db.readModel = some t
  ids : (ReadModel.ids t).Nodup
  shows : ∀ id, ∃ found, db.findAggregate id = .ok found ∧ Shows found (ReadModel.view? t id)

namespace Agrees

variable {db db' : Database ReadModel} {t t' : Table DriverView} {id : Uuid}

theorem shows_of_findAggregate (h : Agrees db t) {found : Option (Int × AggregateRow)}
    (hfind : db.findAggregate id = .ok found) : Shows found (ReadModel.view? t id) := by
  obtain ⟨found', hfind', hshows⟩ := h.shows id
  rw [hfind] at hfind'
  cases hfind'
  exact hshows

/-- The driver that a command finds is the one in the view. -/
theorem state_of_loaded (h : Agrees db t) {snapshot : Snapshot (beside O) .driver}
    (hloaded : Loaded (D := beside O) db .driver id snapshot) :
    snapshot.state = (ReadModel.view? t id).map DriverView.driver := by
  cases hloaded with
  | fresh hfind =>
    rw [(h.shows_of_findAggregate hfind).eq_none]
    rfl
  | stored hfind hname hstate =>
    obtain ⟨view, hview, htext⟩ := (h.shows_of_findAggregate hfind).eq_some hname
    have hread := roundTrips_codec.deserialize_optional neverNull_codec htext
    rw [hname] at hstate
    cases hread.symm.trans hstate
    rw [hview]
    rfl

/-- A command of another business finds no driver. -/
theorem view_eq_none_of_loaded (h : Agrees db t) {a : O.AggregateType}
    (hname : O.aggregateName a ≠ "Driver") {snapshot : Snapshot (beside O) (.other a)}
    (hloaded : Loaded (D := beside O) db (.other a) id snapshot) : ReadModel.view? t id = none := by
  cases hloaded with
  | fresh hfind => exact (h.shows_of_findAggregate hfind).eq_none
  | stored hfind hname' =>
    refine (h.shows_of_findAggregate hfind).eq_none_of_other ?_
    rw [hname']
    exact hname

/-- A row and a view are changed together. -/
theorem change (h : Agrees db t) (hdb' : db'.Sound) (ht' : db'.readModel = some t')
    (hids : (ReadModel.ids t').Nodup) {found : Option (Int × AggregateRow)}
    (hfind : ∀ id', db'.findAggregate id' = if id' = id then .ok found else db.findAggregate id')
    (hview : Shows found (ReadModel.view? t' id))
    (hviews : ∀ id', id' ≠ id → ReadModel.view? t' id' = ReadModel.view? t id') : Agrees db' t' where
  sound := hdb'
  present := ht'
  ids := hids
  shows id' := by
    rw [hfind]
    split
    · rename_i hid
      subst hid
      exact ⟨found, rfl, hview⟩
    · rename_i hid
      rw [hviews id' hid]
      exact h.shows id'

/-- The event of a registration is stored and shown. -/
theorem insert (h : Agrees db t) (hdb' : db'.Sound) {e : DriverRegistered}
    (hnew : ReadModel.view? t e.driverId = none)
    (ht' : db'.readModel = some (t.insert e.view)) {g : Int} {row : AggregateRow}
    (hfind : ∀ id', db'.findAggregate id' =
      if id' = e.driverId then .ok (some (g, row)) else db.findAggregate id')
    (hname : row.typeName = "Driver")
    (htext : codec.serialize "Driver" (onRegistered blank e) = .ok row.state) :
    Agrees db' (t.insert e.view) := by
  refine h.change hdb' ht' ?_ hfind ?_ fun id' hid => ?_
  · rw [ReadModel.ids_insert, List.nodup_append]
    refine ⟨h.ids, List.nodup_singleton _, fun id' hid' id'' hid'' heq => ?_⟩
    rw [List.mem_singleton.1 hid''] at heq
    subst heq
    obtain ⟨view, hview⟩ := ReadModel.mem_ids.1 hid'
    rw [e.driverId_view, hnew] at hview
    cases hview
  · rw [ReadModel.view?_insert hnew, e.driverId_view, if_pos rfl]
    exact .driver hname htext
  · rw [ReadModel.view?_insert hnew, e.driverId_view, if_neg hid]

/-- The event of an amendment is stored and shown. -/
theorem amend (h : Agrees db t) (hdb' : db'.Sound) {e : DriverNameAmended} {view : DriverView}
    (hview : ReadModel.view? t e.driverId = some view)
    (ht' : db'.readModel = some (ReadModel.amended t e.driverId e.name)) {g : Int}
    {row : AggregateRow}
    (hfind : ∀ id', db'.findAggregate id' =
      if id' = e.driverId then .ok (some (g, row)) else db.findAggregate id')
    (hname : row.typeName = "Driver")
    (htext : codec.serialize "Driver" (onNameAmended view.driver e) = .ok row.state) :
    Agrees db' (ReadModel.amended t e.driverId e.name) := by
  refine h.change hdb' ht' ?_ hfind ?_ fun id' hid => ?_
  · rw [ReadModel.ids_amended]
    exact h.ids
  · rw [ReadModel.view?_amended, if_pos rfl, hview]
    exact .driver hname htext
  · rw [ReadModel.view?_amended, if_neg hid]

/-- Nothing is shown or stored for the first time. -/
theorem same (h : Agrees db t) (hdb' : db'.Sound) (ht' : db'.readModel = some t)
    (hfind : ∀ id', db'.findAggregate id' = db.findAggregate id') : Agrees db' t where
  sound := hdb'
  present := ht'
  ids := h.ids
  shows id' := by
    rw [hfind]
    exact h.shows id'

/-- There are neither views nor rows at the start. -/
theorem start : Agrees (ReadModel.migrate (Database.blank (none : ReadModel)).migrate) Table.empty where
  sound := by
    have hempty : (Database.blank (none : ReadModel)).migrate.Reachable := .migrate (.blank none)
    exact hempty.sound.congr rfl rfl
  present := rfl
  ids := .nil
  shows _ := ⟨none, rfl, .nothing⟩

/-! ### Agreement for the rows -/

theorem shows_of_mem (h : Agrees db t) {row : Int × AggregateRow}
    (hrow : row ∈ db.snapshots.rows) :
    Shows (some row) (ReadModel.view? t row.2.identifier) :=
  h.shows_of_findAggregate (h.sound.findAggregate hrow)

/-- An id has a view if it has the row of a driver. -/
theorem isSome_view? (h : Agrees db t) (id : Uuid) : (ReadModel.view? t id).isSome ↔
    ∃ row ∈ db.snapshots.rows, row.2.identifier = id ∧ row.2.typeName = "Driver" := by
  constructor
  · intro hsome
    obtain ⟨view, hview⟩ := Option.isSome_iff_exists.1 hsome
    obtain ⟨found, hfind, hshows⟩ := h.shows id
    rw [hview] at hshows
    obtain ⟨g, row, rfl, hname, -⟩ := hshows.exists_row
    obtain ⟨hrow, hid⟩ := h.sound.findAggregate_eq_some.1 hfind
    exact ⟨(g, row), hrow, hid, hname⟩
  · rintro ⟨row, hrow, rfl, hname⟩
    obtain ⟨view, hview, -⟩ := (h.shows_of_mem hrow).eq_some hname
    rw [hview]
    rfl

/-- What is stored for an id is read as the driver in the view. -/
theorem deserialize_state (h : Agrees db t) {view : DriverView}
    (hview : ReadModel.view? t id = some view) {row : Int × AggregateRow}
    (hrow : row ∈ db.snapshots.rows) (hid : row.2.identifier = id) :
    codec.deserialize "Driver" row.2.state = .ok view.driver := by
  have hshows := h.shows_of_mem hrow
  rw [hid, hview] at hshows
  obtain ⟨g, row', hrow', -, htext⟩ := hshows.exists_row
  cases hrow'
  exact roundTrips_codec.deserialize htext

end Agrees

/-! ### Events that are ready -/

/-- The projections of an event, if it has any, succeed on the views. -/
def Ready (t : Table DriverView) : AnyEvent (beside O) → Prop
  | ⟨.registered, e⟩ =>
    let e : DriverRegistered := e
    ReadModel.view? t e.driverId = none
  | ⟨.nameAmended, e⟩ =>
    let e : DriverNameAmended := e
    ∃ view, ReadModel.view? t e.driverId = some view
  | ⟨.other _, _⟩ => True

theorem Ready.call {t : Table DriverView} (hids : (ReadModel.ids t).Nodup)
    {e : AnyEvent (beside O)} (h : Ready t e) {today : Date}
    {f : EventHandler (beside O) (Scene W) e.type}
    (hf : .domainEvent e.type f ∈ (registrations today : List (Registration (beside O) (Scene W))))
    {d : Dependencies (beside O)} {ctx : ExecutionContext} {info : EventInfo} {s : Scene W}
    {db : Database ReadModel} (hu : s.store.unit = some ⟨ctx, db⟩) (ht : db.readModel = some t) :
    ∃ s', (f.call (.forDomainEvent d ctx info) e.event).run s = (.ok (), s') := by
  rcases e with ⟨type, e⟩
  rcases mem_projections hf with hf | hf
  · cases hf
    exact ⟨_, projectRegistered_eq_ok.2 ⟨db, t, hu, ht, h, rfl⟩⟩
  · cases hf
    obtain ⟨view, hview⟩ := h
    exact ⟨_, projectNameAmended_eq_ok.2
      ⟨db, t, hu, ht, ReadModel.count_eq_one hids hview, rfl⟩⟩

/-- Where an element of a list stands, beside one that is known. -/
theorem mem_or_eq_of_append_eq {α : Type} {l l' m m' : List α} {a b : α}
    (h : l ++ [a] ++ l' = m ++ b :: m') : b ∈ l ++ l' ∨ m = l ∧ b = a := by
  rw [List.append_assoc, List.singleton_append, List.append_eq_append_iff] at h
  rcases h with ⟨k, rfl, h⟩ | ⟨k, rfl, h⟩
  · rcases k with _ | ⟨c, k⟩
    · cases h
      exact .inr ⟨List.append_nil l, rfl⟩
    · cases h
      exact .inl (by simp)
  · rcases k with _ | ⟨c, k⟩
    · cases h
      exact .inr ⟨(List.append_nil m).symm, rfl⟩
    · cases h
      exact .inl (by simp)

/-! ### Commands -/

namespace Setting

variable (S : Setting O W) {today : Date}

section

variable {db : Database ReadModel} {t : Table DriverView} {snapshot : Snapshot (beside O) .driver}
  {ctx : HandlerContext (beside O)} {state : Driver} {buffer : EventBuffer (beside O)}
  {s s' : Scene W}

/-- A registration that succeeds is of an id without a view. -/
theorem new_of_register (h : Agrees db t) {command : RegisterDriver}
    (hloaded : Loaded (D := beside O) db .driver command.id snapshot)
    (hcommand : ((S.registry today).dispatchCommand .register snapshot.state command ctx).run s =
      (.ok (state, buffer), s')) :
    state = blank ∧ ∃ e, buffer.events = [registeredEvent e] ∧ e.driverId = command.id ∧
      ReadModel.view? t e.driverId = none := by
  obtain ⟨hnone, hblank, e, hrule, hevents⟩ := S.emitted_register hcommand
  have hid := driverId_of_register hrule
  rw [h.state_of_loaded hloaded, Option.map_eq_none_iff, ← hid] at hnone
  exact ⟨hblank, e, hevents, hid, hnone⟩

/-- An amendment that succeeds is of the driver in the view of its id. -/
theorem known_of_amendName (h : Agrees db t) {command : AmendDriverName}
    (hloaded : Loaded (D := beside O) db .driver command.id snapshot)
    (hcommand : ((S.registry today).dispatchCommand .amendName snapshot.state command ctx).run s =
      (.ok (state, buffer), s')) :
    buffer.events = [] ∨ ∃ view e, state = view.driver ∧ buffer.events = [nameAmendedEvent e] ∧
      e.driverId = command.id ∧ ReadModel.view? t e.driverId = some view := by
  obtain ⟨e, hfound, hrule, hevents⟩ := S.emitted_amendName hcommand
  obtain ⟨view, hview, rfl⟩ :=
    Option.map_eq_some_iff.1 ((h.state_of_loaded hloaded).symm.trans hfound)
  rcases e with _ | e
  · exact .inl hevents
  · have hid := driverId_of_amendName hrule
    rw [← hid] at hview
    exact .inr ⟨view, e, rfl, hevents, hid, hview⟩

end

/-- Events of others leave the read model. -/
theorem foldl_project {events : List (AnyEvent (beside O))}
    (h : ∀ e ∈ events, ∃ t, e.type = EventType.other t) (m : ReadModel) :
    events.foldl project m = m := by
  induction events with
  | nil => rfl
  | cons e es ih =>
    have he : project m e = m := by
      obtain ⟨t, ht⟩ := h e List.mem_cons_self
      rcases e with ⟨type, event⟩
      cases ht
      rfl
    rw [List.foldl_cons, he]
    exact ih fun e he => h e (List.mem_cons_of_mem _ he)

/-- A command leaves views that agree with what is stored then. -/
theorem agrees_send (x : Sending (beside O)) {s : Scene W} {t : Table DriverView}
    (h : Agrees s.store.committed t) :
    ∃ t', Agrees (Gateway.after (S.registry today) s [x]).store.committed t' := by
  show ∃ t', Agrees ((send (S.registry today) x.ctx x.metadata x.type x.command
    x.seconds).run s).2.store.committed t'
  rcases hsend : (send (S.registry today) x.ctx x.metadata x.type x.command x.seconds).run s with
    ⟨e | receipt, s'⟩
  · dsimp only
    rw [store_of_error S.confined_registry hsend]
    exact ⟨t, h⟩
  · obtain ⟨hs', id, snapshot, state, buffer, s₁, htarget, hloaded, hcommand, hmodel, hcase⟩ :=
      send_looks_up S.confined_registry S.projects_registry h.sound hsend
    rw [h.present] at hmodel
    rcases x with ⟨ctx, metadata, type, command, seconds⟩
    cases type with
    | register =>
      cases (htarget : some (RegisterDriver.id command) = some id)
      obtain ⟨rfl, e, hevents, hid, hnew⟩ := S.new_of_register h hloaded hcommand
      rw [hevents] at hmodel hcase
      rcases hcase with ⟨hnil, -⟩ | ⟨-, g, final, text, hfinal, htext, hfind⟩
      · cases hnil
      · have hstate : (S.registry today).dispatchState .driver blank (registeredEvent e) =
            .ok final := (bind_pure _).symm.trans hfinal
        cases (S.dispatchState_registered blank e).symm.trans hstate
        rw [← hid] at hfind
        exact ⟨_, h.insert hs' hnew hmodel hfind rfl htext⟩
    | amendName =>
      cases (htarget : some (AmendDriverName.id command) = some id)
      rcases S.known_of_amendName h hloaded hcommand with hnil | ⟨view, e, rfl, hevents, hid, hview⟩
      · rw [hnil] at hmodel hcase
        rcases hcase with ⟨-, hsame⟩ | ⟨hne, -⟩
        · exact ⟨t, h.same hs' hmodel hsame⟩
        · cases hne rfl
      · rw [hevents] at hmodel hcase
        rcases hcase with ⟨hnil, -⟩ | ⟨-, g, final, text, hfinal, htext, hfind⟩
        · cases hnil
        · have hstate : (S.registry today).dispatchState .driver view.driver
              (nameAmendedEvent e) = .ok final := (bind_pure _).symm.trans hfinal
          cases (S.dispatchState_nameAmended view.driver e).symm.trans hstate
          rw [← hid] at hfind
          exact ⟨_, h.amend hs' hview hmodel hfind rfl htext⟩
    | other c =>
      have hname := S.named (O.aggregateOf c)
      have hview := h.view_eq_none_of_loaded hname hloaded
      rw [foldl_project (S.emitted_other hcommand)] at hmodel
      rcases hcase with ⟨-, hsame⟩ | ⟨-, g, final, text, -, -, hfind⟩
      · exact ⟨t, h.same hs' hmodel hsame⟩
      · refine ⟨t, h.change hs' hmodel h.ids hfind ?_ fun _ _ => rfl⟩
        rw [hview]
        exact .other hname

/-- The session after commands were sent, each on its day. -/
def after (s : Scene W) (xs : List (Date × Sending (beside O))) : Scene W :=
  xs.foldl (fun s x => Gateway.after (S.registry x.1) s [x.2]) s

/-- So do any commands. -/
theorem agrees_after {s : Scene W} {t : Table DriverView} (h : Agrees s.store.committed t)
    (xs : List (Date × Sending (beside O))) :
    ∃ t', Agrees (S.after s xs).store.committed t' := by
  induction xs generalizing s t with
  | nil => exact ⟨t, h⟩
  | cons x xs ih =>
    obtain ⟨t₁, h₁⟩ := S.agrees_send x.2 h
    exact ih h₁

/-! ### Calls of projections -/

/-- A command emits an event that is ready, or none of drivers. -/
theorem emitted_ready {x : Sending (beside O)} {db : Database ReadModel} {t : Table DriverView}
    (h : Agrees db t) {id : Uuid} (htarget : (beside O).target x.command = some id)
    {snapshot : Snapshot (beside O) x.aggregate} (hloaded : Loaded db x.aggregate id snapshot)
    {ctx : HandlerContext (beside O)} {state : (beside O).State x.aggregate}
    {buffer : EventBuffer (beside O)} {s s' : Scene W}
    (hcommand : ((S.registry today).dispatchCommand x.type snapshot.state x.command ctx).run s =
      (.ok (state, buffer), s')) :
    (∀ e ∈ buffer.events, ∃ t, e.type = EventType.other t) ∨
      ∃ e, buffer.events = [e] ∧ Ready t e := by
  rcases x with ⟨ctx, metadata, type, command, seconds⟩
  cases type with
  | register =>
    cases (htarget : some (RegisterDriver.id command) = some id)
    obtain ⟨-, e, hevents, -, hnew⟩ := S.new_of_register h hloaded hcommand
    exact .inr ⟨_, hevents, hnew⟩
  | amendName =>
    cases (htarget : some (AmendDriverName.id command) = some id)
    rcases S.known_of_amendName h hloaded hcommand with hnil | ⟨view, e, -, hevents, -, hview⟩
    · rw [hnil]
      exact .inl fun _ he => absurd he List.not_mem_nil
    · exact .inr ⟨_, hevents, view, hview⟩
  | other c => exact .inl (S.emitted_other hcommand)

/-- The projections do not fail. -/
theorem run_call {x : Sending (beside O)} {s s₅ : Scene W} {t : Table DriverView}
    (h : Agrees s.store.committed t) {e : AnyEvent (beside O)}
    {f : EventHandler (beside O) (Scene W) e.type} {info : EventInfo}
    (hcalls : Calls (S.registry today) x s e f info s₅)
    (hf : .domainEvent e.type f ∈ (registrations today : List (Registration (beside O) (Scene W)))) :
    ∃ s₆, (f.call (.forDomainEvent (S.registry today).dependencies x.ctx info) e.event).run s₅ =
      (.ok (), s₆) := by
  cases hcalls with
  | @intro id snapshot state state' buffer globalId before later _ appended _ hs hs' s₁ s₂ s₃ s₄ _
      hunit htarget hload hcommand hevents hrow hbefore hstate hselect hearlier =>
    obtain ⟨rfl, db, hu, hloaded⟩ := loadOrFresh_eq_ok hload
    cases hu
    have hu₂ := unit_of_dispatchCommand S.confined_registry rfl hcommand
    obtain ⟨db₃, hu₃, hmodel⟩ := readModel_of_ensureRow hu₂ hrow
    have hmodel : db₃.readModel = some t := hmodel.trans h.present
    rcases S.emitted_ready h htarget hloaded hcommand with hothers | ⟨e', hsingle, hready⟩
    · obtain ⟨type, htype⟩ := hothers e (hevents ▸ List.mem_append_right _ List.mem_cons_self)
      rcases e with ⟨_, event⟩
      cases htype
      cases select_projections hf
    · -- the event is the only one
      rw [hsingle] at hevents
      obtain ⟨rfl, rfl, -⟩ : before = [] ∧ e' = e ∧ [] = later := by
        rcases before with _ | ⟨e'', before⟩
        · cases hevents
          exact ⟨rfl, rfl, rfl⟩
        · cases before <;> cases hevents
      cases hbefore
      obtain ⟨others, others', hothers, hselect'⟩ := S.select_domainHandlers today e'.type
      rw [select_projections hf, hselect] at hselect'
      have hforeign (g) (hg : g ∈ others ++ others') : Foreign (.domainEvent e'.type g) :=
        S.foreign today _ (hothers g hg)
      rcases mem_or_eq_of_append_eq hselect'.symm with hmem | ⟨rfl, -⟩
      · exact absurd hf ((hforeign f hmem).not_mem_registrations s)
      · have hu₅ := unit_of_callAll (fun g hg => hforeign g (List.mem_append_left _ hg)) hu₃ hearlier
        exact hready.call h.ids hf hu₅ hmodel

end Setting

/-- **Views agree with what is stored.**  Register the handlers of drivers among those of
other businesses, which leave the tables alone, emit no events of drivers and have other
types of aggregates.  The store knows a type by its name, so that a type is another one if
its name is; runs with commands for drivers alone do not depend on the names of others.
Start with the empty tables of the engine and of the read model, and send any commands on
any days.

Then the query for a driver succeeds for every id.  It shows a view exactly if a driver
is stored under the id, and this view has the id, the name and the date of birth that
are stored.  And on the way of any further command no projection fails. -/
theorem read_model_agrees (S : Setting O W) (world : W) (xs : List (Date × Sending (beside O))) :
    let start := Session.start (ReadModel.migrate (Database.blank none).migrate) world
    let s := S.after start xs
    (∀ today id, ∃ found,
      (Gateway.query (D := beside O) (S.registry today) byIdKey .uuid .view id).run s =
        (.ok found, s) ∧
      (found.isSome ↔ ∃ row ∈ s.store.committed.snapshots.rows,
        row.2.identifier = id ∧ row.2.typeName = "Driver") ∧
      ∀ view : DriverView, found = some view →
        view.driverId = id ∧
        ∀ row ∈ s.store.committed.snapshots.rows, row.2.identifier = id →
          codec.deserialize "Driver" row.2.state =
            .ok ⟨id, view.name, some view.dateOfBirth⟩) ∧
    ∀ today x e f info s₁, Calls (S.registry today) x s e f info s₁ →
      .domainEvent e.type f ∈ registrations today →
      ∃ s₂, (f.call (.forDomainEvent S.dependencies x.ctx info) e.event).run s₁ = (.ok (), s₂) := by
  intro start s
  obtain ⟨t, h⟩ : ∃ t, Agrees s.store.committed t := S.agrees_after .start xs
  refine ⟨fun today id => ?_, fun today x e f info s₁ hcalls hf => ?_⟩
  · refine ⟨ReadModel.view? t id, S.run_query h.present id, h.isSome_view? id,
      fun view hview => ⟨ReadModel.driverId_of_view? hview, fun row hrow hid => ?_⟩⟩
    rw [h.deserialize_state hview hrow hid, DriverView.driver, ReadModel.driverId_of_view? hview]
  · have hdependencies : (S.registry today).dependencies = S.dependencies :=
      (holds_build _ _).dependencies
    rw [← hdependencies]
    exact S.run_call h hcalls hf

/-! ### Drivers and counters -/

/-- Counters are opened, each with an event. -/
def counterCalls : List (Registration Bench.domain (Scene Unit)) :=
  [.creation (.other .opening)
    ⟨[], fun _ _ => pure (Bench.Counter.zero, ⟨[Bench.event .opened ()]⟩)⟩,
   .state ⟨.other .counter, .other .opened, fun c _ => c⟩]

theorem foreign_counterCalls : ∀ call ∈ counterCalls, Foreign (O := Bench.vocabulary) call := by
  intro call hcall
  simp only [counterCalls, List.mem_cons, List.not_mem_nil, or_false] at hcall
  rcases hcall with rfl | rfl
  · refine ⟨fun _ _ => Work.respects_pure (.refl Eq.refl) _, fun _ _ s state buffer s' h => ?_⟩
    cases h
    exact fun e he => ⟨.opened, List.mem_singleton.1 he ▸ rfl⟩
  · exact ⟨trivial, trivial⟩

/-- The calls for drivers get along on any day, which is known to the first handler. -/
theorem compatible_registrations (today : Date) : Compatible Dependencies.empty
    (registrations today : List (Registration Bench.domain (Scene Unit))) := by
  have hnewYear : Compatible Dependencies.empty
      (registrations newYear : List (Registration Bench.domain (Scene Unit))) :=
    succeed_iff.1 (eq_ok_of_all (by decide +kernel))
  exact hnewYear.replace_creation rfl

/-- Drivers among counters. -/
def amongCounters : Setting Bench.vocabulary Unit where
  dependencies := Dependencies.empty
  before _ := []
  behind _ := counterCalls
  named
    | .counter => by decide
    | .label => by decide
  foreign _ := foreign_counterCalls
  performed today := performAll_of_answers (succeed_iff.2 (compatible_registrations today))

/-- The registration of Ada. -/
def adaSending : Sending Bench.domain := ⟨⟨0⟩, Dictionary.empty, .register, registerAda, 0⟩

/-- Ada is shown after her registration, and after a counter could not be opened under her
id.  Her projection was called, and did not fail. -/
theorem ada_is_shown :
    let r := amongCounters.registry newYear
    let start := Session.start (ReadModel.migrate (Database.blank none).migrate) ()
    let counter : Sending Bench.domain :=
      ⟨⟨1⟩, Dictionary.empty, .other .opening, ⟨some Uuid.zero, []⟩, 0⟩
    let s := amongCounters.after start [(newYear, adaSending), (newYear, counter)]
    let view : DriverView := ⟨Uuid.zero, "Ada", newYear⟩
    let e : AnyEvent Bench.domain := registeredEvent ⟨Uuid.zero, "Ada", newYear⟩
    let f : EventHandler Bench.domain (Scene Unit) e.type := projectRegistered
    (Gateway.query (D := Bench.domain) r byIdKey .uuid .view Uuid.zero).run s =
        (.ok (some view), s) ∧
      (∃ row ∈ s.store.committed.snapshots.rows,
        row.2.identifier = Uuid.zero ∧ row.2.typeName = "Driver") ∧
      ∃ info s₁ s₂, Calls r adaSending start e f info s₁ ∧
        (f.call (.forDomainEvent Dependencies.empty ⟨0⟩ info) e.event).run s₁ = (.ok (), s₂) := by
  intro r start counter s view e f
  have hs : amongCounters.after (Session.start (ReadModel.migrate (Database.blank none).migrate) ())
      [(newYear, adaSending), (newYear, counter)] = s := rfl
  obtain ⟨hshown, -⟩ :=
    read_model_agrees amongCounters () [(newYear, adaSending), (newYear, counter)]
  rw [hs] at hshown
  obtain ⟨found, hquery, hstored, -⟩ := hshown newYear Uuid.zero
  have hanswer : Except.toOption (ε := Error) (α := Option DriverView)
      ((Gateway.query (D := Bench.domain) r byIdKey .uuid .view Uuid.zero).run s).1 =
        some (some view) := by
    decide +kernel
  rw [hquery] at hanswer
  cases hanswer
  have hstate : ∃ next, r.dispatchState AggregateType.driver blank e = .ok next := ⟨_, rfl⟩
  have hselect : Tagged.select e.type r.domainHandlers = [] ++ f :: [] := rfl
  obtain ⟨info, s₁, hcalls⟩ : ∃ info s₁, Calls r adaSending start e f info s₁ :=
    ⟨_, _, .intro rfl rfl rfl rfl (List.nil_append [e]).symm rfl rfl hstate hselect rfl⟩
  obtain ⟨-, hsucceeds⟩ := read_model_agrees amongCounters () []
  obtain ⟨s₂, hcall⟩ := hsucceeds newYear adaSending e f info s₁ hcalls
    (.tail _ (.tail _ (.tail _ (.tail _ (.head _)))))
  exact ⟨hquery, hstored.1 rfl, info, s₁, s₂, hcalls, hcall⟩

end Chronicle.Driver
