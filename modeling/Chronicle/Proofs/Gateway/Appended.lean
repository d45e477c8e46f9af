/-
Chronicle/Proofs/Gateway/Appended.lean

What a command appends to the log.

Handlers may do what they like, as long as they keep the log (`Session.KeepsLog`):
write other tables, and even end the unit of work and begin another.  Then the log
only goes on, whether commands fail or not (`Gateway.goesOn_after`), and what a
command that succeeds has added to it are the rows of the events that its handler
emitted, in order (`Gateway.Appends`).

Main result: `Gateway.send_appends`, for a whole command.
-/
import Chronicle.Proofs.Gateway.Outcome
import Chronicle.Proofs.Store.Log
import Mathlib.Data.List.Forall2

namespace Chronicle

variable {D : Domain} {R W : Type}

open Session

namespace Session

/-- No event is written or taken back: the log of the store is kept. -/
def KeepsLog (s s' : Session R W) : Prop := s.store.KeepsLog s'.store

/-- The log of the store goes on. -/
def GoesOn (P : EventRow → Prop) (s s' : Session R W) : Prop := s.store.GoesOn P s'.store

theorem KeepsLog.refl (s : Session R W) : s.KeepsLog s := ⟨rfl, .inl rfl⟩

theorem KeepsLog.trans {s s' s'' : Session R W} (h : s.KeepsLog s') (h' : s'.KeepsLog s'') :
    s.KeepsLog s'' where
  seen := h'.seen.trans h.seen
  committed := by
    rcases h'.committed with hsame | hseen
    · rw [hsame]
      exact h.committed
    · exact .inr (hseen.trans h.seen)

/-- A statement of a handler keeps the log if its function does. -/
theorem write_keepsLog (ctx : ExecutionContext) {α : Type}
    {f : Database R → Except StorageFault (α × Database R)}
    (hf : ∀ ⦃db a db'⦄, f db = .ok (a, db') → db'.log = db.log) :
    (write ctx f : Work (Session R W) α).Respects KeepsLog := by
  intro s
  rw [write, Work.run_get_bind]
  split
  · exact .refl s
  · rename_i db hpending
    split
    · exact .refl s
    · rename_i a db' hok
      refine ⟨?_, .inl rfl⟩
      rw [Store.log_of_unit (Store.pending?_eq_some.1 hpending)]
      exact hf hok

end Session

/-- Handlers that write no events. -/
def Registry.KeepsLog (r : Registry D (Session R W)) : Prop :=
  r.Respects Session.KeepsLog Session.KeepsLog

namespace Gateway

/-! ### Loading -/

/-- The aggregate is loaded and nothing is changed. -/
theorem loadOrFresh_eq_ok {ctx : ExecutionContext} {a : D.AggregateType} {id : Uuid}
    {snapshot : Snapshot D a} {s s' : Session R W}
    (h : (loadOrFresh ctx a id).run s = (.ok snapshot, s')) :
    s' = s ∧ ∃ db, s.store.unit = some ⟨ctx, db⟩ ∧ Loaded db a id snapshot := by
  rcases hrun : (onStore (Store.load ctx a id) : Task (Session R W) (Snapshot D a)).run s with
    ⟨answer, s₁⟩
  have hload := run_of_onStore hrun
  have hs₁ := eq_of_onStore hrun
  simp only [loadOrFresh, Task.run_mk, bind_apply, hrun] at h
  split at h
  · obtain ⟨hsnapshot, rfl⟩ := Prod.mk.inj h
    obtain ⟨hstore, db, hu, hnone⟩ := Store.load_eq_notFound hload
    rw [hstore] at hs₁
    rw [← Except.ok.inj hsnapshot]
    exact ⟨hs₁, db, hu, .fresh hnone⟩
  · obtain ⟨rfl, rfl⟩ := Prod.mk.inj h
    obtain ⟨hstore, db, hu, hloaded⟩ := Store.load_eq_ok hload
    rw [hstore] at hs₁
    exact ⟨hs₁, db, hu, hloaded⟩

/-! ### Events one by one -/

section

variable {r : Registry D (Session R W)} {ctx : ExecutionContext} {metadata : Metadata}
  {globalId : Int} {a : D.AggregateType}

/-- An event is applied to the state, passed to its handlers, and appended. -/
theorem applyEvent_cases {state state' : D.State a} {e : AnyEvent D} {sequence : Int}
    {s s' : Session R W}
    (h : (applyEvent r ctx metadata globalId state e).run s = (.ok (state', sequence), s')) :
    r.dispatchState a state e = .ok state' ∧ ∃ s₁,
      (r.dispatchDomain e (.forDomainEvent r.dependencies ctx
        ⟨e.typeName, globalId, none, metadata⟩)).run s = (.ok (), s₁) ∧
      (Store.append ctx globalId e metadata).run s₁.store = (.ok sequence, s'.store) := by
  obtain ⟨state₁, s₁, hstate, h⟩ := Task.bind_eq_ok.1 h
  rw [Task.run_ofExcept] at hstate
  obtain ⟨hok, rfl⟩ := Prod.mk.inj hstate
  obtain ⟨_, s₂, hdomain, h⟩ := Task.bind_eq_ok.1 h
  obtain ⟨sequence₁, s₃, happend, h⟩ := Task.bind_eq_ok.1 h
  cases h
  exact ⟨hok, s₂, hdomain, run_of_onStore happend⟩

/-- Suppose that every event adds its row to the log, as long as an invariant holds,
which it keeps.  Then a list of events adds the rows of all, in the same order. -/
theorem applyEvents_cases {I : Session R W → Prop}
    (hstep : ∀ (state state' : D.State a) (e : AnyEvent D) (sequence : Int) (s s' : Session R W),
      I s → (applyEvent r ctx metadata globalId state e).run s = (.ok (state', sequence), s') →
        I s' ∧ ∃ row, Store.eventRow globalId metadata e = .ok row ∧
          sequence = s.store.log.next ∧ s'.store.log = s.store.log.insert row)
    {events : List (AnyEvent D)} {state state' : D.State a} {appended : List (String × Int)}
    {s s' : Session R W} (hs : I s)
    (h : (applyEvents r ctx metadata globalId state events).run s = (.ok (state', appended), s')) :
    events.foldlM (r.dispatchState a) state = .ok state' ∧ I s' ∧ ∃ rows,
      List.Forall₂ (fun e row => Store.eventRow globalId metadata e = .ok row) events rows ∧
      appended = (events.map AnyEvent.typeName).zip
        ((Table.numbered s.store.log.issued rows).map Prod.fst) ∧
      s'.store.log = s.store.log.insertAll rows := by
  induction events generalizing state appended s with
  | nil =>
    cases h
    exact ⟨rfl, hs, [], .nil, rfl, (Table.insertAll_nil _).symm⟩
  | cons e es ih =>
    obtain ⟨⟨state₁, sequence⟩, s₁, hfirst, h⟩ := Task.bind_eq_ok.1 h
    obtain ⟨⟨state₂, rest⟩, s₂, hrest, h⟩ := Task.bind_eq_ok.1 h
    cases h
    obtain ⟨hs₁, row, hrow, rfl, hlog₁⟩ := hstep _ _ _ _ _ _ hs hfirst
    obtain ⟨hfold, hs', rows, hrows, rfl, hlog⟩ := ih hs₁ hrest
    refine ⟨?_, hs', row :: rows, .cons hrow hrows, ?_, ?_⟩
    · rw [List.foldlM_cons, (applyEvent_cases hfirst).1]
      exact hfold
    · rw [hlog₁]
      rfl
    · rw [hlog, hlog₁, Table.insertAll_cons]

/-- Handlers that keep the log leave it to the append to add a row. -/
theorem applyEvent_appends (hr : r.KeepsLog) {state state' : D.State a} {e : AnyEvent D}
    {sequence : Int} {s s' : Session R W}
    (h : (applyEvent r ctx metadata globalId state e).run s = (.ok (state', sequence), s')) :
    ∃ row, Store.eventRow globalId metadata e = .ok row ∧ sequence = s.store.log.next ∧
      s'.store.log = s.store.log.insert row := by
  obtain ⟨-, s₁, hdomain, happend⟩ := applyEvent_cases h
  have hkeeps : s.KeepsLog s₁ := (hr.dispatchDomain .refl .trans e _).run hdomain
  -- the handlers have left the log as it was before the event
  obtain ⟨row, hrow, hsequence, hlog, -⟩ := Store.append_log happend
  rw [hkeeps.seen] at hsequence hlog
  exact ⟨row, hrow, hsequence, hlog⟩

end

/-! ### Commands that succeed -/

/-- A row for the aggregate is no event. -/
theorem ensureRow_log {ctx : ExecutionContext} {a : D.AggregateType} {snapshot : Snapshot D a}
    {globalId : Int} {s s' : Session R W}
    (h : (ensureRow ctx snapshot).run s = (.ok globalId, s')) :
    s'.store.log = s.store.log := by
  unfold ensureRow at h
  split at h
  · cases h
    rfl
  · exact (Store.save_log (run_of_onStore h)).1

/-- The rows that events add to a log, and what the receipt says of them. -/
structure Appends (metadata : Metadata) (events : List (AnyEvent D)) (t t' : Table EventRow)
    (receipt : Receipt) (globalId : Int) (rows : List EventRow) : Prop where
  stored : List.Forall₂ (fun e row => Store.eventRow globalId metadata e = .ok row) events rows
  log : t' = t.insertAll rows
  number : events ≠ [] → receipt.globalId = some globalId
  answer : receipt.events =
    (events.map AnyEvent.typeName).zip ((Table.numbered t.issued rows).map Prod.fst)

/-- The entry of an event in the receipt names its row. -/
theorem entries_of_stored {metadata : Metadata} {globalId : Int} {events : List (AnyEvent D)}
    {rows : List EventRow}
    (h : List.Forall₂ (fun e row => Store.eventRow globalId metadata e = .ok row) events rows)
    (issued : Int) :
    List.Forall₂ (fun e entry => entry.1 = e.typeName ∧ ∃ row,
        Store.eventRow globalId metadata e = .ok row ∧ (entry.2, row) ∈ Table.numbered issued rows)
      events ((events.map AnyEvent.typeName).zip ((Table.numbered issued rows).map Prod.fst)) := by
  induction h generalizing issued with
  | nil => exact .nil
  | @cons e row events rows hrow _ ih =>
    refine .cons ⟨rfl, row, hrow, List.mem_cons_self⟩ ((ih (issued + 1)).imp ?_)
    rintro e' entry ⟨hname, row', hrow', hmem⟩
    exact ⟨hname, row', hrow', List.mem_cons_of_mem _ hmem⟩

/-- The receipt has an entry for every event, which names its row in the log. -/
theorem Appends.entries {metadata : Metadata} {events : List (AnyEvent D)} {t t' : Table EventRow}
    {receipt : Receipt} {globalId : Int} {rows : List EventRow}
    (h : Appends metadata events t t' receipt globalId rows) :
    List.Forall₂ (fun e entry => entry.1 = e.typeName ∧ receipt.globalId = some globalId ∧
        ∃ row, Store.eventRow globalId metadata e = .ok row ∧ (entry.2, row) ∈ t'.rows)
      events receipt.events := by
  rw [h.answer]
  have hentries := entries_of_stored h.stored t.issued
  rcases events with _ | ⟨e, es⟩
  · exact .nil
  · refine hentries.imp ?_
    rintro e' entry ⟨hname, row, hrow, hmem⟩
    refine ⟨hname, h.number (List.cons_ne_nil _ _), row, hrow, ?_⟩
    rw [h.log]
    exact List.mem_append_right _ hmem

section

variable {r : Registry D (Session R W)} (hr : r.KeepsLog) {ctx : ExecutionContext}
  {metadata : Metadata}

include hr

theorem store_appends {a : D.AggregateType} {snapshot : Snapshot D a} {state : D.State a}
    {events : List (AnyEvent D)} {receipt : Receipt} {s s' : Session R W}
    (h : (store r ctx metadata snapshot state events).run s = (.ok receipt, s')) :
    ∃ globalId rows,
      Appends metadata events s.store.log s'.store.log receipt globalId rows := by
  obtain ⟨globalId, s₁, hrow, h⟩ := Task.bind_eq_ok.1 h
  obtain ⟨⟨final, appended⟩, s₂, hevents, h⟩ := Task.bind_eq_ok.1 h
  obtain ⟨_, s₃, hsave, h⟩ := Task.bind_eq_ok.1 h
  cases h
  have hlog₁ := ensureRow_log hrow
  obtain ⟨-, -, rows, hrows, hnames, hlog₂⟩ := applyEvents_cases (I := fun _ => True)
    (fun _ _ _ _ _ _ _ h => ⟨trivial, applyEvent_appends hr h⟩) trivial hevents
  have hlog₃ := (Store.save_log (run_of_onStore hsave)).1
  rw [hlog₁] at hnames hlog₂
  exact ⟨globalId, rows, hrows, hlog₃.trans hlog₂, fun _ => rfl, hnames⟩

/-- Work that succeeds has appended the events that the handler emitted. -/
theorem process_appends {id : Uuid} {c : D.CommandType} {command : D.Command c}
    {receipt : Receipt} {s s' : Session R W}
    (h : (process r ctx metadata id c command).run s = (.ok receipt, s')) :
    ∃ db snapshot state buffer s₁ globalId rows, s.store.unit = some ⟨ctx, db⟩ ∧
      Loaded db (D.aggregateOf c) id snapshot ∧
      (r.dispatchCommand c snapshot.state command (.forCommand r.dependencies ctx)).run s =
        (.ok (state, buffer), s₁) ∧
      Appends metadata buffer.events s.store.log s'.store.log receipt globalId rows := by
  obtain ⟨snapshot, s₀, hload, hrest⟩ := Task.bind_eq_ok.1 h
  obtain ⟨⟨state, buffer⟩, s₁, hcommand, hstored⟩ := Task.bind_eq_ok.1 hrest
  obtain ⟨rfl, db, hu, hloaded⟩ := loadOrFresh_eq_ok hload
  have hkeeps : s₀.KeepsLog s₁ :=
    (hr.dispatchCommand .refl .trans c snapshot.state command _).run hcommand
  dsimp only at hstored
  split at hstored
  · rename_i hempty
    cases hstored
    have hnil : buffer.events = [] := List.isEmpty_iff.1 hempty
    refine ⟨db, snapshot, state, buffer, _, 0, [], hu, hloaded, hcommand, ?_, ?_, ?_, ?_⟩
    · rw [hnil]
      exact .nil
    · rw [Table.insertAll_nil]
      exact hkeeps.seen
    · exact fun hne => absurd hnil hne
    · rw [hnil]
      rfl
  · obtain ⟨globalId, rows, happends⟩ := store_appends hr hstored
    rw [hkeeps.seen] at happends
    exact ⟨db, snapshot, state, buffer, s₁, globalId, rows, hu, hloaded, hcommand, happends⟩

/-- A command that succeeds has appended the events that its handler emitted, and
nothing else. -/
theorem send_appends {c : D.CommandType} {command : D.Command c} {seconds : Float}
    {receipt : Receipt} {s : Session R W}
    (h : ((send r ctx metadata c command seconds).run s).1 = .ok receipt) :
    let s' := ((send r ctx metadata c command seconds).run s).2
    ∃ id snapshot state buffer s₁ globalId rows, D.target command = some id ∧
      Loaded s.store.committed (D.aggregateOf c) id snapshot ∧
      (r.dispatchCommand c snapshot.state command (.forCommand r.dependencies ctx)).run
        (begun s id ctx) = (.ok (state, buffer), s₁) ∧
      Appends metadata buffer.events s.store.committed.log s'.store.committed.log receipt globalId
        rows := by
  rcases send_cases r ctx metadata c command seconds s with ⟨e, hanswer, -⟩ | ⟨id, htarget, hwhole⟩
  · rw [h] at hanswer
    cases hanswer
  · obtain ⟨hanswer, hstore⟩ := hwhole
    rw [h] at hanswer
    obtain ⟨s₁, db', hprocess, hu', hcommitted⟩ := unitOfWork_eq_ok (Prod.ext hanswer.symm rfl)
    obtain ⟨db, snapshot, state, buffer, s₂, globalId, rows, hu, hloaded, hcommand, happends⟩ :=
      process_appends hr hprocess
    -- the unit of work began with what was committed, and what it left is committed now
    cases hu
    rw [Store.log_of_unit hu'] at happends
    refine ⟨id, snapshot, state, buffer, s₂, globalId, rows, htarget, hloaded, hcommand, ?_⟩
    rw [hstore, hcommitted]
    exact happends

end

/-! ### Commands of any outcome -/

/-- The statements of a command append rows with its metadata. -/
theorem allows_goesOn (ctx : ExecutionContext) (metadata : Metadata) :
    Allows D ctx metadata
      (Session.GoesOn (R := R) (W := W) fun row => row.metadata = metadata.text) where
  refl s := .refl s.store
  trans h h' := Store.GoesOn.trans h h'
  load a id s := by
    rw [run_onStore, Store.run_load]
    exact .refl s.store
  save snapshot s := by
    rcases hsave : (Store.save ctx snapshot).run s.store with ⟨answer, store⟩
    obtain ⟨hlog, hcommitted⟩ := Store.save_log hsave
    rw [run_onStore, hsave]
    exact Store.KeepsLog.goesOn ⟨hlog, .inl (congrArg Database.log hcommitted)⟩
  append globalId e s := Store.append_goesOn rfl

section

variable {r : Registry D (Session R W)} (hr : r.KeepsLog)

include hr

theorem process_goesOn (ctx : ExecutionContext) (metadata : Metadata) (id : Uuid)
    (c : D.CommandType) (command : D.Command c) :
    (process r ctx metadata id c command).Respects
      (Session.GoesOn fun row => row.metadata = metadata.text) := by
  have hkeeps {s s' : Session R W} (h : s.KeepsLog s') :
      s.GoesOn (fun row => row.metadata = metadata.text) s' := Store.KeepsLog.goesOn h
  refine (allows_goesOn ctx metadata).process ⟨?_, ?_, ?_⟩ id c command
  · exact fun c h hh values command s => hkeeps (hr.creation c h hh values command s)
  · exact fun c h hh values state command s => hkeeps (hr.mutation c h hh values state command s)
  · exact fun e h hh values event s => hkeeps (hr.domainEvent e h hh values event s)

/-- Whatever becomes of a command, the committed log only goes on. -/
theorem goesOn_send (ctx : ExecutionContext) (metadata : Metadata) (c : D.CommandType)
    (command : D.Command c) (seconds : Float) (s : Session R W) :
    s.store.committed.log.GoesOn (fun row => row.metadata = metadata.text)
      ((send r ctx metadata c command seconds).run s).2.store.committed.log := by
  rcases send_cases r ctx metadata c command seconds s with ⟨e, -, hstore⟩ | ⟨id, -, -, hstore⟩
  · rw [hstore]
    exact .refl _
  · rw [hstore]
    have hprocess := process_goesOn hr ctx metadata id c command ((entered s id).opened ctx)
    rcases hwhole : (unitOfWork ctx (process r ctx metadata id c command)).run (entered s id) with
      ⟨e | receipt, s'⟩
    · rcases unitOfWork_eq_error hwhole with rfl | hcommitted
      · exact .refl _
      · -- nothing was committed, or what was seen on the way
        show Table.GoesOn _ _ s'.store.committed.log
        rw [hcommitted]
        rcases hprocess.committed with hsame | hseen
        · rw [hsame]
          exact .refl _
        · exact hseen
    · obtain ⟨s₁, db, hrun, hu, hs'⟩ := unitOfWork_eq_ok hwhole
      have hseen := hprocess.seen
      rw [hrun, Store.log_of_unit hu] at hseen
      show Table.GoesOn _ _ s'.store.committed.log
      rw [hs']
      exact hseen

end

end Gateway

end Chronicle
