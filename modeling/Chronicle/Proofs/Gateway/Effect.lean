/-
Chronicle/Proofs/Gateway/Effect.lean

What a command that emits events leaves in the tables.

`Gateway.Effect` ties the tables before and after to the buffer of the handler:
the log goes on with one row for each event, and the snapshot of the aggregate
holds the state folded over the events.  `Gateway.store_effect` shows it of the
part of a command that stores events.

Main result: a command that succeeds has loaded the aggregate, its handler has
been called with the state loaded, and if it emitted events they had this effect
(`send_stores_events`).
-/
import Chronicle.Bench.Vocabulary
import Chronicle.Proofs.Driver.Confined
import Chronicle.Proofs.Gateway.Appended

namespace Chronicle

variable {D : Domain} {R W α : Type}

open Session Database

namespace Gateway

/-! ### Events one by one -/

section

variable {r : Registry D (Session R W)} {ρ : Database R → Database R → Prop}
  (hr : r.Confined ρ SameTables) {ctx : ExecutionContext} {metadata : Metadata} {globalId : Int}
  {a : D.AggregateType}

include hr

/-- An event adds its row to the log, and leaves the snapshots. -/
theorem applyEvent_eq_ok {state state' : D.State a} {e : AnyEvent D} {sequence : Int}
    {s s' : Session R W} {db : Database R} (hu : s.store.unit = some ⟨ctx, db⟩)
    (h : (applyEvent r ctx metadata globalId state e).run s = (.ok (state', sequence), s')) :
    ∃ row db', Store.eventRow globalId metadata e = .ok row ∧ sequence = db.log.next ∧
      s'.store.unit = some ⟨ctx, db'⟩ ∧ db'.snapshots = db.snapshots ∧
      db'.log = db.log.insert row := by
  obtain ⟨-, s₁, hdomain, happend⟩ := applyEvent_cases h
  -- the domain event handlers leave both tables, then the row is appended
  have hinside : s.Inside SameTables s₁ :=
    (r.dispatchDomain_inside hr SameTables.refl (fun _ _ _ => SameTables.trans) e _).run hdomain
  obtain ⟨db₁, hsame, hu₁⟩ := hinside.unit hu
  obtain ⟨row, db₂, db', hrow, hu₂, hinsert, hstore⟩ := Store.append_eq_ok happend
  rw [hu₁] at hu₂
  cases hu₂
  obtain ⟨hsequence, hlog, hsnapshots⟩ := log_insertEvent hinsert
  rw [hsame.log] at hsequence hlog
  exact ⟨row, db', hrow, hsequence, congrArg Store.unit hstore,
    hsnapshots.trans hsame.snapshots, hlog⟩

/-- Events change the state one after the other, and their rows go into the log
in the same order. -/
theorem applyEvents_eq_ok {events : List (AnyEvent D)} {state state' : D.State a}
    {appended : List (String × Int)} {s s' : Session R W} {db : Database R}
    (hu : s.store.unit = some ⟨ctx, db⟩)
    (h : (applyEvents r ctx metadata globalId state events).run s = (.ok (state', appended), s')) :
    events.foldlM (r.dispatchState a) state = .ok state' ∧
      ∃ rows db',
        List.Forall₂ (fun e row => Store.eventRow globalId metadata e = .ok row) events rows ∧
        appended = (events.map AnyEvent.typeName).zip
          ((Table.numbered db.log.issued rows).map Prod.fst) ∧
        s'.store.unit = some ⟨ctx, db'⟩ ∧ db'.snapshots = db.snapshots ∧
        db'.log = db.log.insertAll rows := by
  let I (s : Session R W) : Prop :=
    ∃ db', s.store.unit = some ⟨ctx, db'⟩ ∧ db'.snapshots = db.snapshots
  obtain ⟨hfold, ⟨db', hu', hsnapshots⟩, rows, hrows, hnames, hlog⟩ :=
    applyEvents_cases (I := I) (fun state state' e sequence s s' hs h => by
      obtain ⟨db₁, hu₁, hsnapshots₁⟩ := hs
      obtain ⟨row, db₂, hrow, hsequence, hu₂, hsnapshots₂, hlog⟩ := applyEvent_eq_ok hr hu₁ h
      rw [Store.log_of_unit hu₁, Store.log_of_unit hu₂]
      exact ⟨⟨db₂, hu₂, hsnapshots₂.trans hsnapshots₁⟩, row, hrow, hsequence, hlog⟩)
      ⟨db, hu, rfl⟩ h
  rw [Store.log_of_unit hu] at hnames hlog
  rw [Store.log_of_unit hu'] at hlog
  exact ⟨hfold, rows, db', hrows, hnames, hu', hsnapshots, hlog⟩

end

/-! ### The snapshot -/

/-- The row of the aggregate while its events are appended: the stored one, or an
empty one that was inserted for them. -/
theorem ensureRow_eq_ok {ctx : ExecutionContext} {a : D.AggregateType} {id : Uuid}
    {snapshot : Snapshot D a} {globalId : Int} {s s' : Session R W} {db : Database R}
    (hu : s.store.unit = some ⟨ctx, db⟩) (hdb : db.Sound) (hloaded : Loaded db a id snapshot)
    (h : (ensureRow ctx snapshot).run s = (.ok globalId, s')) :
    ∃ db', s'.store.unit = some ⟨ctx, db'⟩ ∧ db'.Sound ∧ db'.log = db.log ∧
      globalId = snapshot.globalId.getD db.snapshots.next ∧
      (∃ row, (globalId, row) ∈ db'.snapshots.rows ∧ row.identifier = id ∧
        row.typeName = D.aggregateName a ∧ row.sequence = snapshot.initialSequence) ∧
      (db'.snapshots.rows.filter fun r => r.1 ≠ globalId) =
        db.snapshots.rows.filter fun r => r.1 ≠ globalId := by
  unfold ensureRow at h
  split at h
  · -- the aggregate is stored, and nothing is done
    rename_i globalId' hid
    cases h
    obtain ⟨row, hrow, hrowId, hname, hsequence, -⟩ := hloaded.mem hid
    exact ⟨db, hu, hdb, rfl, by rw [hid]; rfl, ⟨row, hrow, hrowId, hname, hsequence⟩, rfl⟩
  · -- a fresh snapshot is saved without a state
    rename_i hid
    obtain ⟨text, db₁, db', -, hu₁, hstore, hsaved⟩ := Store.save_eq_ok (run_of_onStore h)
    rw [hu] at hu₁
    cases hu₁
    obtain ⟨rfl, -⟩ := hloaded.absent hid
    rcases hsaved with ⟨hid', -⟩ | ⟨-, hinsert⟩
    · cases hid'
    · have hsound := hdb.insertAggregate hinsert
      obtain ⟨t, ht, -, rfl, rfl⟩ := insertAggregate_eq_ok.1 hinsert
      have hsnapshots : db.snapshots = t := snapshots_of_some ht
      refine ⟨_, congrArg Store.unit hstore, hsound, rfl, ?_, ?_, ?_⟩
      · rw [hsnapshots]
        rfl
      · exact ⟨_, List.mem_append_right _ List.mem_cons_self, rfl, rfl, rfl⟩
      · rw [hsnapshots]
        show ((t.rows ++ [(t.next, _)]).filter fun r : Int × AggregateRow => r.1 ≠ t.next) = _
        rw [List.filter_append]
        simp

/-- What storing the events of a handler does to the tables.  The handler left
`state`, which the events make `final`; `text` is how that is stored, and `rows`
are the rows of the events. -/
structure Effect (r : Registry D (Session R W)) (metadata : Metadata) {a : D.AggregateType}
    (snapshot : Snapshot D a) (state : D.State a) (events : List (AnyEvent D))
    (db db' : Database R) (receipt : Receipt) (globalId : Int) (final : D.State a) (text : String)
    (rows : List EventRow) : Prop where
  /-- The number of the stored aggregate, or a new one. -/
  number : globalId = snapshot.globalId.getD db.snapshots.next
  stored : List.Forall₂ (fun e row => Store.eventRow globalId metadata e = .ok row) events rows
  log : db'.log = db.log.insertAll rows
  folded : events.foldlM (r.dispatchState a) state = .ok final
  serialized : (D.stateCodec a).serialize snapshot.typeName final = .ok text
  current : (globalId, ⟨snapshot.businessId, snapshot.typeName, receipt.sequence, text⟩) ∈
    db'.snapshots.rows
  /-- The snapshots of all other aggregates stay. -/
  others : (db'.snapshots.rows.filter fun r => r.1 ≠ globalId) =
    db.snapshots.rows.filter fun r => r.1 ≠ globalId
  answer : receipt = ⟨snapshot.businessId, some globalId,
    lastSequence snapshot.sequence receipt.events,
    (events.map AnyEvent.typeName).zip ((Table.numbered db.log.issued rows).map Prod.fst)⟩

/-- The part of a command that stores the events of its handler. -/
theorem store_effect {r : Registry D (Session R W)} {ρ : Database R → Database R → Prop}
    (hr : r.Confined ρ SameTables) {ctx : ExecutionContext} {metadata : Metadata}
    {a : D.AggregateType} {id : Uuid} {snapshot : Snapshot D a} {state : D.State a}
    {events : List (AnyEvent D)} {receipt : Receipt} {s s' : Session R W} {db : Database R}
    (hu : s.store.unit = some ⟨ctx, db⟩) (hdb : db.Sound) (hloaded : Loaded db a id snapshot)
    (h : (store r ctx metadata snapshot state events).run s = (.ok receipt, s')) :
    ∃ db' globalId final text rows, s'.store.unit = some ⟨ctx, db'⟩ ∧
      Effect r metadata snapshot state events db db' receipt globalId final text rows := by
  obtain ⟨globalId, s₁, hrow, h⟩ := Task.bind_eq_ok.1 h
  obtain ⟨⟨final, appended⟩, s₂, hevents, h⟩ := Task.bind_eq_ok.1 h
  obtain ⟨_, s₃, hsave, h⟩ := Task.bind_eq_ok.1 h
  cases h
  obtain ⟨db₁, hu₁, hdb₁, hlog₁, hnumber, ⟨row, hmem, hrowId, hname, hsequence⟩, hothers⟩ :=
    ensureRow_eq_ok hu hdb hloaded hrow
  obtain ⟨hfold, rows, db₂, hrows, hnames, hu₂, hsnapshots₂, hlog₂⟩ :=
    applyEvents_eq_ok hr hu₁ hevents
  obtain ⟨text, db₃, db', htext, hu₃, hstore, hsaved⟩ := Store.save_eq_ok (run_of_onStore hsave)
  rw [hu₂] at hu₃
  cases hu₃
  -- the last save finds the row there, so it is a swap
  rcases hsaved with ⟨hid, hswap⟩ | ⟨hnone, -⟩
  · cases hid
    obtain ⟨t, ht, -, rfl⟩ := swapAggregate_eq_ok.1 hswap
    have ht₁ : t = db₁.snapshots := by
      rw [← hsnapshots₂, snapshots_of_some ht]
    refine ⟨_, globalId, final, text, rows, congrArg Store.unit hstore, hnumber, hrows, ?_, hfold,
      htext, ?_, ?_, ?_⟩
    · rw [← hlog₁, ← hlog₂]
      rfl
    · have hsaved := mem_swapped hmem (lastSequence snapshot.sequence appended) text
      rw [hsequence, hrowId, hname, ← ht₁] at hsaved
      rw [hloaded.businessId, hloaded.typeName]
      exact hsaved
    · rw [← hothers, ← ht₁]
      exact filter_swapped _ _ _ _ _
    · rw [← hlog₁, ← hnames]
  · cases hnone

/-- An effect is about the tables of the engine only. -/
theorem Effect.congr {r : Registry D (Session R W)} {metadata : Metadata} {a : D.AggregateType}
    {snapshot : Snapshot D a} {state final : D.State a} {events : List (AnyEvent D)}
    {db₀ db db' : Database R} {receipt : Receipt} {globalId : Int} {text : String}
    {rows : List EventRow}
    (h : Effect r metadata snapshot state events db db' receipt globalId final text rows)
    (hdb : db₀.SameTables db) :
    Effect r metadata snapshot state events db₀ db' receipt globalId final text rows where
  number := hdb.snapshots ▸ h.number
  stored := h.stored
  log := hdb.log ▸ h.log
  folded := h.folded
  serialized := h.serialized
  current := h.current
  others := hdb.snapshots ▸ h.others
  answer := hdb.log ▸ h.answer

/-- Work that succeeds has loaded the aggregate and called its handler; and then
it has stored the events, if there are any. -/
theorem process_effect {r : Registry D (Session R W)} (hr : r.Confined SameTables SameTables)
    {ctx : ExecutionContext} {metadata : Metadata} {id : Uuid} {c : D.CommandType}
    {command : D.Command c} {receipt : Receipt} {s s' : Session R W} {db : Database R}
    (hu : s.store.unit = some ⟨ctx, db⟩) (hdb : db.Sound)
    (h : (process r ctx metadata id c command).run s = (.ok receipt, s')) :
    ∃ snapshot state buffer s₁ db', Loaded db (D.aggregateOf c) id snapshot ∧
      (r.dispatchCommand c snapshot.state command (.forCommand r.dependencies ctx)).run s =
        (.ok (state, buffer), s₁) ∧
      s'.store.unit = some ⟨ctx, db'⟩ ∧
      (buffer.events = [] ∧ receipt = ⟨id, snapshot.globalId, snapshot.sequence, []⟩ ∧
          db.SameTables db' ∨
        buffer.events ≠ [] ∧ ∃ globalId final text rows,
          Effect r metadata snapshot state buffer.events db db' receipt globalId final text
            rows) := by
  obtain ⟨snapshot, s₀, hload, hrest⟩ := Task.bind_eq_ok.1 h
  obtain ⟨⟨state, buffer⟩, s₁, hcommand, hstored⟩ := Task.bind_eq_ok.1 hrest
  obtain ⟨rfl, db₀, hu₀, hloaded⟩ := loadOrFresh_eq_ok hload
  rw [hu] at hu₀
  cases hu₀
  have hinside : s₀.Inside SameTables s₁ :=
    (r.dispatchCommand_inside hr SameTables.refl (fun _ _ _ => SameTables.trans) c snapshot.state
      command _).run hcommand
  obtain ⟨db₁, hsame, hu₁⟩ := hinside.unit hu
  dsimp only at hstored
  split at hstored
  · rename_i hempty
    cases hstored
    exact ⟨snapshot, state, buffer, _, db₁, hloaded, hcommand, hu₁,
      .inl ⟨List.isEmpty_iff.1 hempty, rfl, hsame⟩⟩
  · rename_i hsome
    have hdb₁ := hsame.sound hdb
    obtain ⟨db', globalId, final, text, rows, hu', heffect⟩ :=
      store_effect hr hu₁ hdb₁ (hloaded.congr hsame) hstored
    have hne : buffer.events ≠ [] := fun hnil => hsome (List.isEmpty_iff.2 hnil)
    exact ⟨snapshot, state, buffer, s₁, db', hloaded, hcommand, hu',
      .inr ⟨hne, globalId, final, text, rows, heffect.congr hsame⟩⟩

/-- What a whole command does to a sound database: nothing, or the work of its
handler is in the tables. -/
theorem send_effect {r : Registry D (Session R W)} (hr : r.Confined SameTables SameTables)
    {ctx : ExecutionContext} {metadata : Metadata} {c : D.CommandType} {command : D.Command c}
    {seconds : Float} {receipt : Receipt} {s s' : Session R W} (hs : s.store.committed.Sound)
    (h : (send r ctx metadata c command seconds).run s = (.ok receipt, s')) :
    s.store.unit = none ∧ s'.store.unit = none ∧ s'.store.committed.Sound ∧
      ∃ id snapshot state buffer s₁, D.target command = some id ∧
        Loaded s.store.committed (D.aggregateOf c) id snapshot ∧
        (r.dispatchCommand c snapshot.state command (.forCommand r.dependencies ctx)).run
          (begun s id ctx) = (.ok (state, buffer), s₁) ∧
        (buffer.events = [] ∧ receipt = ⟨id, snapshot.globalId, snapshot.sequence, []⟩ ∧
            s.store.committed.SameTables s'.store.committed ∨
          buffer.events ≠ [] ∧ ∃ globalId final text rows,
            Effect r metadata snapshot state buffer.events s.store.committed s'.store.committed
              receipt globalId final text rows) := by
  have hsound :
      r.Confined (fun db db' => db.Sound → db'.Sound) fun db db' => db.Sound → db'.Sound :=
    hr.mono (fun _ _ => SameTables.sound) fun _ _ => SameTables.sound
  have hend := send_ending admits_sound hsound ctx metadata c command seconds s
  rw [h] at hend
  generalize hstore : s'.store = store' at hend ⊢
  cases hend with
  | @committed id _ s₁ db hunit htarget hrun hs₁ hdb =>
    have hbegun : (begun s id ctx).store.unit = some ⟨ctx, s.store.committed⟩ := rfl
    obtain ⟨snapshot, state, buffer, s₂, db', hloaded, hcommand, hu', heffect⟩ :=
      process_effect hr hbegun hs hrun
    rw [hs₁] at hu'
    cases hu'
    exact ⟨hunit, rfl, hdb hs, id, snapshot, state, buffer, s₂, htarget, hloaded, hcommand, heffect⟩

/-- The sequence of the aggregate is that of its last event. -/
theorem Effect.last {r : Registry D (Session R W)} {metadata : Metadata} {a : D.AggregateType}
    {snapshot : Snapshot D a} {state final : D.State a} {events : List (AnyEvent D)}
    {db db' : Database R} {receipt : Receipt} {globalId : Int} {text : String}
    {rows : List EventRow} (hne : events ≠ [])
    (h : Effect r metadata snapshot state events db db' receipt globalId final text rows) :
    (Table.numbered db.log.issued rows).getLast?.map Prod.fst = some receipt.sequence := by
  -- the receipt lists as many numbers as there are rows
  have hlength := h.stored.length_eq
  have hzip : receipt.events.map Prod.snd = (Table.numbered db.log.issued rows).map Prod.fst := by
    rw [h.answer]
    apply List.map_snd_zip
    apply Nat.le_of_eq
    rw [List.length_map, List.length_map, Table.length_numbered, hlength]
  rw [← List.getLast?_map, ← hzip, List.getLast?_map]
  rcases hlast : receipt.events.getLast? with _ | last
  · rw [List.getLast?_eq_none_iff.1 hlast, List.map_nil] at hzip
    have hnil := List.map_eq_nil_iff.1 hzip.symm
    have hrows : rows = [] := by
      rw [← Table.map_snd_numbered db.log.issued rows, hnil]
      rfl
    rw [hrows, List.length_nil] at hlength
    exact absurd (List.length_eq_zero_iff.1 hlength) hne
  · have hsequence : receipt.sequence = lastSequence snapshot.sequence receipt.events :=
      congrArg Receipt.sequence h.answer
    rw [hsequence, lastSequence, hlast]
    rfl

/-- A single event has the one new row of the log, and its number is the new sequence. -/
theorem Effect.single {r : Registry D (Session R W)} {metadata : Metadata} {a : D.AggregateType}
    {snapshot : Snapshot D a} {state final : D.State a} {e : AnyEvent D} {db db' : Database R}
    {receipt : Receipt} {globalId : Int} {text : String} {rows : List EventRow}
    (h : Effect r metadata snapshot state [e] db db' receipt globalId final text rows) :
    r.dispatchState a state e = .ok final ∧
      (∃ payload, e.payload = .ok payload ∧
        rows = [⟨globalId, e.typeName, payload, metadata.text⟩]) ∧
      receipt = ⟨snapshot.businessId, some globalId, db.log.next,
        [(e.typeName, db.log.next)]⟩ := by
  have hfold : r.dispatchState a state e = .ok final := (bind_pure _).symm.trans h.folded
  have hstored := h.stored
  have hanswer := h.answer
  cases hstored with
  | cons hrow hrest =>
    cases hrest
    obtain ⟨payload, hpayload, rfl⟩ := Store.eventRow_eq_ok.1 hrow
    have hevents : receipt.events = [(e.typeName, db.log.next)] := congrArg Receipt.events hanswer
    refine ⟨hfold, ⟨payload, hpayload, rfl⟩, hanswer.trans ?_⟩
    rw [hevents]
    rfl

/-! ### The whole effect -/

/-- **What a command stores.**  Let the handlers of commands and domain events
write the read model at most.  When a command succeeds, its handler was called
with the state stored, and the events it emitted are all in the log, in their
order, behind all that was ever there.  The snapshot holds the state that they
make of the one the handler left, and the snapshots of all others are the same. -/
theorem send_stores_events (r : Registry D (Session R W)) (hr : r.Confined SameTables SameTables)
    (ctx : ExecutionContext) (metadata : Metadata) (c : D.CommandType) (command : D.Command c)
    (seconds : Float) {s s' : Session R W} (hs : s.store.committed.Reachable) {receipt : Receipt}
    (h : (send r ctx metadata c command seconds).run s = (.ok receipt, s')) :
    let db := s.store.committed
    let db' := s'.store.committed
    let a := D.aggregateOf c
    s'.store.unit = none ∧
    ∃ id snapshot state buffer s₁, D.target command = some id ∧ Loaded db a id snapshot ∧
      (r.dispatchCommand c snapshot.state command (.forCommand r.dependencies ctx)).run
        (begun s id ctx) = (.ok (state, buffer), s₁) ∧
      (buffer.events ≠ [] → ∃ globalId final text added,
        -- the log
        db'.log.rows = db.log.rows ++ added ∧
        List.Forall₂ (fun e row => Store.eventRow globalId metadata e = .ok row.2)
          buffer.events added ∧
        (added.Pairwise fun x y => x.1 < y.1) ∧
        (∀ x ∈ added, db.log.issued < x.1 ∧ ∀ y ∈ db.log.rows, y.1 < x.1) ∧
        -- the snapshot
        buffer.events.foldlM (r.dispatchState a) state = .ok final ∧
        (D.stateCodec a).serialize (D.aggregateName a) final = .ok text ∧
        db'.snapshots.get? globalId = some ⟨id, D.aggregateName a, receipt.sequence, text⟩ ∧
        added.getLast?.map Prod.fst = some receipt.sequence ∧
        (∀ g row, (g, row) ∈ db.snapshots.rows → row.identifier = id →
          g = globalId ∧ row.typeName = D.aggregateName a) ∧
        ((∀ x ∈ db.snapshots.rows, x.2.identifier ≠ id) → globalId = db.snapshots.next) ∧
        -- the snapshots of the others
        ((db'.snapshots.rows.filter fun x => x.1 ≠ globalId) =
          db.snapshots.rows.filter fun x => x.1 ≠ globalId) ∧
        -- the receipt
        receipt.businessId = id ∧ receipt.globalId = some globalId ∧
        receipt.events = (buffer.events.map AnyEvent.typeName).zip (added.map Prod.fst)) := by
  have hsound := hs.sound
  obtain ⟨-, hnone, hsound', id, snapshot, state, buffer, s₁, htarget, hloaded, hcommand, hcase⟩ :=
    send_effect hr hsound h
  refine ⟨hnone, id, snapshot, state, buffer, s₁, htarget, hloaded, hcommand, fun hne => ?_⟩
  rcases hcase with ⟨hnil, -⟩ | ⟨-, globalId, final, text, rows, heffect⟩
  · exact absurd hnil hne
  · refine ⟨globalId, final, text, Table.numbered s.store.committed.log.issued rows, ?_, ?_,
      Table.pairwise_numbered _ _, ?_, heffect.folded, ?_, ?_, heffect.last hne, ?_, ?_,
      heffect.others, ?_, ?_, ?_⟩
    · rw [heffect.log]
      rfl
    · have hstored := heffect.stored
      rw [← Table.map_snd_numbered s.store.committed.log.issued rows] at hstored
      exact (List.forall₂_map_right_iff
        (R := fun e row => Store.eventRow globalId metadata e = .ok row)).1 hstored
    · intro x hx
      have hlt := (Table.lt_of_mem_numbered hx).1
      exact ⟨hlt, fun y hy => Int.lt_of_le_of_lt (hsound.log.issued y hy) hlt⟩
    · rw [← hloaded.typeName]
      exact heffect.serialized
    · rw [hsound'.snapshots.get?_eq_some, ← hloaded.typeName, ← hloaded.businessId]
      exact heffect.current
    · -- a row of the id is the one that was loaded
      intro g row hrow hrowId
      have hid := hloaded.globalId_of_mem hsound hrow hrowId
      obtain ⟨row', hrow', -, hname, -⟩ := hloaded.mem hid
      rw [heffect.number, hid, hsound.snapshots.unique hrow hrow']
      exact ⟨rfl, hname⟩
    · intro hnew
      rw [heffect.number, hloaded.globalId_of_absent hnew]
      rfl
    · rw [heffect.answer]
      exact hloaded.businessId
    · rw [heffect.answer]
    · rw [heffect.answer]

/-- The registration of a driver is the one event in the log of an empty store. -/
theorem send_stores_registration :
    let r : Registry Bench.domain (Driver.Scene Unit) := Driver.registry Driver.newYear
    let result := (send r ⟨0⟩ Dictionary.empty .register Driver.registerAda 0).run
      (Driver.sessionOf [])
    result.1 = .ok ⟨Uuid.zero, some 1, 1, [("DriverRegistered", 1)]⟩ ∧
      ∃ globalId row, result.2.store.committed.log.rows = [row] ∧
        Store.eventRow globalId Dictionary.empty
          (Driver.registeredEvent ⟨Uuid.zero, "Ada", Driver.newYear⟩ : AnyEvent Bench.domain) =
            .ok row.2 := by
  intro r result
  have hr : r.Confined SameTables SameTables :=
    (Driver.confined_registry Driver.newYear).mono (fun _ _ h => h ▸ .refl _) fun _ _ h => h
  have hanswer : result.1 = .ok ⟨Uuid.zero, some 1, 1, [("DriverRegistered", 1)]⟩ := rfl
  have hreachable : (Driver.sessionOf []).store.committed.Reachable :=
    .readModel _ (.migrate (.blank none))
  obtain ⟨-, id, snapshot, state, buffer, s₁, htarget, hloaded, hcommand, heffect⟩ :=
    send_stores_events r hr ⟨0⟩ Dictionary.empty .register Driver.registerAda 0 hreachable
      (Prod.ext hanswer rfl : result = (.ok _, result.2))
  cases htarget
  cases hloaded with
  | stored hfind => cases hfind
  | fresh =>
    have hbuffer := congrArg Prod.fst hcommand
    cases hbuffer
    obtain ⟨globalId, final, text, added, hlog, hstored, -⟩ := heffect (List.cons_ne_nil _ _)
    cases hstored with
    | cons hrow hrest =>
      cases hrest
      exact ⟨hanswer, globalId, _, hlog, hrow⟩

end Gateway

end Chronicle
