/-
Chronicle/Proofs/Gateway/Consistency.lean

Snapshots and the log agree after every command.

Inside a command they do not: a new aggregate gets a row without a state, and its
events are behind the sequence of the row until the last save.  What a command
leaves in the end is a `Gateway.Effect`, or nothing at all, and both lead from one
`Database.Consistent` store to another (`consistent_send`).

Main result: `consistent_after`, for any sequence of commands sent to an empty
store.  It also says that numbers and names of aggregates stay as they are, and
that an aggregate is never moved back in the log (`Gateway.Advances`).
-/
import Chronicle.Proofs.Gateway.Atomicity
import Chronicle.Proofs.Gateway.Replay
import Chronicle.Proofs.Json.RoundTrip

namespace Chronicle

variable {D : Domain} {R W : Type}

open Session Database

/-! ### Numbered rows -/

/-- The last row has the greatest number. -/
theorem Table.le_last_of_mem_numbered {α : Type} {issued n : Int} {rows : List α}
    (h : (numbered issued rows).getLast?.map Prod.fst = some n) {r : Int × α}
    (hr : r ∈ numbered issued rows) : r.1 ≤ n := by
  obtain ⟨last, hlast, rfl⟩ := Option.map_eq_some_iff.1 h
  obtain ⟨before, hrows⟩ := List.getLast?_eq_some_iff.1 hlast
  have hincreasing := pairwise_numbered issued rows
  rw [hrows] at hr hincreasing
  rcases List.mem_append.1 hr with hr | hr
  · have hlt := (List.pairwise_append.1 hincreasing).2.2 r hr last (List.mem_singleton.2 rfl)
    exact Int.le_of_lt hlt
  · exact Int.le_of_eq (congrArg Prod.fst (List.mem_singleton.1 hr))

/-! ### Consistent databases -/

namespace Database

/-- The greatest number among the events of an aggregate, which has some. -/
structure LastEvent (db : Database R) (globalId n : Int) : Prop where
  stored : ∃ e, (n, e) ∈ db.log.rows ∧ e.aggregateGlobalId = globalId
  greatest : ∀ k e, (k, e) ∈ db.log.rows → e.aggregateGlobalId = globalId → k ≤ n

/-- A snapshot holds a state of one of the types, which has its name. -/
def HoldsState (types : D.AggregateType → Prop) (row : AggregateRow) : Prop :=
  row.state ≠ "null" ∧ ∃ a, types a ∧ D.aggregateName a = row.typeName ∧
    ∃ state, (D.stateCodec a).deserialize row.typeName row.state = .ok state

/-- A database between two commands, with aggregates of some types. -/
structure Consistent (types : D.AggregateType → Prop) (db : Database R) : Prop where
  sound : db.Sound
  issued : 0 ≤ db.log.issued
  last : ∀ g row, (g, row) ∈ db.snapshots.rows → db.LastEvent g row.sequence
  states : ∀ g row, (g, row) ∈ db.snapshots.rows → HoldsState types row

variable {types : D.AggregateType → Prop}

theorem consistent_migrate_blank (readModel : R) :
    Consistent types (blank readModel).migrate where
  sound := (Reachable.migrate (.blank readModel)).sound
  issued := Int.le_refl 0
  last _ _ h := absurd h List.not_mem_nil
  states _ _ h := absurd h List.not_mem_nil

/-- Consistency is about the tables of the engine only. -/
theorem Consistent.congr {db db' : Database R} (h : Consistent types db)
    (hdb : db.SameTables db') : Consistent types db' where
  sound := hdb.sound h.sound
  issued := by
    rw [hdb.log]
    exact h.issued
  last g row hrow := by
    rw [hdb.snapshots] at hrow
    refine ⟨?_, ?_⟩
    · rw [hdb.log]
      exact (h.last g row hrow).stored
    · rw [hdb.log]
      exact (h.last g row hrow).greatest
  states g row hrow := by
    rw [hdb.snapshots] at hrow
    exact h.states g row hrow

/-- No snapshot is ahead of the log. -/
theorem Consistent.sequence_le {db : Database R} (h : Consistent types db) {g : Int}
    {row : AggregateRow} (hrow : (g, row) ∈ db.snapshots.rows) : row.sequence ≤ db.log.issued := by
  obtain ⟨e, he, -⟩ := (h.last g row hrow).stored
  exact h.sound.log.issued _ he

end Database

namespace Gateway

/-! ### One command -/

namespace Effect

variable {r : Registry D (Session R W)} {metadata : Metadata} {a : D.AggregateType}
  {snapshot : Snapshot D a} {state final : D.State a} {events : List (AnyEvent D)}
  {db db' : Database R} {receipt : Receipt} {globalId : Int} {text : String}
  {rows : List EventRow}

/-- The snapshot of another aggregate was there before. -/
theorem mem_of_ne
    (h : Effect r metadata snapshot state events db db' receipt globalId final text rows)
    {g : Int} (hg : g ≠ globalId) {row : AggregateRow} :
    (g, row) ∈ db'.snapshots.rows ↔ (g, row) ∈ db.snapshots.rows := by
  have hmem (t : Table AggregateRow) :
      (g, row) ∈ t.rows ↔ (g, row) ∈ t.rows.filter fun r => r.1 ≠ globalId := by
    rw [List.mem_filter]
    exact ⟨fun hrow => ⟨hrow, decide_eq_true hg⟩, And.left⟩
  rw [hmem, hmem, h.others]

/-- The snapshot of the aggregate keeps its number, its identifier and its name. -/
theorem keeps {id : Uuid} (hdb : db.Sound) (hloaded : Loaded db a id snapshot)
    (h : Effect r metadata snapshot state events db db' receipt globalId final text rows) :
    db.Keeps db' := by
  intro g row hrow
  by_cases hg : g = globalId
  · subst hg
    refine ⟨_, h.current, ?_⟩
    rcases hnumber : snapshot.globalId with _ | g'
    · -- a new aggregate has a number that no row had
      have hnext := h.number
      rw [hnumber] at hnext
      have hlt := hdb.snapshots.lt_next hrow
      rw [hnext] at hlt
      exact absurd hlt (Int.lt_irrefl _)
    · obtain ⟨row', hrow', hid, hname, -⟩ := hloaded.mem hnumber
      have hg : g = g' := by
        rw [h.number, hnumber]
        rfl
      rw [hg] at hrow
      rw [hdb.snapshots.unique hrow hrow', hloaded.businessId, hloaded.typeName]
      exact ⟨hid.symm, hname.symm⟩
  · exact ⟨row, (h.mem_of_ne hg).2 hrow, rfl, rfl⟩

/-- The events of another aggregate were there before. -/
theorem lastEvent_of_ne {n g : Int}
    (h : Effect r metadata snapshot state events db db' receipt globalId final text rows)
    (hg : g ≠ globalId) (hlast : db.LastEvent g n) : db'.LastEvent g n where
  stored := by
    obtain ⟨e, he, heq⟩ := hlast.stored
    refine ⟨e, ?_, heq⟩
    rw [h.log]
    exact List.mem_append_left _ he
  greatest k e he heq := by
    rw [h.log] at he
    rcases List.mem_append.1 he with he | he
    · exact hlast.greatest k e he heq
    · -- the new events are all of the aggregate that was changed
      have hrow : e ∈ rows := by
        rw [← Table.map_snd_numbered db.log.issued rows]
        exact List.mem_map_of_mem he
      rw [aggregateGlobalId_of_stored h.stored e hrow] at heq
      exact absurd heq.symm hg

/-- The last event of the aggregate is the last one that was stored. -/
theorem lastEvent (hdb : db.Sound) (hne : events ≠ [])
    (h : Effect r metadata snapshot state events db db' receipt globalId final text rows) :
    db'.LastEvent globalId receipt.sequence where
  stored := by
    obtain ⟨⟨n, e⟩, hlast, hsequence⟩ := Option.map_eq_some_iff.1 (h.last hne)
    have hmem := List.mem_of_getLast? hlast
    have hrow : e ∈ rows := by
      rw [← Table.map_snd_numbered db.log.issued rows]
      exact List.mem_map_of_mem hmem
    refine ⟨e, ?_, aggregateGlobalId_of_stored h.stored e hrow⟩
    rw [h.log, ← hsequence]
    exact List.mem_append_right _ hmem
  greatest k e he _ := by
    obtain ⟨last, hlast, hn⟩ := Option.map_eq_some_iff.1 (h.last hne)
    have hlt := (Table.lt_of_mem_numbered (List.mem_of_getLast? hlast)).1
    rw [hn] at hlt
    rw [h.log] at he
    rcases List.mem_append.1 he with he | he
    · have hle := hdb.log.issued _ he
      exact Int.le_of_lt (Int.lt_of_le_of_lt hle hlt)
    · exact Table.le_last_of_mem_numbered (h.last hne) he

/-- What a command stores is consistent, if the state is written as it has to be. -/
theorem consistent {types : D.AggregateType → Prop} (htype : types a)
    (hcodec : (D.stateCodec a).RoundTrips ∧ (D.stateCodec a).NeverNull) {id : Uuid}
    (hloaded : Loaded db a id snapshot) (hne : events ≠ []) (hdb : Consistent types db)
    (hdb' : db'.Sound)
    (h : Effect r metadata snapshot state events db db' receipt globalId final text rows) :
    Consistent types db' where
  sound := hdb'
  issued := by
    rw [h.log]
    exact Int.le_trans hdb.issued (Int.le_add_of_nonneg_right (Int.natCast_nonneg _))
  last g row hrow := by
    by_cases hg : g = globalId
    · subst hg
      rw [hdb'.snapshots.unique hrow h.current]
      exact h.lastEvent hdb.sound hne
    · exact h.lastEvent_of_ne hg (hdb.last g row ((h.mem_of_ne hg).1 hrow))
  states g row hrow := by
    by_cases hg : g = globalId
    · subst hg
      rw [hdb'.snapshots.unique hrow h.current]
      refine ⟨hcodec.2.text_ne h.serialized, a, htype, hloaded.typeName.symm, final, ?_⟩
      exact hcodec.1.deserialize h.serialized
    · exact hdb.states g row ((h.mem_of_ne hg).1 hrow)

end Effect

section

variable {r : Registry D (Session R W)} (hr : r.Confined SameTables SameTables)

include hr

/-- After a command the numbers and names of aggregates are as before. -/
theorem keeps_send (x : Sending D) {s : Session R W} (hs : s.store.committed.Sound) :
    let s' := ((Gateway.send r x.ctx x.metadata x.type x.command x.seconds).run s).2
    s'.store.committed.Sound ∧ s.store.committed.Keeps s'.store.committed := by
  rcases hsend : (Gateway.send r x.ctx x.metadata x.type x.command x.seconds).run s with
    ⟨e | receipt, s'⟩
  · dsimp only
    rw [store_of_error hr hsend]
    exact ⟨hs, .refl _⟩
  · obtain ⟨-, -, hs', id, snapshot, state, buffer, s₁, -, hloaded, -, hcase⟩ :=
      send_effect hr hs hsend
    refine ⟨hs', ?_⟩
    rcases hcase with ⟨-, -, hsame⟩ | ⟨-, globalId, final, text, rows, heffect⟩
    · exact hsame.keeps
    · exact heffect.keeps hs hloaded

/-- A command leads from a consistent database to a consistent one. -/
theorem consistent_send {types : D.AggregateType → Prop}
    {x : Sending D} (htype : types x.aggregate)
    (hcodec : (D.stateCodec x.aggregate).RoundTrips ∧ (D.stateCodec x.aggregate).NeverNull)
    {s : Session R W} (h : Consistent types s.store.committed) :
    let s' := ((Gateway.send r x.ctx x.metadata x.type x.command x.seconds).run s).2
    Consistent types s'.store.committed := by
  rcases hsend : (Gateway.send r x.ctx x.metadata x.type x.command x.seconds).run s with
    ⟨e | receipt, s'⟩
  · dsimp only
    rw [store_of_error hr hsend]
    exact h
  · obtain ⟨-, -, hs', id, snapshot, state, buffer, s₁, -, hloaded, -, hcase⟩ :=
      send_effect hr h.sound hsend
    rcases hcase with ⟨-, -, hsame⟩ | ⟨hne, globalId, final, text, rows, heffect⟩
    · exact h.congr hsame
    · exact heffect.consistent htype hcodec hloaded hne h hs'

/-- Commands sent one after the other keep a database consistent. -/
theorem consistent_foldl {types : D.AggregateType → Prop} {xs : List (Sending D)}
    (htypes : ∀ x ∈ xs, types x.aggregate)
    (hcodecs : ∀ x ∈ xs, (D.stateCodec x.aggregate).RoundTrips ∧
      (D.stateCodec x.aggregate).NeverNull)
    {s : Session R W} (h : Consistent types s.store.committed) :
    Consistent types (after r s xs).store.committed := by
  induction xs generalizing s with
  | nil => exact h
  | cons x xs ih =>
    have hx := List.mem_cons_self (a := x) (l := xs)
    have hxs (y : Sending D) (hy : y ∈ xs) := List.mem_cons_of_mem x hy
    apply ih (fun y hy => htypes y (hxs y hy)) (fun y hy => hcodecs y (hxs y hy))
    exact consistent_send hr (htypes x hx) (hcodecs x hx) h

/-- However many commands are sent, the numbers and names of aggregates stay. -/
theorem keeps_after (xs : List (Sending D)) {s : Session R W} (hs : s.store.committed.Sound) :
    s.store.committed.Keeps (after r s xs).store.committed := by
  induction xs generalizing s with
  | nil => exact .refl _
  | cons x xs ih =>
    obtain ⟨hs', hkeeps⟩ := keeps_send hr x hs
    exact hkeeps.trans (ih hs')

end

/-! ### Moving ahead -/

/-- A command that stores events moves the snapshot of its aggregate ahead.  The
snapshot is the one loaded, and the sequence that of the last event that was
appended; whether the last save succeeds is not said. -/
inductive Advances (r : Registry D (Session R W)) (x : Sending D) (s : Session R W) :
    Snapshot D x.aggregate → Int → Prop
  | intro {id : Uuid} {snapshot : Snapshot D x.aggregate} {state final : D.State x.aggregate}
      {buffer : EventBuffer D} {globalId : Int} {appended : List (String × Int)}
      {s₁ s₂ s₃ s₄ : Session R W} :
      s.store.unit = none → D.target x.command = some id →
      (loadOrFresh x.ctx x.aggregate id).run (begun s id x.ctx) = (.ok snapshot, s₁) →
      (r.dispatchCommand x.type snapshot.state x.command
        (.forCommand r.dependencies x.ctx)).run s₁ = (.ok (state, buffer), s₂) →
      buffer.isEmpty = false →
      (ensureRow x.ctx snapshot).run s₂ = (.ok globalId, s₃) →
      (applyEvents r x.ctx x.metadata globalId state buffer.events).run s₃ =
        (.ok (final, appended), s₄) →
      Advances r x s ((snapshot.savedAs globalId).withState (some final))
        (lastSequence snapshot.sequence appended)

/-- Every command that succeeds with an event has moved a snapshot ahead. -/
theorem exists_advances {r : Registry D (Session R W)} {x : Sending D}
    (hr : r.Confined SameTables SameTables) {s : Session R W} {receipt : Receipt}
    (h : ((send r x.ctx x.metadata x.type x.command x.seconds).run s).1 = .ok receipt)
    (hne : receipt.events ≠ []) :
    ∃ snapshot, Advances r x s snapshot receipt.sequence := by
  have hany : r.Confined (fun _ _ => True) fun _ _ => True :=
    hr.mono (fun _ _ _ => trivial) fun _ _ _ => trivial
  have hend := send_ending admits_true hany x.ctx x.metadata x.type x.command x.seconds s
  rw [h] at hend
  generalize ((send r x.ctx x.metadata x.type x.command x.seconds).run s).2.store = store' at hend
  cases hend with
  | @committed id _ s₀ db hunit htarget hrun =>
    obtain ⟨snapshot, s₁, hload, hrest⟩ := Task.bind_eq_ok.1 hrun
    obtain ⟨⟨state, buffer⟩, s₂, hcommand, hstored⟩ := Task.bind_eq_ok.1 hrest
    dsimp only at hstored
    split at hstored
    · cases hstored
      exact absurd rfl hne
    · rename_i hsome
      obtain ⟨globalId, s₃, hrow, hstored⟩ := Task.bind_eq_ok.1 hstored
      obtain ⟨⟨final, appended⟩, s₄, hevents, hstored⟩ := Task.bind_eq_ok.1 hstored
      obtain ⟨_, s₅, -, hstored⟩ := Task.bind_eq_ok.1 hstored
      cases hstored
      refine ⟨_, .intro hunit htarget hload hcommand ?_ hrow hevents⟩
      exact eq_false_of_ne_true hsome

/-- The last of the sequences that were given is at least what all of them are. -/
theorem le_lastSequence {start n : Int} {appended : List (String × Int)} (hne : appended ≠ [])
    (h : ∀ e ∈ appended, n ≤ e.2) : n ≤ lastSequence start appended := by
  rw [lastSequence, List.getLast?_eq_some_getLast hne]
  exact h _ (List.getLast_mem hne)

/-- What is loaded is not ahead of the log. -/
theorem initialSequence_le {types : D.AggregateType → Prop} {db : Database R}
    (hdb : Consistent types db) {a : D.AggregateType} {id : Uuid} {snapshot : Snapshot D a}
    (hloaded : Loaded db a id snapshot) : snapshot.initialSequence ≤ db.log.issued := by
  rcases hnumber : snapshot.globalId with _ | g
  · rw [(hloaded.absent hnumber).1]
    exact hdb.issued
  · obtain ⟨row, hrow, -, -, hsequence, -⟩ := hloaded.mem hnumber
    rw [← hsequence]
    exact hdb.sequence_le hrow

/-- Snapshots are moved ahead, never back. -/
theorem Advances.initial_le {r : Registry D (Session R W)}
    (hr : r.Confined SameTables SameTables) {types : D.AggregateType → Prop} {x : Sending D}
    {s : Session R W} (hs : Consistent types s.store.committed)
    {snapshot : Snapshot D x.aggregate} {sequence : Int}
    (h : Advances r x s snapshot sequence) : snapshot.initialSequence ≤ sequence := by
  obtain ⟨-, -, hload, hcommand, hsome, hrow, hevents⟩ := h
  rename_i id snapshot state final buffer globalId appended s₁ s₂ s₃ s₄
  show snapshot.initialSequence ≤ _
  obtain ⟨rfl, db, hu, hloaded⟩ := loadOrFresh_eq_ok hload
  cases hu
  -- nothing comes into the log before the first event
  have hinside : (begun s id x.ctx).Inside SameTables s₂ :=
    (r.dispatchCommand_inside hr SameTables.refl (fun _ _ _ => SameTables.trans) x.type
      snapshot.state x.command _).run hcommand
  obtain ⟨db₁, hsame, hu₁⟩ := hinside.unit rfl
  obtain ⟨db₂, hu₂, -, hlog₂, -⟩ :=
    ensureRow_eq_ok hu₁ (hsame.sound hs.sound) (hloaded.congr hsame) hrow
  have hlog : db₂.log = s.store.committed.log := hlog₂.trans hsame.log
  obtain ⟨-, rows, -, -, happended, -⟩ := applyEvents_eq_ok hr hu₂ hevents
  rw [hlog] at happended
  -- so what is appended comes behind all that was there
  refine le_lastSequence ?_ ?_
  · intro hnil
    have hnames := names_applyEvents hevents
    rw [hnil] at hnames
    have hempty : buffer.events = [] := List.map_eq_nil_iff.1 hnames.symm
    rw [EventBuffer.isEmpty, hempty] at hsome
    cases hsome
  · intro e he
    rw [happended] at he
    have hmem : e.2 ∈ (Table.numbered s.store.committed.log.issued rows).map Prod.fst :=
      (List.of_mem_zip he).2
    obtain ⟨row, hrow, hn⟩ := List.mem_map.1 hmem
    have hlt := (Table.lt_of_mem_numbered hrow).1
    rw [hn] at hlt
    have hle := initialSequence_le hs hloaded
    exact Int.le_of_lt (Int.lt_of_le_of_lt hle hlt)

/-! ### Whole runs -/

/-- **Consistency.**  Let the handlers of commands and domain events write the
read model at most, and send any commands to an empty store, in whose types what
is written for a state is read back and never null.  Afterwards

* every snapshot has events, and its sequence is the greatest of theirs; its state
  is not null and is read as one of a type with the name that is stored;
* every event belongs to a stored aggregate;
* identifiers, numbers of aggregates and numbers of events are unique;
* every aggregate keeps its number and its name, whatever else is sent;
* no command moves a snapshot back behind the sequence it was loaded with. -/
theorem consistent_after (r : Registry D (Session R W)) (hr : r.Confined SameTables SameTables)
    (readModel : R) (world : W) (xs : List (Sending D))
    (hcodecs : ∀ x ∈ xs, (D.stateCodec x.aggregate).RoundTrips ∧
      (D.stateCodec x.aggregate).NeverNull) :
    let s := after r (Session.start (blank readModel).migrate world) xs
    let db := s.store.committed
    (∀ g row, (g, row) ∈ db.snapshots.rows → db.LastEvent g row.sequence ∧
      row.state ≠ "null" ∧ ∃ x ∈ xs, D.aggregateName x.aggregate = row.typeName ∧
        ∃ state, (D.stateCodec x.aggregate).deserialize row.typeName row.state = .ok state) ∧
    (∀ e ∈ db.log.rows, ∃ row, (e.2.aggregateGlobalId, row) ∈ db.snapshots.rows) ∧
    (db.snapshots.rows.map fun row => row.2.identifier).Nodup ∧
    (db.snapshots.rows.map Prod.fst).Nodup ∧
    (db.log.rows.map Prod.fst).Nodup ∧
    (∀ ys g row, (g, row) ∈ db.snapshots.rows →
      ∃ row', (g, row') ∈ (after r s ys).store.committed.snapshots.rows ∧
        row'.identifier = row.identifier ∧ row'.typeName = row.typeName) ∧
    ∀ x snapshot sequence, Advances r x s snapshot sequence →
      snapshot.initialSequence ≤ sequence := by
  intro s db
  have hconsistent : Consistent (fun a => ∃ x ∈ xs, x.aggregate = a) db :=
    consistent_foldl hr (fun x hx => ⟨x, hx, rfl⟩) hcodecs (consistent_migrate_blank readModel)
  refine ⟨fun g row hrow => ?_, hconsistent.sound.references, hconsistent.sound.identifiers,
    hconsistent.sound.snapshots.nodup, hconsistent.sound.log.nodup, fun ys => ?_,
    fun x snapshot sequence h => h.initial_le hr hconsistent⟩
  · obtain ⟨hnull, _, ⟨x, hx, rfl⟩, hname, hstate⟩ := hconsistent.states g row hrow
    exact ⟨hconsistent.last g row hrow, hnull, x, hx, hname, hstate⟩
  · exact keeps_after hr ys hconsistent.sound

/-- The registry of lamps. -/
def lampRegistry : Registry lamps (Session Unit Unit) :=
  Registration.build Dependencies.empty lampCalls

/-- The session in which a lamp was installed, switched, and installed again. -/
def lampSession : Session Unit Unit :=
  after lampRegistry (Session.start (blank ()).migrate ()) lampSendings

/-- Switches the lamp once more. -/
def lampSwitch : Sending lamps := ⟨⟨0⟩, Dictionary.empty, .switch, Uuid.zero, 0⟩

/-- The lamp that was switched once is consistent, and stays itself when it is
switched again, which moves it from its second event to its third. -/
theorem consistent_lamp :
    lampSession.store.committed.snapshots.rows = [(1, ⟨Uuid.zero, "Lamp", 2, "false"⟩)] ∧
      lampSession.store.committed.LastEvent 1 2 ∧
      (∃ row,
        (1, row) ∈
          (after lampRegistry lampSession [lampSwitch]).store.committed.snapshots.rows ∧
        row.identifier = Uuid.zero ∧ row.typeName = "Lamp") ∧
      ∃ snapshot, Advances lampRegistry lampSwitch lampSession snapshot 3 ∧
        snapshot.initialSequence ≤ 3 := by
  have hconfined : lampRegistry.Confined SameTables SameTables := confined_lampCalls
  have hneverNull : (lamps.stateCodec ()).NeverNull := nofun
  have hrows : lampSession.store.committed.snapshots.rows =
      [(1, ⟨Uuid.zero, "Lamp", 2, "false"⟩)] := rfl
  -- the third event is stored by a command that succeeds
  have hanswer : ((send lampRegistry lampSwitch.ctx lampSwitch.metadata lampSwitch.type
      lampSwitch.command lampSwitch.seconds).run lampSession).1 =
        .ok ⟨Uuid.zero, some 1, 3, [("Switched", 3)]⟩ := rfl
  obtain ⟨snapshot, hadvances⟩ := exists_advances hconfined hanswer (List.cons_ne_nil _ _)
  have hmem : (1, ⟨Uuid.zero, "Lamp", 2, "false"⟩) ∈
      lampSession.store.committed.snapshots.rows := by
    rw [hrows]
    exact List.mem_cons_self
  obtain ⟨hsnapshots, -, -, -, -, hkeeps, hahead⟩ :=
    consistent_after lampRegistry hconfined () () lampSendings fun x _ =>
      ⟨roundTrips_lampStates, hneverNull⟩
  rw [← lampSession] at hsnapshots hkeeps hahead
  refine ⟨hrows, ?_, ?_, snapshot, hadvances, ?_⟩
  · exact (hsnapshots 1 _ hmem).1
  · exact hkeeps [lampSwitch] 1 _ hmem
  · exact hahead lampSwitch snapshot 3 hadvances

end Gateway

end Chronicle
