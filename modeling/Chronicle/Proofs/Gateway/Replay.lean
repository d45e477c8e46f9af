/-
Chronicle/Proofs/Gateway/Replay.lean

The snapshot of an aggregate is what its events make of the initial state.

`Registry.replay` reads stored events and applies them one by one.  Whatever
commands are sent, the snapshots stay `Replays`: a command that fails changes
nothing, and one that succeeds adds the events that lead from the state stored
before to the one stored after.

Main results: `replay_after`, for any sequence of commands sent to an empty store, and
`twin_lamp_not_replayed`, where two types of aggregates have one name.
-/
import Chronicle.Proofs.Gateway.Effect
import Chronicle.Proofs.Json.RoundTrip
import Chronicle.Proofs.Registry.Built

namespace Chronicle

variable {D : Domain} {R W σ α : Type}

open Session Database

/-! ### Replaying -/

/-- All that is folded over has been applied to something. -/
theorem exists_of_foldlM {ε β γ : Type} {f : β → γ → Except ε β} {cs : List γ} {b final : β}
    (h : cs.foldlM f b = .ok final) : ∀ c ∈ cs, ∃ b₁ b₂, f b₁ c = .ok b₂ := by
  induction cs generalizing b with
  | nil => exact fun c hc => absurd hc List.not_mem_nil
  | cons c cs ih =>
    rw [List.foldlM_cons] at h
    rcases hstep : f b c with e | b'
    · rw [hstep] at h
      cases h
    · rw [hstep] at h
      intro c' hc'
      rcases List.mem_cons.1 hc' with rfl | hc'
      · exact ⟨b, b', hstep⟩
      · exact ih h c' hc'

namespace Registry

/-- Reads stored events and applies them one by one. -/
def replay (r : Registry D σ) (a : D.AggregateType) :
    D.State a → List EventRow → Except Error (D.State a)
  | state, [] => .ok state
  | state, row :: rows => do
    match ← r.decode row.typeName row.payload with
    | none => .error (.serialization row.typeName .noDecoder)
    | some e => replay r a (← r.dispatchState a state e) rows

theorem replay_append (r : Registry D σ) (a : D.AggregateType) (state : D.State a)
    (rows rows' : List EventRow) :
    r.replay a state (rows ++ rows') = r.replay a state rows >>= fun s => r.replay a s rows' := by
  induction rows generalizing state with
  | nil => rfl
  | cons row rows ih =>
    simp only [List.cons_append, replay, bind, Except.bind]
    split
    · rfl
    · split
      · rfl
      · split
        · rfl
        · exact ih _

/-- An event that changes a state has a state handler. -/
theorem exists_handler_of_dispatchState {r : Registry D σ} {a : D.AggregateType}
    {state state' : D.State a} {e : AnyEvent D} (h : r.dispatchState a state e = .ok state') :
    ∃ f ∈ r.states, f.event = e.type := by
  unfold dispatchState at h
  split at h
  · rename_i change hfind
    obtain ⟨f, hf, hchange⟩ := List.exists_of_findSome?_eq_some hfind
    refine ⟨f, hf, ?_⟩
    unfold stateChange? at hchange
    split at hchange
    · obtain ⟨event, hevent, -⟩ := Option.map_eq_some_iff.1 hchange
      unfold AnyEvent.as? at hevent
      split at hevent
      · rename_i htype
        exact htype.symm
      · cases hevent
    · cases hchange
  · cases h

/-- An event is read from its text, if its name is decoded as its type. -/
theorem decode_payload {r : Registry D σ} {e : AnyEvent D} {payload : String}
    (hcodec : (D.eventCodec e.type).ReadsBack) (hdecoder : r.decoders.get? e.typeName = some e.type)
    (hpayload : e.payload = .ok payload) : r.decode e.typeName payload = .ok (some e) := by
  have hread : AnyEvent.read e.type payload = .ok e := by
    rw [AnyEvent.read, hcodec (D.eventName e.type) e.event payload hpayload]
    rfl
  rw [decode, hdecoder]
  dsimp only
  rw [hread]
  rfl

/-- Replaying the rows of events is applying the events. -/
theorem replay_eventRows {r : Registry D σ} (hevents : ∀ e, (D.eventCodec e).ReadsBack)
    (hcoherent : ∀ h ∈ r.states, r.decoders.get? (D.eventName h.event) = some h.event)
    {globalId : Int} {metadata : Metadata} {a : D.AggregateType} {events : List (AnyEvent D)}
    {rows : List EventRow} {state final : D.State a}
    (hrows : List.Forall₂ (fun e row => Store.eventRow globalId metadata e = .ok row) events rows)
    (hfold : events.foldlM (r.dispatchState a) state = .ok final) :
    r.replay a state rows = .ok final := by
  induction hrows generalizing state with
  | nil => exact hfold
  | @cons e row events rows hrow _ ih =>
    rw [List.foldlM_cons] at hfold
    rcases hstate : r.dispatchState a state e with fault | next
    · rw [hstate] at hfold
      cases hfold
    · rw [hstate] at hfold
      obtain ⟨payload, hpayload, rfl⟩ := Store.eventRow_eq_ok.1 hrow
      obtain ⟨f, hf, htype⟩ := exists_handler_of_dispatchState hstate
      -- the event has a state handler, so its name is decoded as its type
      have hdecoder : r.decoders.get? e.typeName = some e.type := by
        have := hcoherent f hf
        rw [htype] at this
        exact this
      have hdecode := decode_payload (hevents e.type) hdecoder hpayload
      simp only [replay, hdecode, hstate, bind, Except.bind]
      exact ih hfold

/-- Handlers of commands that only emit events: what they leave or return as the
state is the state they were given, or the initial one. -/
structure EventSourced (r : Registry D σ) : Prop where
  creation : ∀ c h, ⟨c, .creation h⟩ ∈ r.commands → ∀ values command s state buffer s',
    (h.run values command).run s = (.ok (state, buffer), s') →
      state = D.initialState (D.aggregateOf c)
  mutation : ∀ c h, ⟨c, .mutation h⟩ ∈ r.commands → ∀ values state command s state' buffer s',
    (h.run values state command).run s = (.ok (state', buffer), s') → state' = state

/-- What a call with inputs answers is what the work answers. -/
theorem callWith_eq_ok {ctx : HandlerContext D} {inputs : List (SideInput D)}
    {work : Inputs inputs → Work σ α} {a : α} {s s' : σ}
    (h : (callWith ctx inputs work).run s = (.ok a, s')) :
    ∃ values, (work values).run s = (.ok a, s') := by
  obtain ⟨values, s₁, hvalues, hwork⟩ := Task.bind_eq_ok.1 h
  rw [Task.run_ofExcept] at hvalues
  obtain ⟨-, rfl⟩ := Prod.mk.inj hvalues
  refine ⟨values, ?_⟩
  rw [Work.run_asTask] at hwork
  rcases hrun : (work values).run s with ⟨text | b, s₂⟩
  · rw [hrun] at hwork
    cases hwork
  · rw [hrun] at hwork
    obtain ⟨hb, rfl⟩ := Prod.mk.inj hwork
    rw [Except.ok.inj hb]

/-- The state that the handler of a command leaves, if it only emits events. -/
theorem dispatchCommand_state {r : Registry D σ} (hr : r.EventSourced) {c : D.CommandType}
    {state : Option (D.State (D.aggregateOf c))} {command : D.Command c} {ctx : HandlerContext D}
    {state' : D.State (D.aggregateOf c)} {buffer : EventBuffer D} {s s' : σ}
    (h : (r.dispatchCommand c state command ctx).run s = (.ok (state', buffer), s')) :
    state' = state.getD (D.initialState (D.aggregateOf c)) := by
  rcases dispatchCommand_cases h with ⟨f, hfind, rfl, hcall⟩ | ⟨f, d, hfind, rfl, hcall⟩
  · obtain ⟨values, hrun⟩ := callWith_eq_ok hcall
    exact hr.creation _ _ (Tagged.mem_of_find? hfind) values command _ _ _ _ hrun
  · obtain ⟨values, hrun⟩ := callWith_eq_ok hcall
    exact hr.mutation _ _ (Tagged.mem_of_find? hfind) values _ command _ _ _ _ hrun

end Registry

/-- The handler of a call only emits events. -/
def Registration.EventSourced : Registration D σ → Prop
  | creation c h => ∀ values command s state buffer s',
    (h.run values command).run s = (.ok (state, buffer), s') →
      state = D.initialState (D.aggregateOf c)
  | mutation _ h => ∀ values state command s state' buffer s',
    (h.run values state command).run s = (.ok (state', buffer), s') → state' = state
  | _ => True

namespace Database

/-- The events of the aggregate with a number, in the order of their sequences. -/
def eventsOf (db : Database R) (globalId : Int) : List EventRow :=
  (db.log.rows.filter fun r => r.2.aggregateGlobalId == globalId).map Prod.snd

/-- A number that no snapshot has, has no events. -/
theorem Sound.eventsOf_next {db : Database R} (h : db.Sound) :
    db.eventsOf db.snapshots.next = [] := by
  rw [eventsOf, List.map_eq_nil_iff, List.filter_eq_nil_iff]
  intro e he heq
  obtain ⟨a, ha⟩ := h.references e he
  have hlt := h.snapshots.lt_next ha
  rw [beq_iff_eq] at heq
  rw [heq] at hlt
  exact absurd hlt (Int.lt_irrefl _)

/-- Rows that are appended are events of the aggregates they name. -/
theorem eventsOf_insertAll {db db' : Database R} {rows : List EventRow}
    (hlog : db'.log = db.log.insertAll rows) (globalId : Int) :
    db'.eventsOf globalId =
      db.eventsOf globalId ++ rows.filter fun row => row.aggregateGlobalId == globalId := by
  have hrows : ((Table.numbered db.log.issued rows).filter fun r =>
      r.2.aggregateGlobalId == globalId).map Prod.snd =
        rows.filter fun row => row.aggregateGlobalId == globalId := by
    rw [← Table.map_snd_numbered db.log.issued rows, List.filter_map, Table.map_snd_numbered]
    rfl
  rw [eventsOf, hlog, Table.insertAll, List.filter_append, List.map_append, hrows]
  rfl

end Database

namespace Gateway

/-- Every row of a command is that of one of its events. -/
theorem exists_event_of_stored {globalId : Int} {metadata : Metadata}
    {events : List (AnyEvent D)} {rows : List EventRow}
    (h : List.Forall₂ (fun e row => Store.eventRow globalId metadata e = .ok row) events rows) :
    ∀ row ∈ rows, ∃ e ∈ events, Store.eventRow globalId metadata e = .ok row := by
  induction h with
  | nil => exact fun row hrow => absurd hrow List.not_mem_nil
  | @cons e row events rows hrow _ ih =>
    intro row' hrow'
    rcases List.mem_cons.1 hrow' with rfl | hrow'
    · exact ⟨e, List.mem_cons_self, hrow⟩
    · obtain ⟨e', he', hstored⟩ := ih row' hrow'
      exact ⟨e', List.mem_cons_of_mem _ he', hstored⟩

/-- The rows of a command are all of its aggregate. -/
theorem aggregateGlobalId_of_stored {globalId : Int} {metadata : Metadata}
    {events : List (AnyEvent D)} {rows : List EventRow}
    (h : List.Forall₂ (fun e row => Store.eventRow globalId metadata e = .ok row) events rows) :
    ∀ row ∈ rows, row.aggregateGlobalId = globalId := by
  intro row hrow
  obtain ⟨e, -, hstored⟩ := exists_event_of_stored h row hrow
  obtain ⟨payload, -, rfl⟩ := Store.eventRow_eq_ok.1 hstored
  rfl

/-! ### Sequences of commands -/

/-- A command that is sent. -/
structure Sending (D : Domain) where
  ctx : ExecutionContext
  metadata : Metadata
  type : D.CommandType
  command : D.Command type
  seconds : Float

/-- The type of the aggregate that is changed. -/
def Sending.aggregate (x : Sending D) : D.AggregateType := D.aggregateOf x.type

/-- The session after commands were sent one after the other. -/
def after (r : Registry D (Session R W)) (s : Session R W) (xs : List (Sending D)) : Session R W :=
  xs.foldl (fun s x => ((send r x.ctx x.metadata x.type x.command x.seconds).run s).2) s

/-- The events of a snapshot lead from the initial state to the one stored. -/
def ReplaysTo (r : Registry D σ) (db : Database R) (a : D.AggregateType) (globalId : Int)
    (row : AggregateRow) : Prop :=
  ∃ state, r.replay a (D.initialState a) (db.eventsOf globalId) = .ok state ∧
    (D.stateCodec a).serialize row.typeName state = .ok row.state

/-- Every snapshot was made by a command that was sent, and its events lead to it,
unless another command that was sent uses the name for another type. -/
def Replays (r : Registry D σ) (xs : List (Sending D)) (db : Database R) : Prop :=
  ∀ globalId row, (globalId, row) ∈ db.snapshots.rows →
    ∃ x ∈ xs, D.aggregateName x.aggregate = row.typeName ∧
      ((∀ y ∈ xs, D.aggregateName y.aggregate = row.typeName → y.aggregate = x.aggregate) →
        ReplaysTo r db x.aggregate globalId row)

/-- What is replayed are the tables of the engine only. -/
theorem Replays.congr {r : Registry D σ} {xs : List (Sending D)} {db db' : Database R}
    (h : Replays r xs db) (hdb : db.SameTables db') : Replays r xs db' := by
  intro globalId row hrow
  rw [hdb.snapshots] at hrow
  have hevents : db'.eventsOf globalId = db.eventsOf globalId := by
    rw [eventsOf, eventsOf, hdb.log]
  obtain ⟨x, hx, hname, hreplays⟩ := h globalId row hrow
  refine ⟨x, hx, hname, fun hnames => ?_⟩
  rw [ReplaysTo, hevents]
  exact hreplays hnames

/-- A command adds no event to the aggregates of others. -/
theorem Effect.replaysTo_other {r : Registry D (Session R W)} {metadata : Metadata}
    {a b : D.AggregateType} {snapshot : Snapshot D a} {state final : D.State a}
    {events : List (AnyEvent D)} {db db' : Database R} {receipt : Receipt} {globalId g : Int}
    {text : String} {rows : List EventRow} {row : AggregateRow}
    (heffect : Effect r metadata snapshot state events db db' receipt globalId final text rows)
    (hg : g ≠ globalId) (h : ReplaysTo r db b g row) : ReplaysTo r db' b g row := by
  obtain ⟨before, hbefore, hserialized⟩ := h
  have hnone : (rows.filter fun row => row.aggregateGlobalId == g) = [] := by
    rw [List.filter_eq_nil_iff]
    intro row' hrow' heq
    rw [aggregateGlobalId_of_stored heffect.stored row' hrow', beq_iff_eq] at heq
    exact hg heq.symm
  refine ⟨before, ?_, hserialized⟩
  rw [eventsOf_insertAll heffect.log, hnone, List.append_nil]
  exact hbefore

section

variable {r : Registry D (Session R W)} (hr : r.Confined SameTables SameTables)
  (hsourced : r.EventSourced)
  (hcoherent : ∀ h ∈ r.states, r.decoders.get? (D.eventName h.event) = some h.event)
  (hevents : ∀ e, (D.eventCodec e).ReadsBack) (hstates : ∀ a, (D.stateCodec a).ReadsBack)

include hsourced hcoherent hevents hstates

/-- The snapshot that a command stores is replayed, if the one it loaded was. -/
theorem Effect.replaysTo {metadata : Metadata} {id : Uuid} {c : D.CommandType}
    {command : D.Command c} {ctx : HandlerContext D}
    {snapshot : Snapshot D (D.aggregateOf c)} {state final : D.State (D.aggregateOf c)}
    {buffer : EventBuffer D} {s s' : Session R W} {db db' : Database R} {receipt : Receipt}
    {globalId : Int} {text : String} {rows : List EventRow} (hdb : db.Sound)
    (hloaded : Loaded db (D.aggregateOf c) id snapshot)
    (hcommand : (r.dispatchCommand c snapshot.state command ctx).run s = (.ok (state, buffer), s'))
    (h : Effect r metadata snapshot state buffer.events db db' receipt globalId final text rows)
    (hbefore : ∀ row, (globalId, row) ∈ db.snapshots.rows →
      row.typeName = D.aggregateName (D.aggregateOf c) →
      ReplaysTo r db (D.aggregateOf c) globalId row) :
    r.replay (D.aggregateOf c) (D.initialState _) (db'.eventsOf globalId) = .ok final := by
  have hnew : (rows.filter fun row => row.aggregateGlobalId == globalId) = rows := by
    rw [List.filter_eq_self]
    intro row hrow
    rw [aggregateGlobalId_of_stored h.stored row hrow, beq_self_eq_true]
  have hreplay := Registry.replay_eventRows hevents hcoherent h.stored h.folded
  have hstate := Registry.dispatchCommand_state hsourced hcommand
  -- the events that were there lead to the state that the handler left
  have hold : r.replay (D.aggregateOf c) (D.initialState _) (db.eventsOf globalId) = .ok state := by
    rcases hnumber : snapshot.globalId with _ | globalId'
    · obtain ⟨rfl, -⟩ := hloaded.absent hnumber
      rw [h.number, hstate]
      show r.replay _ _ (db.eventsOf db.snapshots.next) = _
      rw [hdb.eventsOf_next]
      rfl
    · -- what was loaded is what was replayed, as both are read from the same text
      obtain ⟨row, hrow, -, hname, -, loaded, hloadedState, hread⟩ := hloaded.mem hnumber
      have hid : globalId = globalId' := by
        rw [h.number, hnumber]
        rfl
      rw [← hid] at hrow
      obtain ⟨before, hbefore, hserialized⟩ := hbefore row hrow hname
      have hsame := hstates _ _ _ _ hserialized
      rw [Codec.deserialize_of_optional hread] at hsame
      rw [hbefore, hstate, hloadedState, ← Except.ok.inj hsame]
      rfl
  rw [eventsOf_insertAll h.log, hnew, Registry.replay_append, hold]
  exact hreplay

include hr

/-- A command keeps the snapshots replayed. -/
theorem Replays.send {xs : List (Sending D)} {x : Sending D} (hx : x ∈ xs) {s : Session R W}
    (hs : s.store.committed.Sound) (h : Replays r xs s.store.committed) :
    let s' := ((Gateway.send r x.ctx x.metadata x.type x.command x.seconds).run s).2
    s'.store.committed.Sound ∧ Replays r xs s'.store.committed := by
  rcases hsend : (Gateway.send r x.ctx x.metadata x.type x.command x.seconds).run s with
    ⟨e | receipt, s'⟩
  · dsimp only
    rw [store_of_error hr hsend]
    exact ⟨hs, h⟩
  · obtain ⟨-, -, hs', id, snapshot, state, buffer, s₁, -, hloaded, hcommand, hcase⟩ :=
      send_effect hr hs hsend
    refine ⟨hs', ?_⟩
    rcases hcase with ⟨-, -, hsame⟩ | ⟨-, globalId, final, text, rows, heffect⟩
    · exact h.congr hsame
    · intro g row hrow
      by_cases hg : g = globalId
      · -- the snapshot that the command has stored
        subst hg
        have hrow' := hs'.snapshots.unique hrow heffect.current
        subst hrow'
        refine ⟨x, hx, hloaded.typeName.symm, fun hnames => ?_⟩
        refine ⟨final, ?_, heffect.serialized⟩
        refine heffect.replaysTo hsourced hcoherent hevents hstates hs hloaded hcommand ?_
        intro before hbefore hname
        obtain ⟨y, hy, hyname, hreplays⟩ := h g before hbefore
        have hsame : y.aggregate = x.aggregate :=
          hnames y hy (hyname.trans (hname.trans hloaded.typeName.symm))
        have hbefore := hreplays fun z hz hzname => by
          rw [hsame]
          exact hnames z hz (hzname.trans (hname.trans hloaded.typeName.symm))
        rw [hsame] at hbefore
        exact hbefore
      · -- the snapshot of another aggregate, none of whose events are new
        have hold : (g, row) ∈ s.store.committed.snapshots.rows := by
          have hmem : (g, row) ∈ s'.store.committed.snapshots.rows.filter fun r => r.1 ≠ globalId :=
            List.mem_filter.2 ⟨hrow, decide_eq_true hg⟩
          rw [heffect.others] at hmem
          exact (List.mem_filter.1 hmem).1
        obtain ⟨y, hy, hyname, hreplays⟩ := h g row hold
        exact ⟨y, hy, hyname, fun hnames => heffect.replaysTo_other hg (hreplays hnames)⟩

/-- Commands sent one after the other keep the snapshots replayed. -/
theorem Replays.after {xs ys : List (Sending D)} (hys : ∀ y ∈ ys, y ∈ xs) {s : Session R W}
    (hs : s.store.committed.Sound) (h : Replays r xs s.store.committed) :
    (after r s ys).store.committed.Sound ∧ Replays r xs (after r s ys).store.committed := by
  induction ys generalizing s with
  | nil => exact ⟨hs, h⟩
  | cons y ys ih =>
    obtain ⟨hs', h'⟩ := h.send hr hsourced hcoherent hevents hstates (hys y List.mem_cons_self) hs
    exact ih (fun z hz => hys z (List.mem_cons_of_mem _ hz)) hs' h'

end

/-- The commands of a small vocabulary: lamps that are installed and switched. -/
inductive LampCommand where
  | install
  | switch
  deriving DecidableEq

/-- Lamps are on or off, and there is one type of events. -/
def lamps : Domain where
  EventType := Unit
  AggregateType := Unit
  CommandType := LampCommand
  ValueType := Empty
  decEventType := inferInstance
  decAggregateType := inferInstance
  decCommandType := inferInstance
  decValueType := inferInstance
  Event _ := Unit
  State _ := Bool
  Command _ := Uuid
  Value := nofun
  eventName _ := "Switched"
  eventPath _ := "lamps::Switched"
  eventCodec _ := ⟨fun _ => .ok .null, fun _ => some ()⟩
  aggregateName _ := "Lamp"
  aggregatePath _ := "lamps::Lamp"
  stateCodec _ := ⟨fun on => .ok (.bool on), fun | .bool on => some on | _ => none⟩
  initialState _ := false
  commandPath
    | .install => "lamps::Install"
    | .switch => "lamps::Switch"
  aggregateOf _ := ()
  target := some
  valuePath := nofun

theorem readsBack_lampEvents : (lamps.eventCodec ()).ReadsBack := by
  intro label event text h
  cases h
  rfl

theorem roundTrips_lampStates : (lamps.stateCodec ()).RoundTrips := by
  rintro on _ ⟨⟩
  rfl

/-- Both commands emit an event, which switches the lamp. -/
def lampCalls : List (Registration lamps σ) :=
  [.creation .install ⟨[], fun _ _ => pure (false, ⟨[⟨(), ()⟩]⟩)⟩,
   .mutation .switch ⟨[], fun _ on _ => pure (on, ⟨[⟨(), ()⟩]⟩)⟩,
   .state ⟨(), (), fun on _ => !on⟩]

/-- Neither does anything else. -/
theorem pure_lampCalls : ∀ call ∈ (lampCalls : List (Registration lamps σ)), call.Pure := by
  intro call hcall
  simp only [lampCalls, List.mem_cons, List.not_mem_nil, or_false] at hcall
  rcases hcall with rfl | rfl | rfl
  · exact fun _ _ => ⟨_, rfl⟩
  · exact fun _ _ _ => ⟨_, rfl⟩
  · trivial

theorem confined_lampCalls : (Registration.build Dependencies.empty lampCalls :
    Registry lamps (Session R W)).Confined SameTables SameTables :=
  Registration.confined_build fun call hcall =>
    (pure_lampCalls call hcall).confined SameTables.refl SameTables.refl

/-- One lamp is installed, switched, and installed again, which fails. -/
def lampSendings : List (Sending lamps) :=
  [LampCommand.install, .switch, .install].map fun type =>
    ⟨⟨0⟩, Dictionary.empty, type, Uuid.zero, 0⟩

/-- Two types of lamps under one name, each with a type of events of its own.  Lamps of the
first type can only be installed, and those of the second one only be switched. -/
def twinLamps : Domain :=
  { lamps with
    EventType := Bool
    AggregateType := Bool
    decEventType := inferInstance
    decAggregateType := inferInstance
    Event _ := Unit
    State _ := Bool
    eventName second := if second then "Switched" else "Installed"
    eventPath second := if second then "lamps::Switched" else "lamps::Installed"
    eventCodec _ := lamps.eventCodec ()
    aggregateName _ := "Lamp"
    aggregatePath second := if second then "lamps::second::Lamp" else "lamps::first::Lamp"
    stateCodec _ := lamps.stateCodec ()
    initialState _ := false
    aggregateOf
      | .install => false
      | .switch => true }

/-- Each command emits the event of its type of lamps. -/
def twinCalls : List (Registration twinLamps σ) :=
  [.creation .install ⟨[], fun _ _ => pure (false, ⟨[⟨false, ()⟩]⟩)⟩,
   .mutation .switch ⟨[], fun _ on _ => pure (on, ⟨[⟨true, ()⟩]⟩)⟩,
   .state ⟨false, false, fun on _ => on⟩,
   .state ⟨true, true, fun on _ => !on⟩]

end Gateway

end Chronicle
