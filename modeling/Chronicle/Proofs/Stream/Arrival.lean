/-
Chronicle/Proofs/Stream/Arrival.lean

Events on their way from the handler of a command to the handlers of the stream.

An event is written by its codec, stored in a row under the name of its type, put
into a change record with the other fields of the row, decoded from the bytes of
that record, and read by the codec that is registered for the name.  Every step
could lose something: the codecs, the two levels of JSON, or the names, which
several types may share.  `Arrives` says that nothing is lost: a worker calls the
handlers for the type of the event, with the event as it was emitted, and readers of
the log are given the same fields.

Main result: `Gateway.sent_events_arrive`.
-/
import Chronicle.Proofs.Gateway.Log
import Chronicle.Proofs.Registry.Coherence
import Chronicle.Proofs.Stream.ChangeRecord
import Chronicle.Proofs.Stream.Steps
import Mathlib.Logic.Relation

namespace Chronicle

variable {D : Domain} {R W σ : Type}

open Json Session

/-! ### Handlers of a type -/

/-- The handlers of a group for events of a type, in the order in which they were
registered.  Calls that failed added none. -/
def Registration.handlersFor (d : Dependencies D) (calls : List (Registration D σ))
    (group : String) (t : D.EventType) : List (EventHandler D σ t) :=
  Tagged.select t ((accepted d calls).flatMap fun call => call.groupHandlers group)

theorem Registration.select_groupHandlers (d : Dependencies D) (calls : List (Registration D σ))
    (group : String) (t : D.EventType) :
    Tagged.select t ((build d calls).groupHandlers group) = handlersFor d calls group t := by
  rw [(holds_build d calls).groupHandlers]
  rfl

/-- An event whose type has handlers in a group is delivered to them. -/
theorem Registry.Coherent.delivery_eq {r : Registry D σ} (hr : r.Coherent) {group : String}
    {e : AnyEvent D} {payload : String} {metadata : Metadata} {globalId sequence : Int}
    {record : StreamRecord} {bytes : ByteArray}
    (hhandlers : Tagged.select e.type (r.groupHandlers group) ≠ [])
    (hcodec : (D.eventCodec e.type).ReadsBack) (hpayload : e.payload = .ok payload)
    (hvalue : record.value = some bytes)
    (hdecode : Envelope.decode bytes =
      .ok (some ⟨e.typeName, sequence, globalId, payload, metadata⟩)) :
    r.delivery group record =
      .deliver e.typeName ((Tagged.select e.type (r.groupHandlers group)).map fun h =>
        h.call (.forStreamEvent r.dependencies ⟨e.typeName, globalId, some sequence, metadata⟩)
          e.event) := by
  obtain ⟨h, hh⟩ := List.exists_mem_of_ne_nil _ hhandlers
  have hmem := Tagged.mem_select.1 hh
  -- the handler and the decoder of the name are of the same type
  have hdecoder : r.decoders.get? e.typeName = some e.type := hr.groupHandlers group _ hmem
  have hhandles : r.handles group e.typeName = true :=
    handles_iff.2 ⟨_, mem_streamHandlers.2 ⟨hmem, rfl⟩⟩
  rw [delivery, hvalue]
  dsimp only
  rw [hdecode]
  dsimp only
  rw [deliver, if_pos hhandles]
  dsimp only
  rw [decode_payload hcodec hdecoder hpayload]
  dsimp only
  rw [(hr.suits hdecoder).map_callStream]

/-! ### Records in a worker -/

namespace Worker

variable (w : Worker D (Session R W))

/-- A step of a worker that is not told to stop. -/
def Goes (x y : WorkerPhase (Session R W) × Session R W) : Prop := (w.step false x.1).run x.2 = y

/-- What a worker makes of the outcome of the handlers for a record: the record is
processed, or the batch is given up in front of it. -/
def settled (done : List StreamRecord) (record : StreamRecord) (rest : List StreamRecord)
    (typeName : String) :
    Except Error Unit × Session R W → WorkerPhase (Session R W) × Session R W
  | (.ok (), s) =>
    (.batch (done ++ [record]) rest,
      { s with metrics := s.metrics.recordProcessed w.group typeName })
  | (.error e, s) =>
    (.committing done (.rewind (record :: rest)),
      { s with metrics := s.metrics.recordFailed w.group e.kind })

variable (done : List StreamRecord) (record : StreamRecord) (rest : List StreamRecord)
  (typeName : String)

/-- A call that succeeds leaves the rest of the calls. -/
theorem goes_of_ok {call : Task (Session R W) Unit} {s s' : Session R W}
    (hcall : call.run s = (.ok (), s')) (calls : List (Task (Session R W) Unit)) :
    w.Goes (.handling done record rest typeName (call :: calls), s)
      (.handling done record rest typeName calls, s') := by
  show (w.handle done record rest typeName (call :: calls)) s = _
  rw [handle, bind_apply, hcall]
  rfl

/-- A call that fails settles the record. -/
theorem goes_of_error {call : Task (Session R W) Unit} {s s' : Session R W} {e : Error}
    (hcall : call.run s = (.error e, s')) (calls : List (Task (Session R W) Unit)) :
    w.Goes (.handling done record rest typeName (call :: calls), s)
      (w.settled done record rest typeName (.error e, s')) := by
  show (w.handle done record rest typeName (call :: calls)) s = _
  rw [handle, bind_apply, hcall]
  rfl

/-- Calls are made one after the other, up to the first that fails. -/
theorem handling_reaches (calls : List (Task (Session R W) Unit)) (s : Session R W) :
    Relation.ReflTransGen w.Goes (.handling done record rest typeName calls, s)
      (w.settled done record rest typeName ((calls.forM fun call => call).run s)) := by
  induction calls generalizing s with
  | nil => exact .single rfl
  | cons call calls ih =>
    rw [List.forM_eq_forM, List.forM_cons]
    rcases hcall : call.run s with ⟨e | _, s'⟩
    · rw [Task.run_bind_of_error hcall]
      exact .single (w.goes_of_error done record rest typeName hcall calls)
    · rw [Task.run_bind_of_ok hcall]
      exact .head (w.goes_of_ok done record rest typeName hcall calls) (ih s')

/-- A record with a delivery is handled by its calls. -/
theorem batch_reaches {calls : List (Task (Session R W) Unit)}
    (h : w.registry.delivery w.group record = .deliver typeName calls) (s : Session R W) :
    Relation.ReflTransGen w.Goes (.batch done (record :: rest), s)
      (w.settled done record rest typeName ((calls.forM fun call => call).run s)) := by
  refine .head ?_ (w.handling_reaches done record rest typeName calls s)
  show (w.next done (record :: rest)) s = _
  simp only [next, h]
  rfl

end Worker

/-! ### Arrival -/

/-- A record carries the change record of a stored event, in any spelling. -/
def StreamRecord.Carries (record : StreamRecord) (sequence : Int) (row : EventRow) : Prop :=
  ∃ text t, Tree.read? text = some t ∧ Envelope.ChangeRecord sequence row t ∧
    record.value = some text.toUTF8

/-- An event of an aggregate arrives wherever the row under its number is taken. -/
structure Arrives (d : Dependencies D) (calls : List (Registration D (Session R W)))
    (store : Store R) (metadata : Metadata) (e : AnyEvent D) (globalId sequence : Int)
    (row : EventRow) : Prop where
  /-- In a worker, the handlers of its group for the type of the event are called. -/
  handled : ∀ w : Worker D (Session R W), w.registry = Registration.build d calls →
    Registration.handlersFor d calls w.group e.type ≠ [] →
    ∀ record, record.Carries sequence row → ∀ done rest s,
      let info : EventInfo := ⟨e.typeName, globalId, some sequence, metadata⟩
      let handlers := Registration.handlersFor d calls w.group e.type
      Relation.ReflTransGen w.Goes (.batch done (record :: rest), s)
        (w.settled done record rest e.typeName
          ((Registry.callAll e.event (.forStreamEvent d info) handlers).run s))
  /-- In the log, there is one record of the number, and it agrees with the envelope. -/
  read : ∃ records stored, (Store.eventsOf globalId).run store = (.ok records, store) ∧
    stored ∈ records ∧ (∀ other ∈ records, other.globalSequence = sequence → other = stored) ∧
    stored.globalSequence = sequence ∧ stored.aggregateGlobalId = globalId ∧
    stored.typeName = e.typeName ∧ e.payload = .ok stored.payload ∧ stored.metadata = metadata ∧
    ∀ text t, Tree.read? text = some t → Envelope.ChangeRecord sequence row t →
      Envelope.decode text.toUTF8 = .ok (some ⟨stored.typeName, stored.globalSequence,
        stored.aggregateGlobalId, stored.payload, stored.metadata⟩)

/-- An event in the log arrives, if its metadata is plain and the rest of the log can
be read. -/
theorem arrives_of_stored {d : Dependencies D} {calls : List (Registration D (Session R W))}
    (hcodecs : ∀ call ∈ calls, ∀ t ∈ call.events, (D.eventCodec t).ReadsBack) {store : Store R}
    (hnumbered : store.committed.log.Numbered)
    (hlegible : ∀ x ∈ store.committed.log.rows, x.2.Legible) {metadata : Metadata}
    (hplain : metadata.Plain) {e : AnyEvent D} {globalId sequence : Int} {row : EventRow}
    (hrow : Store.eventRow globalId metadata e = .ok row)
    (hmem : (sequence, row) ∈ store.committed.log.rows) (hid : isSigned64 globalId = true)
    (hsequence : isSigned64 sequence = true) :
    Arrives d calls store metadata e globalId sequence row := by
  obtain ⟨payload, hpayload, rfl⟩ := Store.eventRow_eq_ok.1 hrow
  have hmetadata : Metadata.codec.deserialize e.typeName metadata.text = .ok metadata :=
    hplain.read_text _
  refine ⟨?_, ?_⟩
  · rintro w hw hhandlers record ⟨text, t, hread, hchange, hvalue⟩ done rest s info handlers
    have hselect := Registration.select_groupHandlers d calls w.group e.type
    have hdecode := Envelope.decode_changeRecord hread hchange hsequence hid hmetadata
    -- a handler for the type was registered, so its codec is one that reads back
    have hcodec : (D.eventCodec e.type).ReadsBack := by
      obtain ⟨h, hh⟩ := List.exists_mem_of_ne_nil _ hhandlers
      rw [← hselect] at hh
      have hstream := Registry.mem_streamHandlers.2 ⟨Tagged.mem_select.1 hh, rfl⟩
      have hcall := Registration.mem_of_mem_accepted (Registration.streamEvent_mem_accepted hstream)
      exact hcodecs _ hcall e.type List.mem_cons_self
    have hdelivery := (Registration.coherent_build d calls).delivery_eq (hselect ▸ hhandlers)
      hcodec hpayload hvalue hdecode
    rw [hselect, (Registration.holds_build d calls).dependencies, ← hw] at hdelivery
    rw [Registry.callAll_eq_forM]
    exact w.batch_reaches done record rest e.typeName hdelivery s
  · have hrecord : Store.recordOf sequence ⟨globalId, e.typeName, payload, metadata.text⟩ =
        .ok ⟨sequence, globalId, e.typeName, payload, metadata⟩ := Store.recordOf_eq_ok hmetadata
    obtain ⟨records, hrecords, hstored, hunique⟩ :=
      Store.eventsOf_eq_ok hlegible hnumbered hmem hrecord
    refine ⟨records, _, hrecords, hstored, hunique, rfl, rfl, rfl, hpayload, rfl, ?_⟩
    intro text t hread hchange
    exact Envelope.decode_changeRecord hread hchange hsequence hid hmetadata

namespace Gateway

/-- **End to end.**  Take a table built by any calls, with codecs that read back what
they write for all events they are about, and handlers of commands and domain events
that write no events.  Send any commands to an empty store, all with metadata that
can be read, and one of them with plain metadata.  When that one succeeds, the
events that its handler has emitted are the ones that the receipt lists, in order;
each has a row in the log under the number in the receipt, and it arrives.  Numbers
are integers of 64 bits in the store. -/
theorem sent_events_arrive (d : Dependencies D) (calls : List (Registration D (Session R W)))
    (hr : (Registration.build d calls).KeepsLog)
    (hcodecs : ∀ call ∈ calls, ∀ t ∈ call.events, (D.eventCodec t).ReadsBack)
    (readModel : R) (world : W) (xs ys : List (Sending D)) (x : Sending D)
    (hplain : x.metadata.Plain) (hreadable : ∀ y ∈ xs ++ ys, y.metadata.Readable) :
    let r := Registration.build d calls
    let s := after r (Session.start (Database.blank readModel).migrate world) xs
    let sent := (send r x.ctx x.metadata x.type x.command x.seconds).run s
    let store := (after r sent.2 ys).store
    ∀ receipt, sent.1 = .ok receipt →
      ∃ id snapshot state buffer s₁, D.target x.command = some id ∧
        Loaded s.store.committed (D.aggregateOf x.type) id snapshot ∧
        (r.dispatchCommand x.type snapshot.state x.command (.forCommand d x.ctx)).run
          (begun s id x.ctx) = (.ok (state, buffer), s₁) ∧
        List.Forall₂
          (fun e entry => entry.1 = e.typeName ∧ ∃ globalId row,
            receipt.globalId = some globalId ∧ (entry.2, row) ∈ store.committed.log.rows ∧
            (isSigned64 globalId = true → isSigned64 entry.2 = true →
              Arrives d calls store x.metadata e globalId entry.2 row))
          buffer.events receipt.events := by
  intro r s sent store receipt hanswer
  obtain ⟨id, snapshot, state, buffer, s₁, globalId, rows, htarget, hloaded, hcommand, happends⟩ :=
    send_appends hr hanswer
  rw [(Registration.holds_build d calls).dependencies] at hcommand
  refine ⟨id, snapshot, state, buffer, s₁, htarget, hloaded, hcommand, ?_⟩
  have hbefore := goesOn_after hr (fun y hy => hreadable y (List.mem_append_left ys hy))
    (Session.start (Database.blank readModel).migrate world)
  have hsent : s.store.committed.log.GoesOn EventRow.Legible sent.2.store.committed.log :=
    (goesOn_send hr x.ctx x.metadata x.type x.command x.seconds s).mono fun row hrow =>
      EventRow.legible_of_text hplain.readable hrow
  have hbehind := goesOn_after hr (fun y hy => hreadable y (List.mem_append_right xs hy)) sent.2
  -- the log was empty in the beginning
  have hwhole : Table.empty.GoesOn EventRow.Legible store.committed.log :=
    (hbefore.trans hsent).trans hbehind
  have hnumbered := hwhole.numbered Table.numbered_empty
  have hlegible : ∀ e ∈ store.committed.log.rows, e.2.Legible := fun e he =>
    (hwhole.mem_or he).resolve_left List.not_mem_nil
  refine happends.entries.imp ?_
  rintro e entry ⟨hname, hnumber, row, hrow, hmem⟩
  refine ⟨hname, globalId, row, hnumber, hbehind.mem hmem, fun hid hsequence => ?_⟩
  exact arrives_of_stored hcodecs hnumbered hlegible hplain hrow (hbehind.mem hmem) hid hsequence

/-! ### A lamp that is watched -/

/-- Lamps whose events are counted in the read model, and a group that writes down
all it is told of them. -/
def watchedCalls : List (Registration lamps (Session Nat (List EventInfo))) :=
  lampCalls ++
    [.domainEvent () ⟨[.execution], fun ((ctx : ExecutionContext), _) _ =>
      Session.write ctx fun db => .ok ((), { db with readModel := db.readModel + 1 })⟩,
     .streamEvent "watch" () ⟨[.event], fun ((info : EventInfo), _) _ =>
      modify fun s => { s with world := s.world ++ [info] }⟩]

/-- The second try to install a lamp, by Ada. -/
def watchedInstall : Sending lamps where
  ctx := ⟨0⟩
  metadata := (Dictionary.empty.insert "by" (.string "Ada")).insert "try" (.number (.int 2))
  type := .install
  command := Uuid.zero
  seconds := 0

/-- The table of these calls. -/
def watchedTable : Registry lamps (Session Nat (List EventInfo)) :=
  Registration.build Dependencies.empty watchedCalls

/-- The session before anything was sent. -/
def watchedStart : Session Nat (List EventInfo) := Session.start (Database.blank 0).migrate []

/-- The answer to the command, and the session after it. -/
def watchedResult : Except Error Receipt × Session Nat (List EventInfo) :=
  (send watchedTable watchedInstall.ctx watchedInstall.metadata watchedInstall.type
    watchedInstall.command watchedInstall.seconds).run watchedStart

/-- The event of the lamp arrives at the group that watches. -/
theorem watched_lamp_arrives :
    watchedInstall.metadata.Plain ∧
      watchedResult.1 = .ok ⟨Uuid.zero, some 1, 1, [("Switched", 1)]⟩ ∧
      Registration.handlersFor Dependencies.empty watchedCalls "watch" () ≠ [] ∧
      ∃ row, (1, row) ∈ watchedResult.2.store.committed.log.rows ∧
        Arrives Dependencies.empty watchedCalls watchedResult.2.store watchedInstall.metadata
          ⟨(), ()⟩ 1 1 row := by
  have hkeeps : watchedTable.KeepsLog := by
    refine Registration.respects_build fun call hcall => ?_
    simp only [watchedCalls, lampCalls, List.cons_append, List.nil_append, List.mem_cons,
      List.not_mem_nil, or_false] at hcall
    rcases hcall with rfl | rfl | rfl | rfl | rfl
    · exact fun _ _ => Work.respects_pure .refl _
    · exact fun _ _ _ => Work.respects_pure .refl _
    · trivial
    · rintro ⟨ctx, _⟩ _
      apply write_keepsLog
      intro db _ db' h
      cases h
      rfl
    · trivial
  have htry : (Number.int 2).Exact := exact_of_isSigned64 rfl
  have hplain : watchedInstall.metadata.Plain := ⟨⟨trivial, htry, trivial⟩, by decide⟩
  have hanswer : watchedResult.1 = .ok ⟨Uuid.zero, some 1, 1, [("Switched", 1)]⟩ := rfl
  have hhandlers : Registration.handlersFor Dependencies.empty watchedCalls "watch" () ≠ [] := by
    have hlength : (Registration.handlersFor Dependencies.empty watchedCalls "watch" ()).length =
        1 := rfl
    intro hnil
    rw [hnil] at hlength
    cases hlength
  have hall := sent_events_arrive Dependencies.empty watchedCalls hkeeps (fun _ _ _ _ => readsBack_lampEvents)
    0 [] [] [] watchedInstall hplain (fun _ h => absurd h List.not_mem_nil) _ hanswer
  have hafter (s : Session Nat (List EventInfo)) : after watchedTable s [] = s := rfl
  rw [← watchedTable, ← watchedStart] at hall
  simp only [hafter] at hall
  rw [← watchedResult] at hall
  obtain ⟨id, snapshot, state, buffer, s₁, htarget, hloaded, hcommand, harrive⟩ := hall
  refine ⟨hplain, hanswer, hhandlers, ?_⟩
  cases htarget
  cases hloaded with
  | stored hfind => cases hfind
  | fresh =>
    have hbuffer := congrArg Prod.fst hcommand
    cases hbuffer
    cases harrive with
    | cons hfirst _ =>
      obtain ⟨-, globalId, row, hnumber, hrow, harrives⟩ := hfirst
      cases hnumber
      exact ⟨row, hrow, harrives rfl rfl⟩

end Gateway

end Chronicle
