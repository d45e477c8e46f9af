/-
Chronicle/Proofs/Gateway/Tally.lean

The metrics of commands agree with what became of the commands.

Commands are counted after their unit of work has ended, whatever the end was: the
events that were committed one by one, and the command under its name and its
outcome.  Each of these counts therefore is the number of such events in the log or
of such answers (`Gateway.Tallied`), provided that handlers write no events and
count no commands themselves.

Label values are told apart by their hash.  What shares a hash is counted together, and
each count is that of its labels alone wherever no others that were counted share theirs.
There are names that do (`Gateway.signals_counted_together`).

Main result: `Gateway.tallied_served`, after every command.
-/
import Chronicle.Proofs.Gateway.LifeCycle
import Chronicle.Proofs.Metrics

namespace Chronicle

variable {D : Domain} {R W α : Type}

open Session Database

/-! ### The families of commands -/

/-- The families in which commands are counted say the same. -/
structure Metrics.SameCommands (m m' : Metrics) : Prop where
  commands : m'.commands = m.commands
  durations : m'.durations = m.durations
  conflicts : m'.conflicts = m.conflicts
  appended : m'.appended = m.appended

theorem Metrics.SameCommands.refl (m : Metrics) : m.SameCommands m := ⟨rfl, rfl, rfl, rfl⟩

theorem Metrics.SameCommands.trans {m m' m'' : Metrics} (h : m.SameCommands m')
    (h' : m'.SameCommands m'') : m.SameCommands m'' :=
  ⟨h'.commands.trans h.commands, h'.durations.trans h.durations,
    h'.conflicts.trans h.conflicts, h'.appended.trans h.appended⟩

namespace Session

/-- No command is counted. -/
def CountsNone (s s' : Session R W) : Prop := s.metrics.SameCommands s'.metrics

theorem CountsNone.refl (s : Session R W) : s.CountsNone s := Metrics.SameCommands.refl _

theorem CountsNone.trans {s s' s'' : Session R W} (h : s.CountsNone s') (h' : s'.CountsNone s'') :
    s.CountsNone s'' := Metrics.SameCommands.trans h h'

theorem onStore_countsNone (t : Task (Store R) α) :
    (onStore t : Task (Session R W) α).Respects CountsNone :=
  fun s => Metrics.SameCommands.refl s.metrics

/-- Between two commands anything may happen that commits no event, enters no critical
section and counts no command: units of work of others, queries, streams. -/
structure Elsewhere (s s' : Session R W) : Prop where
  log : s'.store.committed.log = s.store.committed.log
  sections : s'.sections = s.sections
  counts : s.CountsNone s'
  occupied : s'.metrics.occupied = s.metrics.occupied

/-- Units of work begin and are rolled back elsewhere. -/
theorem elsewhere_unit (s : Session R W) (unit : Option (UnitOfWork R)) :
    s.Elsewhere { s with store := { s.store with unit } } :=
  ⟨rfl, rfl, Metrics.SameCommands.refl _, rfl⟩

end Session

/-- Handlers that count no commands, and so do not send any. -/
def Registry.CountsNone (r : Registry D (Session R W)) : Prop :=
  r.Respects Session.CountsNone Session.CountsNone

namespace Gateway

/-! ### Before a command is counted -/

theorem allows_countsNone (ctx : ExecutionContext) (metadata : Metadata) :
    Allows D ctx metadata (Session.CountsNone (R := R) (W := W)) where
  refl := .refl
  trans := .trans
  load _ _ := onStore_countsNone _
  save _ := onStore_countsNone _
  append _ _ := onStore_countsNone _

theorem unitOfWork_countsNone (ctx : ExecutionContext) {work : Task (Session R W) α}
    (hwork : work.Respects CountsNone) : (unitOfWork ctx work).Respects CountsNone := by
  refine .bind .trans (onStore_countsNone _) fun _ s => ?_
  have h := hwork s
  rcases hrun : work.run s with ⟨e | a, s₁⟩
  · rw [hrun] at h
    simp only [Task.run_mk, bind_apply, hrun]
    exact h.trans (onStore_countsNone (Store.rollback ctx) s₁)
  · rw [hrun] at h
    have hcommit := h.trans (onStore_countsNone (Store.commit ctx) s₁)
    simp only [Task.run_mk, bind_apply, hrun]
    rcases hend : (onStore (Store.commit ctx) : Task (Session R W) Unit).run s₁ with ⟨e | _, s₂⟩
    · rw [hend] at hcommit
      exact hcommit
    · rw [hend] at hcommit
      exact hcommit

theorem run_countsNone {r : Registry D (Session R W)} (hr : r.CountsNone) (ctx : ExecutionContext)
    (metadata : Metadata) (c : D.CommandType) (command : D.Command c) :
    (run r ctx metadata c command).Respects CountsNone := by
  intro s
  simp only [run, Task.run_get_bind]
  split
  · exact .refl s
  · split
    · exact .refl s
    · rename_i id _
      -- the section only shows in the number of those that are occupied
      have hentered : s.CountsNone (entered s id) := ⟨rfl, rfl, rfl, rfl⟩
      have hwork := unitOfWork_countsNone ctx
        ((allows_countsNone ctx metadata).process hr id c command) (entered s id)
      rw [run_inSection]
      exact hentered.trans hwork

/-! ### Outcomes -/

theorem outcome_eq_ok_iff (answer : Except Error Receipt) :
    outcome answer = "ok" ↔ answer.isOk := by
  rcases answer with e | receipt
  · cases e <;> simp [outcome, Error.kind, Except.isOk, Except.toBool]
  · simp [outcome, Except.isOk, Except.toBool]

/-! ### Counting a command -/

/-- The entries of an answer, which are counted one by one. -/
def entriesOf : Except Error Receipt → List (String × Int)
  | .ok receipt => receipt.events
  | .error _ => []

theorem foldl_recordAppended (entries : List (String × Int)) (m : Metrics) :
    entries.foldl (fun m e => m.recordAppended e.1) m =
      { m with appended := entries.foldl (fun s e => s.increment [e.1]) m.appended } := by
  induction entries generalizing m with
  | nil => rfl
  | cons e es ih => exact ih (m.recordAppended e.1)

theorem measureEvents_apply (answer : Except Error Receipt) (s : Session R W) :
    measureEvents answer s = (⟨⟩, { s with
      metrics := (entriesOf answer).foldl (fun m e => m.recordAppended e.1) s.metrics }) := by
  rcases answer with e | receipt
  · rfl
  · exact run_forM_measure (fun (e : String × Int) m => m.recordAppended e.1) receipt.events s

/-- What is counted of a command. -/
structure Counts (name : String) (answer : Except Error Receipt) (m m' : Metrics) : Prop where
  commands : m'.commands = m.commands.increment [name, outcome answer]
  durations : ∃ seconds, m'.durations = m.durations.update [name] Histogram.empty (·.observe seconds)
  conflicts : m'.conflicts = if outcome answer = "conflict" then m.conflicts + 1 else m.conflicts
  appended : m'.appended = (entriesOf answer).foldl (fun s e => s.increment [e.1]) m.appended

variable {r : Registry D (Session R W)}

/-- A command is counted once, with all of its events, and the sections are counted
as they are in the end. -/
theorem counts_send (hr : r.CountsNone) (s : Session R W) (x : Sending D) :
    Counts (D.commandName x.type) (answerTo r s x) s.metrics (after r s [x]).metrics ∧
      (after r s [x]).metrics.occupied = (Int64.ofNat (after r s [x]).sections.size).toInt := by
  rcases hrun : (run r x.ctx x.metadata x.type x.command).run s with ⟨answer, s₁⟩
  have hnone : s.metrics.SameCommands s₁.metrics :=
    (run_countsNone hr x.ctx x.metadata x.type x.command).run hrun
  let counted := ((entriesOf answer).foldl (fun m e => m.recordAppended e.1) s₁.metrics).recordCommand
    (D.commandName x.type) x.seconds (outcome answer)
  have hsend : (send r x.ctx x.metadata x.type x.command x.seconds).run s =
      (answer, { s₁ with metrics := counted.setOccupied s₁.sections.size }) := by
    simp only [send, Task.run_mk, bind_apply, hrun, measureEvents_apply]
    rfl
  have hanswer : answerTo r s x = answer := congrArg Prod.fst hsend
  have hafter : after r s [x] = { s₁ with metrics := counted.setOccupied s₁.sections.size } :=
    congrArg Prod.snd hsend
  rw [hanswer, hafter]
  refine ⟨⟨?_, ⟨x.seconds, ?_⟩, ?_, ?_⟩, rfl⟩
  all_goals
    simp only [counted, foldl_recordAppended, Metrics.recordCommand, Metrics.setOccupied,
      hnone.commands, hnone.durations, hnone.conflicts, hnone.appended]

/-! ### Events in the log -/

/-- The rows that a command adds to the log are those that its receipt lists. -/
theorem Appends.countP_typeName {metadata : Metadata} {events : List (AnyEvent D)}
    {t t' : Table EventRow} {receipt : Receipt} {globalId : Int} {rows : List EventRow}
    (h : Appends metadata events t t' receipt globalId rows) (p : String → Bool) :
    t'.rows.countP (fun row => p row.2.typeName) =
      t.rows.countP (fun row => p row.2.typeName) + receipt.events.countP fun e => p e.1 := by
  have hnames : rows.map EventRow.typeName = events.map AnyEvent.typeName := by
    have hstored := h.stored
    clear h
    induction hstored with
    | nil => rfl
    | @cons e row events rows hrow _ ih =>
      obtain ⟨payload, -, rfl⟩ := Store.eventRow_eq_ok.1 hrow
      exact congrArg (e.typeName :: ·) ih
  have hlisted : receipt.events.map Prod.fst = rows.map EventRow.typeName := by
    rw [h.answer, hnames, List.map_fst_zip]
    simp [h.stored.length_eq]
  calc
    t'.rows.countP (fun row => p row.2.typeName)
      = t.rows.countP (fun row => p row.2.typeName) +
          (((Table.numbered t.issued rows).map Prod.snd).map EventRow.typeName).countP p := by
        rw [h.log, Table.insertAll, List.countP_append, List.countP_map, List.countP_map]
        rfl
    _ = t.rows.countP (fun row => p row.2.typeName) +
          (receipt.events.map Prod.fst).countP p := by
        rw [Table.map_snd_numbered, hlisted]
    _ = _ := by
        rw [List.countP_map]
        rfl

/-- The committed log has as many more rows of some types as the answer has entries. -/
theorem countP_send {ρ δ : Database R → Database R → Prop} (hr : r.Confined ρ δ)
    (hlog : r.KeepsLog) (s : Session R W) (x : Sending D) (p : String → Bool) :
    (after r s [x]).store.committed.log.rows.countP (fun row => p row.2.typeName) =
      s.store.committed.log.rows.countP (fun row => p row.2.typeName) +
        (entriesOf (answerTo r s x)).countP fun e => p e.1 := by
  rcases h : answerTo r s x with e | receipt
  · have hstore : (after r s [x]).store = s.store := store_of_error hr (Prod.ext h rfl)
    rw [hstore]
    rfl
  · obtain ⟨_, _, _, _, _, _, _, -, -, -, happends⟩ := send_appends hlog h
    exact happends.countP_typeName p

/-! ### All commands -/

/-- The answers that a gateway has given since a session, and the session in which it
has given them. -/
inductive Served (r : Registry D (Session R W)) (start : Session R W) :
    List (Sending D × Except Error Receipt) → Session R W → Prop
  | start : Served r start [] start
  | sent {answered : List (Sending D × Except Error Receipt)} {s : Session R W} (x : Sending D) :
      Served r start answered s → Served r start (answered ++ [(x, answerTo r s x)]) (after r s [x])
  | elsewhere {answered : List (Sending D × Except Error Receipt)} {s s' : Session R W} :
      Served r start answered s → s.Elsewhere s' → Served r start answered s'

/-- The labels under which an answer is counted. -/
def labelsOf (a : Sending D × Except Error Receipt) : List String :=
  [D.commandName a.1.type, outcome a.2]

/-- The metrics agree with the log and with the answers. -/
structure Tallied (answered : List (Sending D × Except Error Receipt)) (s : Session R W) :
    Prop where
  /-- Events are counted by the key of their type, as the rows in the log. -/
  events : ∀ name, s.metrics.appended.count [name] =
    s.store.committed.log.rows.countP fun row =>
      Series.key [row.2.typeName] == Series.key [name]
  /-- If no other type in the log shares its key, these are the rows of the type. -/
  appended : ∀ name,
    Series.Unshared [name] (s.store.committed.log.rows.map fun row => [row.2.typeName]) →
    s.metrics.appended.count [name] =
      s.store.committed.log.rows.countP fun row => row.2.typeName == name
  /-- Commands are counted by the key of name and outcome, as the answers. -/
  commands : ∀ labels, s.metrics.commands.count labels =
    answered.countP fun a => Series.key (labelsOf a) == Series.key labels
  /-- If none of its answers share their key with others, a command is counted over all
  outcomes as often as it was sent. -/
  sent : ∀ name, (∀ a ∈ answered, D.commandName a.1.type = name →
      Series.Unshared (labelsOf a) (answered.map labelsOf)) →
    s.metrics.commands.total (fun labels => labels.head? == some name) =
      answered.countP fun a => D.commandName a.1.type == name
  /-- So are the durations of the command, if no other name shares its key. -/
  timed : ∀ name, Series.Unshared [name] (answered.map fun a => [D.commandName a.1.type]) →
    ((s.metrics.durations.get? [name]).getD Histogram.empty).count =
      answered.countP fun a => D.commandName a.1.type == name
  /-- Successes are the answers that are receipts. -/
  succeeded : ∀ name, Series.Unshared [name, "ok"] (answered.map labelsOf) →
    s.metrics.commands.count [name, "ok"] =
      answered.countP fun a => D.commandName a.1.type == name && a.2.isOk
  /-- The answers that are conflicts are counted apart. -/
  conflicts : s.metrics.conflicts = answered.countP fun a => outcome a.2 == "conflict"
  /-- They are those counted with their commands, if none of them share their key with
  others. -/
  conflicting : (∀ a ∈ answered, outcome a.2 = "conflict" →
      Series.Unshared (labelsOf a) (answered.map labelsOf)) →
    s.metrics.conflicts =
      s.metrics.commands.total fun labels => labels.getLast? == some "conflict"
  /-- No critical section is occupied. -/
  free : s.metrics.occupied = 0

/-- What one command after the other preserves. -/
structure Tally (answered : List (Sending D × Except Error Receipt)) (s : Session R W) :
    Prop where
  appended : ∀ name, s.metrics.appended.count [name] =
    s.store.committed.log.rows.countP fun row =>
      Series.key [row.2.typeName] == Series.key [name]
  commands : s.metrics.commands = Series.ofLabels (answered.map labelsOf)
  durations : ∀ name, ((s.metrics.durations.get? [name]).getD Histogram.empty).count =
    answered.countP fun a => Series.key [D.commandName a.1.type] == Series.key [name]
  conflicts : s.metrics.conflicts = answered.countP fun a => outcome a.2 == "conflict"
  free : s.metrics.occupied = 0
  sections : CriticalSections.empty.SameOccupants s.sections

section

variable {answered : List (Sending D × Except Error Receipt)} {s : Session R W}

theorem Tally.start {db : Database R} (hdb : db.log.rows = []) (world : W) :
    Tally ([] : List (Sending D × Except Error Receipt)) (Session.start db world) where
  appended name := by
    show 0 = db.log.rows.countP _
    rw [hdb]
    rfl
  commands := rfl
  durations _ := rfl
  conflicts := rfl
  free := rfl
  sections := .refl _

theorem Tally.elsewhere {s' : Session R W} (h : Tally answered s) (hs' : s.Elsewhere s') :
    Tally answered s' where
  appended := by
    rw [hs'.counts.appended, hs'.log]
    exact h.appended
  commands := hs'.counts.commands.trans h.commands
  durations := by
    rw [hs'.counts.durations]
    exact h.durations
  conflicts := hs'.counts.conflicts.trans h.conflicts
  free := hs'.occupied.trans h.free
  sections := by
    rw [hs'.sections]
    exact h.sections

/-- A command leaves the metrics in agreement, however it ends. -/
theorem Tally.send (hr : r.Confined (fun _ _ => True) fun _ _ => True) (hlog : r.KeepsLog)
    (hcounts : r.CountsNone) (h : Tally answered s) (x : Sending D) :
    Tally (answered ++ [(x, answerTo r s x)]) (after r s [x]) := by
  obtain ⟨hcounted, hoccupied⟩ := counts_send hcounts s x
  have hwellFormed : s.sections.WellFormed := by
    obtain ⟨htable, htickets, hline⟩ := h.sections
    refine ⟨?_, ?_, ?_, ?_⟩
    · rw [htable]
      exact .nil
    all_goals
      simp only [htable, htickets, hline]
      exact fun _ hmem => absurd hmem List.not_mem_nil
  have hsections : CriticalSections.empty.SameOccupants (after r s [x]).sections :=
    h.sections.trans (sections_send admits_true hr x.ctx x.metadata x.type x.command x.seconds
      hwellFormed)
  refine ⟨fun name => ?_, ?_, fun name => ?_, ?_, ?_, hsections⟩
  · -- the events of the receipt are those that were added to the log
    rw [hcounted.appended, Series.count_foldl_increment, h.appended,
      countP_send hr hlog s x fun typeName => Series.key [typeName] == Series.key [name]]
  · rw [hcounted.commands, h.commands, List.map_append]
    exact (Series.ofLabels_concat _ _).symm
  · obtain ⟨seconds, hdurations⟩ := hcounted.durations
    rw [hdurations, Series.get?_update, List.countP_append, ← h.durations]
    by_cases hkey : Series.key [D.commandName x.type] = Series.key [name]
    · simp only [hkey, if_true, Option.getD_some, Histogram.observe, List.countP_singleton,
        beq_self_eq_true, Series.get?_congr s.metrics.durations hkey]
    · simp [hkey]
  · rw [hcounted.conflicts, h.conflicts, List.countP_append, List.countP_singleton]
    by_cases hconflict : outcome (answerTo r s x) = "conflict"
    · simp [hconflict]
    · simp [hconflict]
  · rw [hoccupied, CriticalSections.size, hsections.table]
    rfl

/-- A total over the labels of answers. -/
theorem Tally.total (h : Tally answered s) {p : List String → Bool}
    (hp : ∀ a ∈ answered, p (labelsOf a) → Series.Unshared (labelsOf a) (answered.map labelsOf)) :
    s.metrics.commands.total p = answered.countP fun a => p (labelsOf a) := by
  rw [h.commands, Series.total_ofLabels, List.countP_map]
  · rfl
  · rintro _ hlabels
    obtain ⟨a, ha, rfl⟩ := List.mem_map.1 hlabels
    exact hp a ha

theorem Tally.tallied (h : Tally answered s) : Tallied answered s where
  events := h.appended
  appended name hname := by
    rw [h.appended, Series.countP_of_unshared (f := fun row : Int × EventRow => [row.2.typeName]) hname]
    simp
  commands labels := by
    rw [h.commands, Series.count_ofLabels, List.countP_map]
    rfl
  sent name hname := by
    rw [h.total fun a ha hp => hname a ha (by simpa [labelsOf] using hp)]
    simp [labelsOf]
  timed name hname := by
    rw [h.durations, Series.countP_of_unshared
      (f := fun a : Sending D × Except Error Receipt => [D.commandName a.1.type]) hname]
    simp
  succeeded name hname := by
    rw [h.commands, Series.count_ofLabels, List.countP_map]
    refine (Series.countP_of_unshared (f := labelsOf) hname).trans (List.countP_congr fun a _ => ?_)
    simp [labelsOf, outcome_eq_ok_iff]
  conflicts := h.conflicts
  conflicting hconflict := by
    rw [h.conflicts, h.total fun a ha hp => hconflict a ha (by simpa [labelsOf] using hp)]
    simp [labelsOf]
  free := h.free

end

/-- **Metrics of commands.**  Let the handlers of commands and domain events use the unit
of work that they find, write no events, and count no commands.  Send commands one after
the other through a gateway that nothing was counted for, to a store without events.
Labels that have one hash are counted together.  After each command, if no others that
were counted share the hash of the labels,

* every event type is counted as often as the committed log has a row of its name;
* every command is counted, over all outcomes, as often as it was sent, which is the
  number of its durations, and with the outcome `ok` as often as it succeeded;
* the conflicts that are counted are those counted with their commands;

and in any case

* events are counted as often as the committed log has a row whose name has their hash,
  and commands as often as there was an answer to one whose labels have their hash;
* as many conflicts are counted as there were;
* no critical section is counted as occupied.

What happens between the commands may be anything that commits no events, enters no
critical section and counts no command. -/
theorem tallied_served {r : Registry D (Session R W)}
    (hr : r.Confined (fun _ _ => True) fun _ _ => True) (hlog : r.KeepsLog)
    (hcounts : r.CountsNone) {db : Database R} (hdb : db.log.rows = []) (world : W)
    {answered : List (Sending D × Except Error Receipt)} {s : Session R W}
    (hs : Served r (Session.start db world) answered s) : Tallied answered s := by
  have htally : Tally answered s := by
    induction hs with
    | start => exact .start hdb world
    | sent x _ ih => exact ih.send hr hlog hcounts x
    | elsewhere _ hs' ih => exact ih.elsewhere hs'
  exact htally.tallied

/-- The handlers of lamps write no events and count no commands. -/
theorem quiet_lampCalls : lampRegistry.KeepsLog ∧ lampRegistry.CountsNone :=
  ⟨Registration.respects_build fun call hcall => (pure_lampCalls call hcall).respects .refl .refl,
    Registration.respects_build fun call hcall => (pure_lampCalls call hcall).respects .refl .refl⟩

/-- A lamp is installed.  It cannot be switched while another context has a unit of work,
and is switched after that.  It cannot be installed again. -/
theorem tallied_lamp :
    ∃ answered s, Served lampRegistry (Session.start (blank ()).migrate ()) answered s ∧
      answered.map (fun a => outcome a.2) = ["ok", "database", "ok", "aggregate_already_exists"] ∧
      s.metrics.appended.count ["Switched"] = 2 ∧
      s.metrics.commands.total (fun labels => labels.head? == some "Switch") = 2 ∧
      s.metrics.commands.count ["Switch", "ok"] = 1 ∧ s.metrics.occupied = 0 := by
  let install : Sending lamps := ⟨⟨0⟩, Dictionary.empty, .install, Uuid.zero, 0⟩
  let s₁ := after lampRegistry (Session.start (blank ()).migrate ()) [install]
  let s₂ := after lampRegistry (s₁.opened ⟨1⟩) [lampSwitch]
  let s₃ : Session Unit Unit := { s₂ with store := { s₂.store with unit := none } }
  let s₄ := after lampRegistry s₃ [lampSwitch]
  have hopened : s₁.Elsewhere (s₁.opened ⟨1⟩) := s₁.elsewhere_unit _
  have hclosed : s₂.Elsewhere s₃ := s₂.elsewhere_unit none
  have h₁ : Served lampRegistry (Session.start (blank ()).migrate ()) _ s₁ := .sent install .start
  have h₂ : Served lampRegistry (Session.start (blank ()).migrate ()) _ s₂ :=
    .sent lampSwitch (h₁.elsewhere hopened)
  have h₄ : Served lampRegistry (Session.start (blank ()).migrate ()) _ s₄ :=
    .sent lampSwitch (h₂.elsewhere hclosed)
  have hserved := h₄.sent install
  have hconfined : lampRegistry.Confined (fun _ _ => True) fun _ _ => True :=
    confined_lampCalls.mono (fun _ _ _ => trivial) fun _ _ _ => trivial
  have htallied := tallied_served hconfined quiet_lampCalls.1 quiet_lampCalls.2 rfl () hserved
  refine ⟨_, _, hserved, ?_, ?_, ?_, ?_, htallied.free⟩
  · decide +kernel +zetaReduce
  · refine (htallied.appended _ ?_).trans ?_
    · decide +kernel +zetaReduce
    · decide +kernel +zetaReduce
  · refine (htallied.sent _ ?_).trans ?_
    · decide +kernel +zetaReduce
    · decide +kernel +zetaReduce
  · refine (htallied.succeeded _ ?_).trans ?_
    · decide +kernel +zetaReduce
    · decide +kernel +zetaReduce

/-- Lamps with two types of events, whose names have one hash. -/
def signalLamps : Domain :=
  { lamps with
    EventType := Bool
    decEventType := inferInstance
    Event _ := Unit
    eventName on := if on then "EklsBm6ZYXzE" else "EaYgQdsf43tQ"
    eventPath _ := "lamps::Signal"
    eventCodec _ := ⟨fun _ => .ok .null, fun _ => some ()⟩ }

/-- A lamp that is installed gives both signals. -/
def signalCalls : List (Registration signalLamps (Session Unit Unit)) :=
  [.creation .install ⟨[], fun _ _ => pure (false, ⟨[⟨true, ()⟩, ⟨false, ()⟩]⟩)⟩,
   .state ⟨(), true, fun _ _ => true⟩,
   .state ⟨(), false, fun _ _ => false⟩]

theorem pure_signalCalls : ∀ call ∈ signalCalls, call.Pure := by
  intro call hcall
  simp only [signalCalls, List.mem_cons, List.not_mem_nil, or_false] at hcall
  rcases hcall with rfl | rfl | rfl
  · exact fun _ _ => ⟨_, rfl⟩
  · trivial
  · trivial

/-- The registry of such lamps. -/
def signalRegistry : Registry signalLamps (Session Unit Unit) :=
  Registration.build Dependencies.empty signalCalls

/-- One row is committed for each signal, and both are counted as the first one. -/
theorem signals_counted_together :
    signalRegistry.Confined (fun _ _ => True) (fun _ _ => True) ∧ signalRegistry.KeepsLog ∧
      signalRegistry.CountsNone ∧
      ∃ answered s, Served signalRegistry (Session.start (blank ()).migrate ()) answered s ∧
        ¬∀ name, s.metrics.appended.count [name] =
          s.store.committed.log.rows.countP fun row => row.2.typeName == name := by
  have hconfined : signalRegistry.Confined (fun _ _ => True) fun _ _ => True :=
    Registration.confined_build fun call hcall =>
      (pure_signalCalls call hcall).confined (fun _ => trivial) fun _ => trivial
  have hquiet {Q : Session Unit Unit → Session Unit Unit → Prop} (hrefl : ∀ s, Q s s) :
      signalRegistry.Respects Q Q :=
    Registration.respects_build fun call hcall => (pure_signalCalls call hcall).respects hrefl hrefl
  let install : Sending signalLamps := ⟨⟨0⟩, Dictionary.empty, .install, Uuid.zero, 0⟩
  have hserved : Served signalRegistry (Session.start (blank ()).migrate ()) _ _ :=
    .sent install .start
  refine ⟨hconfined, hquiet .refl, hquiet .refl, _, _, hserved, fun hall => ?_⟩
  have hsame := hall "EklsBm6ZYXzE"
  revert hsame
  decide +kernel +zetaReduce

end Gateway

end Chronicle
