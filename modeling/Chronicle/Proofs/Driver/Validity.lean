/-
Chronicle/Proofs/Driver/Validity.lean

Whatever is stored of drivers keeps the rules of the business.

The rules are checked on commands.  What is stored is the trimmed name, in an event and
in the snapshot that its state handler makes of it, and later commands load the snapshot
again.  `Driver.Valid` says of a database that all drivers and events in it keep the
rules, and where in the run they come from: every driver and every registration goes back
to a command that was sent on a day that the date of birth does not come after.

A command adds a row for a driver or changes one, and it adds events.  The names of
events of other businesses are not those of drivers', since they would be decoded as such
(`Setting.typeName_of_other`).

Main result: `drivers_valid`, for any sequence of commands on any days.
-/
import Chronicle.Proofs.Driver.Agreement
import Chronicle.Proofs.Gateway.LifeCycle

namespace Chronicle

variable {D : Domain} {R W : Type}

namespace Driver

variable {O : Domain}

open Session Database Gateway Registration

/-! ### Names -/

/-- A name as it is kept: nothing of the white space around it, and between one and 120
characters. -/
structure Kept (name : String) : Prop where
  start : ∀ c ∈ name.toList.head?, Text.isBlank c = false
  finish : ∀ c ∈ name.toList.getLast?, Text.isBlank c = false
  length : 1 ≤ name.length ∧ name.length ≤ 120

/-- A name is refused for its length only. -/
theorem validName_eq_ok {name kept : String} : validName name = .ok kept ↔
    kept = Text.trim name ∧ 1 ≤ kept.length ∧ kept.length ≤ 120 := by
  have hempty : (Text.trim name).isEmpty = true ↔ (Text.trim name).length = 0 := by
    rw [String.isEmpty_iff, String.length_eq_zero_iff]
  unfold validName
  dsimp only
  split
  · rename_i h
    have hzero := hempty.1 h
    constructor
    · nofun
    · rintro ⟨rfl, hone, -⟩
      omega
  · rename_i h
    have hzero : (Text.trim name).length ≠ 0 := fun hzero => h (hempty.2 hzero)
    split
    · rename_i hlong
      constructor
      · nofun
      · rintro ⟨rfl, -, hshort⟩
        exact absurd hlong (Nat.not_lt.2 hshort)
    · rename_i hshort
      constructor
      · intro hok
        cases hok
        exact ⟨rfl, by omega, Nat.not_lt.1 hshort⟩
      · rintro ⟨rfl, -⟩
        rfl

theorem kept_of_validName {name kept : String} (h : validName name = .ok kept) : Kept kept := by
  obtain ⟨rfl, hlength⟩ := validName_eq_ok.1 h
  have htrim : (Text.trim name).toList = Text.trimChars name.toList := String.toList_ofList
  exact ⟨fun c hc => Text.isBlank_of_head?_trimChars (htrim ▸ hc),
    fun c hc => Text.isBlank_of_getLast?_trimChars (htrim ▸ hc), hlength⟩

/-! ### Rules -/

theorem register_eq_ok {today : Date} {c : RegisterDriver} {e : DriverRegistered} :
    register today c = .ok e ↔ ∃ name, validName c.name = .ok name ∧
      c.dateOfBirth.isAfter today = false ∧ e = ⟨c.id, name, c.dateOfBirth⟩ := by
  rcases hname : validName c.name with fault | name
  · simp [register, hname, bind, Except.bind]
  · rcases hborn : c.dateOfBirth.isAfter today with _ | _
    · simp [register, hname, hborn, bind, Except.bind, pure, Except.pure, eq_comm]
    · simp [register, hname, hborn, bind, Except.bind, throw, throwThe, MonadExceptOf.throw]

theorem amendName_eq_ok {d : Driver} {c : AmendDriverName} {e : Option DriverNameAmended} :
    amendName d c = .ok e ↔ ∃ name, validName c.name = .ok name ∧
      e = if name = d.name then none else some ⟨c.id, name⟩ := by
  rcases hname : validName c.name with fault | name
  · simp [amendName, hname, bind, Except.bind]
  · simp only [amendName, hname, bind, Except.bind, pure, Except.pure, Except.ok.injEq,
      exists_eq_left']
    split
    · simp [eq_comm]
    · simp [eq_comm]

/-! ### Commands that are refused -/

/-- A command to register a driver, with what it is sent with. -/
def registering (ctx : ExecutionContext) (metadata : Metadata) (c : RegisterDriver)
    (seconds : Float) : Sending (beside O) :=
  ⟨ctx, metadata, .register, c, seconds⟩

/-- Likewise one to amend the name of a driver. -/
def amending (ctx : ExecutionContext) (metadata : Metadata) (c : AmendDriverName)
    (seconds : Float) : Sending (beside O) :=
  ⟨ctx, metadata, .amendName, c, seconds⟩

/-- The trimmed name is empty or too long. -/
def Misnamed (name : String) : Prop :=
  (Text.trim name).length = 0 ∨ 120 < (Text.trim name).length

theorem Misnamed.validName_ne {name kept : String} (h : Misnamed name) :
    validName name ≠ .ok kept := by
  intro hok
  obtain ⟨rfl, hone, hshort⟩ := validName_eq_ok.1 hok
  rcases h with hzero | hlong
  · omega
  · omega

/-- A command breaks the rules on a given day. -/
inductive Faulty (today : Date) : Sending (beside O) → Prop
  | name {ctx : ExecutionContext} {metadata : Metadata} {c : RegisterDriver} {seconds : Float} :
      Misnamed c.name → Faulty today (registering ctx metadata c seconds)
  | born {ctx : ExecutionContext} {metadata : Metadata} {c : RegisterDriver} {seconds : Float} :
      c.dateOfBirth.isAfter today = true → Faulty today (registering ctx metadata c seconds)
  | newName {ctx : ExecutionContext} {metadata : Metadata} {c : AmendDriverName}
      {seconds : Float} : Misnamed c.name → Faulty today (amending ctx metadata c seconds)

namespace Setting

variable (S : Setting O W) {today : Date}

/-- A command that breaks the rules is refused in every state, and leaves the store as it
was. -/
theorem refused_of_faulty {x : Sending (beside O)} (hx : Faulty today x) (s : Scene W) :
    ∃ e, answerTo (S.registry today) s x = .error e ∧
      (Gateway.after (S.registry today) s [x]).store = s.store := by
  rcases hanswer : answerTo (S.registry today) s x with e | receipt
  · exact ⟨e, rfl, store_of_error S.confined_registry (Prod.ext hanswer rfl)⟩
  · -- the rule has been kept when the handler succeeds
    exfalso
    obtain ⟨found, ctx, ⟨state, buffer⟩, s₁, s₂, hcommand⟩ :=
      exists_dispatchCommand_of_answerTo hanswer
    cases hx with
    | name hname =>
      obtain ⟨-, -, e, hrule, -⟩ := S.emitted_register hcommand
      obtain ⟨kept, hkept, -⟩ := register_eq_ok.1 hrule
      exact hname.validName_ne hkept
    | born hborn =>
      obtain ⟨-, -, e, hrule, -⟩ := S.emitted_register hcommand
      obtain ⟨-, -, htoday, -⟩ := register_eq_ok.1 hrule
      cases hborn.symm.trans htoday
    | newName hname =>
      obtain ⟨e, -, hrule, -⟩ := S.emitted_amendName hcommand
      obtain ⟨kept, hkept, -⟩ := amendName_eq_ok.1 hrule
      exact hname.validName_ne hkept

/-! ### Names of events -/

/-- An event that changes a state is decoded under its name. -/
theorem decoders_of_dispatchState {a : (beside O).AggregateType} {state state' : (beside O).State a}
    {e : AnyEvent (beside O)} (h : (S.registry today).dispatchState a state e = .ok state') :
    (S.registry today).decoders.get? e.typeName = some e.type := by
  obtain ⟨f, hf, htype⟩ := Registry.exists_handler_of_dispatchState h
  have hdecoder := (coherent_build _ _).states f hf
  rw [htype] at hdecoder
  exact hdecoder

/-- An event of another business that changes a state has a name of its own. -/
theorem typeName_of_other {a : (beside O).AggregateType} {state state' : (beside O).State a}
    {e : AnyEvent (beside O)} (h : (S.registry today).dispatchState a state e = .ok state')
    {t : O.EventType} (ht : e.type = EventType.other t) :
    e.typeName ≠ "DriverRegistered" ∧ e.typeName ≠ "DriverNameAmended" := by
  have hdecoder := S.decoders_of_dispatchState h
  -- the names of drivers' events are decoded as these, for they change drivers
  have hregistered : (S.registry today).decoders.get? "DriverRegistered" = some .registered :=
    S.decoders_of_dispatchState (S.dispatchState_registered blank ⟨Uuid.zero, "", newYear⟩)
  have hamended : (S.registry today).decoders.get? "DriverNameAmended" = some .nameAmended :=
    S.decoders_of_dispatchState (S.dispatchState_nameAmended blank ⟨Uuid.zero, ""⟩)
  rw [ht] at hdecoder
  constructor
  · intro hname
    rw [hname] at hdecoder
    cases hdecoder.symm.trans hregistered
  · intro hname
    rw [hname] at hdecoder
    cases hdecoder.symm.trans hamended

/-! ### Runs -/

theorem after_concat (s : Scene W) (xs : List (Date × Sending (beside O)))
    (x : Date × Sending (beside O)) :
    S.after s (xs ++ [x]) = Gateway.after (S.registry x.1) (S.after s xs) [x.2] := by
  rw [after, List.foldl_append]
  rfl

theorem confined_sameTables (today : Date) :
    (S.registry today).Confined SameTables SameTables :=
  S.confined_registry.mono (fun _ _ h => h ▸ .refl _) fun _ _ h => h

theorem sound_after {s : Scene W} (hs : s.store.committed.Sound)
    (xs : List (Date × Sending (beside O))) : (S.after s xs).store.committed.Sound := by
  induction xs using List.reverseRecOn with
  | nil => exact hs
  | append_singleton xs x ih =>
    rw [S.after_concat]
    exact Gateway.sound_after (S.confined_sameTables x.1) ih [x.2]

theorem unit_after {s : Scene W} (hs : s.store.unit = none)
    (xs : List (Date × Sending (beside O))) : (S.after s xs).store.unit = none := by
  induction xs using List.reverseRecOn with
  | nil => exact hs
  | append_singleton xs x ih =>
    rw [S.after_concat]
    exact Gateway.unit_after S.confined_registry ih [x.2]

/-! ### What is stored -/

/-- A driver was registered under a number, with the event of another number: the command
was sent in the course of a run, on a day that the date of birth does not come after. -/
def Registered (start : Scene W) (xs : List (Date × Sending (beside O))) (g : Int) (id : Uuid)
    (born : Date) (n : Int) : Prop :=
  ∃ earlier today ctx metadata name seconds later,
    let x : Sending (beside O) := registering ctx metadata ⟨id, name, born⟩ seconds
    xs = earlier ++ (today, x) :: later ∧ born.isAfter today = false ∧
      answerTo (S.registry today) (S.after start earlier) x =
        .ok ⟨id, some g, n, [("DriverRegistered", n)]⟩

/-- A driver keeps the rules. -/
structure Proper (start : Scene W) (xs : List (Date × Sending (beside O))) (g : Int) (id : Uuid)
    (d : Driver) : Prop where
  driverId : d.id = id
  name : Kept d.name
  born : ∃ date n, d.dateOfBirth = some date ∧ S.Registered start xs g id date n

/-- A number is that of a driver with an id. -/
def Owner (db : Database ReadModel) (g : Int) (id : Uuid) : Prop :=
  ∃ row, (g, row) ∈ db.snapshots.rows ∧ row.typeName = "Driver" ∧ row.identifier = id

/-- An event in the log keeps the rules, if it is one of drivers. -/
structure ValidEvent (start : Scene W) (xs : List (Date × Sending (beside O)))
    (db : Database ReadModel) (n : Int) (row : EventRow) : Prop where
  registered : row.typeName = "DriverRegistered" → ∃ e,
    registeredCodec.deserialize row.typeName row.payload = .ok e ∧ Kept e.name ∧
      Owner db row.aggregateGlobalId e.driverId ∧
      S.Registered start xs row.aggregateGlobalId e.driverId e.dateOfBirth n
  amended : row.typeName = "DriverNameAmended" → ∃ e,
    nameAmendedCodec.deserialize row.typeName row.payload = .ok e ∧ Kept e.name ∧
      Owner db row.aggregateGlobalId e.driverId

/-- All that is stored of drivers keeps the rules. -/
structure Valid (start : Scene W) (xs : List (Date × Sending (beside O)))
    (db : Database ReadModel) : Prop where
  drivers : ∀ g row, (g, row) ∈ db.snapshots.rows → row.typeName = "Driver" →
    ∃ d, codec.deserialize row.typeName row.state = .ok d ∧
      S.Proper start xs g row.identifier d
  events : ∀ n row, (n, row) ∈ db.log.rows → S.ValidEvent start xs db n row

variable {S} {start : Scene W} {xs : List (Date × Sending (beside O))}
  {x : Date × Sending (beside O)} {db db' : Database ReadModel} {g n : Int} {id : Uuid}

/-! ### Later commands -/

theorem Registered.concat {born : Date} (h : S.Registered start xs g id born n)
    (x : Date × Sending (beside O)) : S.Registered start (xs ++ [x]) g id born n := by
  obtain ⟨earlier, today, ctx, metadata, name, seconds, later, rfl, hborn, hanswer⟩ := h
  exact ⟨earlier, today, ctx, metadata, name, seconds, later ++ [x],
    by rw [List.append_assoc, List.cons_append], hborn, hanswer⟩

theorem Proper.concat {d : Driver} (h : S.Proper start xs g id d)
    (x : Date × Sending (beside O)) : S.Proper start (xs ++ [x]) g id d where
  driverId := h.driverId
  name := h.name
  born := by
    obtain ⟨date, n, hdate, hregistered⟩ := h.born
    exact ⟨date, n, hdate, hregistered.concat x⟩

theorem Owner.keeps (h : Owner db g id) (hkeeps : db.Keeps db') : Owner db' g id := by
  obtain ⟨row, hrow, hname, hid⟩ := h
  obtain ⟨row', hrow', hid', hname'⟩ := hkeeps g row hrow
  exact ⟨row', hrow', hname'.trans hname, hid'.trans hid⟩

theorem ValidEvent.concat {row : EventRow} (h : S.ValidEvent start xs db n row)
    (hkeeps : db.Keeps db') (x : Date × Sending (beside O)) :
    S.ValidEvent start (xs ++ [x]) db' n row where
  registered hname := by
    obtain ⟨e, hread, hkept, howner, hregistered⟩ := h.registered hname
    exact ⟨e, hread, hkept, howner.keeps hkeeps, hregistered.concat x⟩
  amended hname := by
    obtain ⟨e, hread, hkept, howner⟩ := h.amended hname
    exact ⟨e, hread, hkept, howner.keeps hkeeps⟩

theorem Valid.same (h : S.Valid start xs db) (hsame : db.SameTables db')
    (x : Date × Sending (beside O)) : S.Valid start (xs ++ [x]) db' where
  drivers g row hrow hname := by
    rw [hsame.snapshots] at hrow
    obtain ⟨d, hread, hproper⟩ := h.drivers g row hrow hname
    exact ⟨d, hread, hproper.concat x⟩
  events n row hrow := by
    rw [hsame.log] at hrow
    exact (h.events n row hrow).concat hsame.keeps x

/-- The driver that a command finds keeps the rules. -/
theorem Valid.proper_of_loaded (h : S.Valid start xs db) (hdb : db.Sound)
    {snapshot : Snapshot (beside O) .driver} (hloaded : Loaded (D := beside O) db .driver id snapshot)
    {d : Driver} (hstate : snapshot.state = some d) :
    ∃ g, snapshot.globalId = some g ∧ S.Proper start xs g id d := by
  cases hloaded with
  | fresh => cases hstate
  | @stored g row state hfind hname hread =>
    cases hstate
    obtain ⟨hrow, rfl⟩ := hdb.findAggregate_eq_some.1 hfind
    obtain ⟨d', hread', hproper⟩ := h.drivers g row hrow hname
    cases hread'.symm.trans (Codec.deserialize_of_optional hread)
    exact ⟨g, rfl, hproper⟩

/-! ### Commands that store events -/

section

variable {r : Registry (beside O) (Scene W)} {metadata : Metadata} {a : (beside O).AggregateType}
  {snapshot : Snapshot (beside O) a} {state final : (beside O).State a}
  {events : List (AnyEvent (beside O))} {receipt : Receipt} {text : String} {rows : List EventRow}

/-- What remains to be seen of a command are the row of its aggregate and its events. -/
theorem Valid.effect (h : S.Valid start xs db) (hdb : db.Sound) (hdb' : db'.Sound)
    (hloaded : Loaded db a id snapshot)
    (heffect : Effect r metadata snapshot state events db db' receipt g final text rows)
    (hrow : snapshot.typeName = "Driver" → ∃ d,
      codec.deserialize snapshot.typeName text = .ok d ∧ S.Proper start (xs ++ [x]) g id d)
    (hevents : ∀ n row, (n, row) ∈ Table.numbered db.log.issued rows →
      S.ValidEvent start (xs ++ [x]) db' n row) : S.Valid start (xs ++ [x]) db' where
  drivers g' row hmem hname := by
    by_cases hg : g' = g
    · subst hg
      cases hdb'.snapshots.unique hmem heffect.current
      obtain ⟨d, hread, hproper⟩ := hrow hname
      exact ⟨d, hread, hloaded.businessId ▸ hproper⟩
    · -- any other row is as it was
      obtain ⟨d, hread, hproper⟩ := h.drivers g' row ((heffect.mem_of_ne hg).1 hmem) hname
      exact ⟨d, hread, hproper.concat x⟩
  events n row hmem := by
    rw [heffect.log] at hmem
    rcases List.mem_append.1 hmem with hmem | hmem
    · exact (h.events n row hmem).concat (heffect.keeps hdb hloaded) x
    · exact hevents n row hmem

/-- The row of the aggregate belongs to its id. -/
theorem Owner.current {snapshot : Snapshot (beside O) .driver} {state final : Driver}
    (hloaded : Loaded (D := beside O) db .driver id snapshot)
    (heffect : Effect (a := .driver) r metadata snapshot state events db db' receipt g final text
      rows) : Owner db' g id :=
  ⟨_, heffect.current, hloaded.typeName, hloaded.businessId⟩

end

section

variable {today : Date} {metadata : Metadata} {snapshot : Snapshot (beside O) .driver}
  {receipt : Receipt} {final : Driver} {text name : String} {rows : List EventRow}

/-- The snapshot and the event of a registration keep the rules. -/
theorem Valid.registration (h : S.Valid start xs db) (hdb : db.Sound) (hdb' : db'.Sound)
    (hloaded : Loaded (D := beside O) db .driver id snapshot) {born : Date} (hname : Kept name)
    (heffect : Effect (a := .driver) (S.registry today) metadata snapshot blank
      [registeredEvent ⟨id, name, born⟩] db db' receipt g final text rows)
    (hregistered : S.Registered start (xs ++ [x]) g id born db.log.next) :
    S.Valid start (xs ++ [x]) db' := by
  obtain ⟨hfinal, ⟨payload, hpayload, rfl⟩, -⟩ := heffect.single
  cases (S.dispatchState_registered blank _).symm.trans hfinal
  have hnames : "DriverRegistered" ≠ "DriverNameAmended" := by decide
  refine h.effect hdb hdb' hloaded heffect (fun _ => ?_) fun n row hrow => ?_
  · exact ⟨onRegistered blank ⟨id, name, born⟩, roundTrips_codec.deserialize heffect.serialized,
      rfl, hname, born, _, rfl, hregistered⟩
  · cases List.mem_singleton.1 hrow
    exact ⟨fun _ => ⟨⟨id, name, born⟩, roundTrips_registeredCodec.deserialize hpayload, hname,
      .current hloaded heffect, hregistered⟩,
      fun hother => absurd hother hnames⟩

/-- So do those of an amendment. -/
theorem Valid.amendment (h : S.Valid start xs db) (hdb : db.Sound) (hdb' : db'.Sound)
    (hloaded : Loaded (D := beside O) db .driver id snapshot) {d : Driver}
    (hstate : snapshot.state = some d) (hname : Kept name)
    (heffect : Effect (a := .driver) (S.registry today) metadata snapshot d
      [nameAmendedEvent ⟨id, name⟩] db db' receipt g final text rows) :
    S.Valid start (xs ++ [x]) db' := by
  -- the row stays under its number, and so goes back to the same registration
  obtain ⟨g', hnumber, hproper⟩ := h.proper_of_loaded hdb hloaded hstate
  obtain rfl : g = g' := by
    rw [heffect.number, hnumber]
    rfl
  obtain ⟨hfinal, ⟨payload, hpayload, rfl⟩, -⟩ := heffect.single
  cases (S.dispatchState_nameAmended d _).symm.trans hfinal
  obtain ⟨date, n, hdate, hregistered⟩ := (hproper.concat x).born
  have hnames : "DriverNameAmended" ≠ "DriverRegistered" := by decide
  refine h.effect hdb hdb' hloaded heffect (fun _ => ?_) fun n row hrow => ?_
  · exact ⟨onNameAmended d ⟨id, name⟩, roundTrips_codec.deserialize heffect.serialized,
      hproper.driverId, hname, date, n, hdate, hregistered⟩
  · cases List.mem_singleton.1 hrow
    exact ⟨fun hother => absurd hother hnames,
      fun _ => ⟨⟨id, name⟩, roundTrips_nameAmendedCodec.deserialize hpayload, hname,
        .current hloaded heffect⟩⟩

/-- Events of others are not looked at. -/
theorem Valid.foreign (h : S.Valid start xs db) (hdb : db.Sound) (hdb' : db'.Sound)
    {a : O.AggregateType} {snapshot : Snapshot (beside O) (.other a)}
    {state final : (beside O).State (.other a)} {events : List (AnyEvent (beside O))}
    (hloaded : Loaded (D := beside O) db (.other a) id snapshot)
    (hevents : ∀ e ∈ events, ∃ t, e.type = EventType.other t)
    (heffect : Effect (S.registry today) metadata snapshot state events db db' receipt g final text
      rows) : S.Valid start (xs ++ [x]) db' := by
  have hname : snapshot.typeName ≠ "Driver" := fun hname =>
    S.named a (hloaded.typeName.symm.trans hname)
  refine h.effect hdb hdb' hloaded heffect (fun hdriver => absurd hdriver hname)
    fun n row hrow => ?_
  -- what was added is the row of an event that has changed the state
  have hmem : row ∈ rows := by
    rw [← Table.map_snd_numbered db.log.issued rows]
    exact List.mem_map_of_mem (f := Prod.snd) hrow
  obtain ⟨e, he, hstored⟩ := exists_event_of_stored heffect.stored row hmem
  obtain ⟨payload, -, rfl⟩ := Store.eventRow_eq_ok.1 hstored
  obtain ⟨state₁, state₂, hstate⟩ := exists_of_foldlM heffect.folded e he
  obtain ⟨t, ht⟩ := hevents e he
  obtain ⟨hregistered, hamended⟩ := S.typeName_of_other hstate ht
  exact ⟨fun hname => absurd hname hregistered, fun hname => absurd hname hamended⟩

end

/-- What a command leaves in the tables keeps the rules. -/
theorem Valid.concat (x : Date × Sending (beside O))
    (h : S.Valid start xs (S.after start xs).store.committed)
    (hs : (S.after start xs).store.committed.Sound) :
    S.Valid start (xs ++ [x])
      (Gateway.after (S.registry x.1) (S.after start xs) [x.2]).store.committed := by
  have hr := S.confined_sameTables x.1
  rcases x with ⟨today, ctx, metadata, type, command, seconds⟩
  show S.Valid start _ ((send (S.registry today) ctx metadata type command
    seconds).run (S.after start xs)).2.store.committed
  rcases hsend : (send (S.registry today) ctx metadata type command seconds).run
    (S.after start xs) with ⟨e | receipt, s'⟩
  · dsimp only
    rw [store_of_error hr hsend]
    exact h.same (.refl _) _
  · obtain ⟨-, -, hs', id, snapshot, state, buffer, s₁, htarget, hloaded, hcommand, hcase⟩ :=
      send_effect hr hs hsend
    rcases hcase with ⟨-, -, hsame⟩ | ⟨hne, g, final, text, rows, heffect⟩
    · exact h.same hsame _
    · cases type with
      | register =>
        cases (htarget : some (RegisterDriver.id command) = some id)
        obtain ⟨-, rfl, e, hrule, hevents⟩ := S.emitted_register hcommand
        obtain ⟨name, hname, hborn, rfl⟩ := register_eq_ok.1 hrule
        rw [hevents] at heffect
        -- this is the command that the driver goes back to
        have hanswer := heffect.single.2.2
        rw [hloaded.businessId] at hanswer
        exact h.registration hs hs' hloaded (kept_of_validName hname) heffect
          ⟨xs, today, ctx, metadata, RegisterDriver.name command, seconds, [], rfl, hborn,
            (congrArg Prod.fst hsend).trans (congrArg Except.ok hanswer)⟩
      | amendName =>
        cases (htarget : some (AmendDriverName.id command) = some id)
        obtain ⟨e, hstate, hrule, hevents⟩ := S.emitted_amendName hcommand
        obtain ⟨name, hname, rfl⟩ := amendName_eq_ok.1 hrule
        split at hevents
        · exact absurd hevents hne
        · rw [hevents] at heffect
          exact h.amendment hs hs' hloaded hstate (kept_of_validName hname) heffect
      | other c => exact h.foreign hs hs' hloaded (S.emitted_other hcommand) heffect

variable (S)

/-- Nothing is stored of drivers at the start. -/
theorem valid_start (world : W) :
    let start := Session.start (ReadModel.migrate (Database.blank none).migrate) world
    S.Valid start [] start.store.committed :=
  ⟨fun _ _ hrow => absurd hrow List.not_mem_nil, fun _ _ hrow => absurd hrow List.not_mem_nil⟩

theorem valid_after {s : Scene W} (hs : s.store.committed.Sound)
    (h : S.Valid s [] s.store.committed) (xs : List (Date × Sending (beside O))) :
    S.Valid s xs (S.after s xs).store.committed := by
  induction xs using List.reverseRecOn with
  | nil => exact h
  | append_singleton xs x ih =>
    rw [S.after_concat]
    exact ih.concat x (S.sound_after hs xs)

end Setting

/-- **What is stored of drivers keeps the rules.**  Register the handlers of drivers among
those of other businesses, which leave the tables alone, emit no events of drivers and
have another name for every type of aggregate.  Start with the empty tables of the engine
and of the read model, and send any commands on any days.

Then every driver in the tables and every event of drivers in the log has the id that its
aggregate is stored under, and a name of one to 120 characters without white space around
it.  The date of birth in a driver or in a registration is that of a command in the run
that was sent on this day or on a later one, and that appended the event.

And in whatever state, on any day, a command is refused and leaves the store as it was if
its trimmed name is empty or longer, or if its date of birth is in the future. -/
theorem drivers_valid (S : Setting O W) (world : W) :
    let start := Session.start (ReadModel.migrate (Database.blank none).migrate) world
    (∀ xs, S.Valid start xs (S.after start xs).store.committed) ∧
      ∀ (today : Date) (x : Sending (beside O)), Faulty today x → ∀ s : Scene W, ∃ e,
        answerTo (S.registry today) s x = .error e ∧
          (Gateway.after (S.registry today) s [x]).store = s.store := by
  intro start
  exact ⟨S.valid_after Agrees.start.sound (S.valid_start world),
    fun _ _ hx s => S.refused_of_faulty hx s⟩

/-- Ada is stored under the name that she was given last, without the tab behind it.  A
blank name is refused then. -/
theorem ada_is_valid :
    let start := Session.start (ReadModel.migrate (Database.blank none).migrate) ()
    let xs : List (Date × Sending Bench.domain) :=
      [(newYear, registering ⟨0⟩ Dictionary.empty ⟨Uuid.zero, " Ada ", newYear⟩ 0),
        (newYear, amending ⟨1⟩ Dictionary.empty ⟨Uuid.zero, "Ada King\t"⟩ 0)]
    let s := amongCounters.after start xs
    let blankName : Sending Bench.domain := amending ⟨2⟩ Dictionary.empty ⟨Uuid.zero, " \t"⟩ 0
    (s.store.committed.log.rows.map fun row => row.2.typeName) =
        ["DriverRegistered", "DriverNameAmended"] ∧
      (∃ row d, (1, row) ∈ s.store.committed.snapshots.rows ∧
        codec.deserialize row.typeName row.state = .ok d ∧ d.name = "Ada King" ∧
        amongCounters.Proper start xs 1 Uuid.zero d) ∧
      Faulty newYear blankName ∧
      ∃ e, answerTo (amongCounters.registry newYear) s blankName = .error e := by
  intro start xs s blankName
  obtain ⟨hvalid, hrefused⟩ := drivers_valid amongCounters ()
  have hvalid := hvalid xs
  have hs : amongCounters.after (Session.start (ReadModel.migrate (Database.blank none).migrate) ())
      xs = s := rfl
  rw [hs] at hvalid
  have hlog : (s.store.committed.log.rows.map fun row => row.2.typeName) =
      ["DriverRegistered", "DriverNameAmended"] := by
    decide +kernel
  have hfaulty : Faulty newYear blankName := .newName (.inl (by decide +kernel))
  obtain ⟨e, hanswer, -⟩ := hrefused newYear blankName hfaulty s
  let ada : Driver := ⟨Uuid.zero, "Ada King", some newYear⟩
  have htext : codec.serialize "Driver" ada = .ok ada.tree.render :=
    Codec.serialize_eq_ok.2 ⟨_, ada.encode_eq, rfl⟩
  let row : AggregateRow := ⟨Uuid.zero, "Driver", 2, ada.tree.render⟩
  have hrows : s.store.committed.snapshots.rows = [(1, row)] := by decide +kernel
  have hrow : (1, row) ∈ s.store.committed.snapshots.rows := by
    rw [hrows]
    exact List.mem_cons_self
  have hname : row.typeName = "Driver" := rfl
  obtain ⟨d, hread, hproper⟩ := hvalid.drivers 1 row hrow hname
  have hada : d = ada := Except.ok.inj (hread.symm.trans (roundTrips_codec.deserialize htext))
  exact ⟨hlog, ⟨row, d, hrow, hread, congrArg Driver.name hada, hproper⟩, hfaulty, e, hanswer⟩

end Driver

end Chronicle
