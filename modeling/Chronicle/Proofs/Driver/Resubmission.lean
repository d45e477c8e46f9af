/-
Chronicle/Proofs/Driver/Resubmission.lean

A name can be amended again and again.

Whoever gets no answer to an amendment may send it once more.  After the first one the
driver is stored under its trimmed name (`Driver.Named`), whether an event was needed for
that or not.  An amendment to this name finds it there, in a unit of work of its own, and
emits nothing; so it is answered with what the first one was answered with, leaves the
store as it is, and the next one finds the same.

Main result: `amended_again`, in every state that commands lead to.
-/
import Chronicle.Proofs.Driver.Validity

namespace Chronicle.Driver

variable {O : Domain} {W : Type}

open Session Database Gateway Registration

/-- A driver is stored under a name, in the row of a number that has come to a sequence. -/
def Named (db : Database ReadModel) (id : Uuid) (g sequence : Int) (name : String) : Prop :=
  ∃ row d, (g, row) ∈ db.snapshots.rows ∧ row.identifier = id ∧ row.typeName = "Driver" ∧
    row.sequence = sequence ∧ codec.optional.deserialize row.typeName row.state = .ok (some d) ∧
    d.name = name

/-- A command to give a driver the same name, apart from white space around it. -/
inductive Repeats (c : AmendDriverName) : Sending (beside O) → Prop
  | intro {ctx : ExecutionContext} {metadata : Metadata} {c' : AmendDriverName} {seconds : Float} :
      c'.id = c.id → Text.trim c'.name = Text.trim c.name →
      Repeats c (amending ctx metadata c' seconds)

/-- Names that are equal when trimmed are kept as the same. -/
theorem validName_congr {name name' : String} (h : Text.trim name' = Text.trim name) :
    validName name' = validName name := by
  unfold validName
  rw [h]

/-- To give a driver the name it has emits nothing. -/
theorem run_amendNameHandler {d : Driver} {c : AmendDriverName}
    (h : validName c.name = .ok d.name) (ctx : HandlerContext (beside O)) (s : Scene W) :
    (amendNameHandler.call ctx d c).run s = (.ok (d, ⟨[]⟩), s) := by
  have hrule : amendName d c = .ok none := amendName_eq_ok.2 ⟨d.name, h, (if_pos rfl).symm⟩
  have hvalues : (MonadExcept.ofExcept (Inputs.resolve ctx []) :
      Task (Scene W) (Inputs [])).run s = (.ok (), s) := rfl
  have hrun : ((amendNameHandler : MutationHandler (beside O) (Scene W) .amendName).run () d c).run
      s = (.ok (d, ⟨[]⟩), s) :=
    Work.bind_eq_ok.2 ⟨none, s, ofRule_eq_ok.2 ⟨hrule, rfl⟩, rfl⟩
  exact (Task.run_bind_of_ok hvalues).trans (Work.asTask_eq_ok.2 hrun)

namespace Setting

variable (S : Setting O W) {today : Date}

/-- The command for it finds that handler. -/
theorem run_amendName {d : Driver} {c : AmendDriverName} (h : validName c.name = .ok d.name)
    (ctx : HandlerContext (beside O)) (s : Scene W) :
    ((S.registry today).dispatchCommand .amendName (some d) c ctx).run s =
      (.ok (d, ⟨[]⟩), s) := by
  have hcall : .mutation .amendName amendNameHandler ∈
      (registrations today : List (Registration (beside O) (Scene W))) :=
    List.mem_cons_of_mem _ List.mem_cons_self
  have hfind : Tagged.find? CommandType.amendName (S.registry today).commands =
      some (.mutation amendNameHandler) :=
    find_command (S.mem_accepted hcall) List.mem_cons_self
  have htarget : @Domain.target (beside O) .amendName c = some c.id := rfl
  have hdispatch : (S.registry today).dispatchCommand .amendName (some d) c ctx =
      amendNameHandler.call ctx d c :=
    Registry.dispatchCommand_eq_call hfind htarget d
  exact (congrArg (·.run s) hdispatch).trans (run_amendNameHandler h ctx s)

/-- An amendment that succeeds leaves the driver with its trimmed name, and is answered with
the number and the sequence of the row. -/
theorem named_of_answerTo {s : Scene W} (hs : s.store.committed.Sound) {ctx : ExecutionContext}
    {metadata : Metadata} {c : AmendDriverName} {seconds : Float} {receipt : Receipt}
    (h : answerTo (S.registry today) s (amending ctx metadata c seconds) = .ok receipt) :
    receipt.businessId = c.id ∧ ∃ g name, receipt.globalId = some g ∧
      validName c.name = .ok name ∧
      Named (Gateway.after (S.registry today) s [amending ctx metadata c seconds]).store.committed
        c.id g receipt.sequence name := by
  rcases hsend : (send (S.registry today) ctx metadata .amendName c seconds).run s with ⟨answer, s'⟩
  have hanswer : answer = .ok receipt := (congrArg Prod.fst hsend).symm.trans h
  have hafter : Gateway.after (S.registry today) s [amending ctx metadata c seconds] = s' :=
    congrArg Prod.snd hsend
  rw [hafter]
  subst hanswer
  obtain ⟨-, -, -, id, snapshot, d, buffer, s₁, htarget, hloaded, hcommand, hcase⟩ :=
    send_effect (S.confined_sameTables today) hs hsend
  cases (htarget : some c.id = some id)
  obtain ⟨e, hstate, hrule, hevents⟩ := S.emitted_amendName hcommand
  obtain ⟨name, hname, rfl⟩ := amendName_eq_ok.1 hrule
  rcases hcase with ⟨hnil, rfl, hsame⟩ | ⟨hne, g, final, text, rows, heffect⟩
  · -- no event was needed, because the driver had the name
    have hnamed : name = d.name := by
      by_contra hother
      rw [if_neg hother, hnil] at hevents
      cases hevents
    cases hloaded with
    | fresh => cases hstate
    | @stored g row state hfind htype hread =>
      cases hstate
      obtain ⟨hrow, hid⟩ := hs.findAggregate_eq_some.1 hfind
      rw [← hsame.snapshots] at hrow
      exact ⟨rfl, g, name, rfl, hname, row, d, hrow, hid, htype, rfl, hread, hnamed.symm⟩
  · -- the event has brought the trimmed name into the row
    have hnamed : name ≠ d.name := by
      intro hnamed
      rw [if_pos hnamed] at hevents
      exact hne hevents
    rw [if_neg hnamed] at hevents
    rw [hevents] at heffect
    obtain ⟨hfinal, -, hreceipt⟩ := heffect.single
    cases (S.dispatchState_nameAmended d _).symm.trans hfinal
    have hread := roundTrips_codec.deserialize_optional neverNull_codec heffect.serialized
    have hbusiness : receipt.businessId = c.id :=
      (congrArg Receipt.businessId hreceipt).trans hloaded.businessId
    exact ⟨hbusiness, g, name, congrArg Receipt.globalId hreceipt, hname, _, _, heffect.current,
      hloaded.businessId, hloaded.typeName, rfl, hread, rfl⟩

/-- An amendment to the name that a driver has is answered with its row, and does nothing. -/
theorem answerTo_of_named {s : Scene W} (hs : s.store.committed.Sound) (hunit : s.store.unit = none)
    {c : AmendDriverName} {g n : Int} {name : String}
    (h : Named s.store.committed c.id g n name) (hname : validName c.name = .ok name)
    {y : Sending (beside O)} (hy : Repeats c y) :
    answerTo (S.registry today) s y = .ok ⟨c.id, some g, n, []⟩ ∧
      (Gateway.after (S.registry today) s [y]).store = s.store ∧
      (Gateway.after (S.registry today) s [y]).world = s.world := by
  obtain ⟨row, d, hrow, hid, htype, rfl, hread, rfl⟩ := h
  cases hy with
  | @intro ctx metadata c' seconds hid' htrim =>
    rw [← hid]
    have htarget : (beside O).target (amending ctx metadata c' seconds : Sending (beside O)).command =
        some row.identifier := congrArg some (hid'.trans hid.symm)
    exact answerTo_of_no_event hs hunit hrow htarget htype hread
      (S.run_amendName ((validName_congr htrim).trans hname))

/-- However often it is sent, each time is the same. -/
theorem after_repeats {s : Scene W} (hs : s.store.committed.Sound) (hunit : s.store.unit = none)
    {c : AmendDriverName} {g n : Int} {name : String}
    (h : Named s.store.committed c.id g n name) (hname : validName c.name = .ok name)
    {ys : List (Date × Sending (beside O))} (hys : ∀ y ∈ ys, Repeats c y.2) :
    (S.after s ys).store = s.store ∧ (S.after s ys).world = s.world := by
  induction ys using List.reverseRecOn with
  | nil => exact ⟨rfl, rfl⟩
  | append_singleton ys y ih =>
    obtain ⟨hstore, hworld⟩ := ih fun y hy => hys y (List.mem_append_left _ hy)
    have hy := hys y (List.mem_append_right _ List.mem_cons_self)
    rw [S.after_concat]
    -- the next one finds the store that the first one has found
    rw [← hstore] at hs hunit h
    obtain ⟨-, hstore', hworld'⟩ := S.answerTo_of_named hs hunit h hname hy
    exact ⟨hstore'.trans hstore, hworld'.trans hworld⟩

end Setting

/-- **To amend a name once more changes nothing.**  Register the handlers of drivers among
those of other businesses, which leave the tables alone, emit no events of drivers and
have another name for every type of aggregate.  Start with the empty tables of the engine
and of the read model, send any commands on any days, and then an amendment that succeeds.

Whatever amendments of the same id to the same name, apart from white space around it, are
sent after it, from whatever contexts and with whatever metadata: the store is as the first
one has left it, with all its tables, and so is the world outside.  Every further one
succeeds without an event, and is answered with the number and the sequence that the first
one was answered with. -/
theorem amended_again (S : Setting O W) (world : W) (xs : List (Date × Sending (beside O)))
    (today : Date) (ctx : ExecutionContext) (metadata : Metadata) (c : AmendDriverName)
    (seconds : Float) (receipt : Receipt) :
    let start := Session.start (ReadModel.migrate (Database.blank none).migrate) world
    let s := S.after start xs
    let once := Gateway.after (S.registry today) s [amending ctx metadata c seconds]
    answerTo (S.registry today) s (amending ctx metadata c seconds) = .ok receipt →
      ∀ ys : List (Date × Sending (beside O)), (∀ y ∈ ys, Repeats c y.2) →
        (S.after once ys).store = once.store ∧ (S.after once ys).world = once.world ∧
        ∀ y : Date × Sending (beside O), Repeats c y.2 →
          answerTo (S.registry y.1) (S.after once ys) y.2 =
            .ok ⟨receipt.businessId, receipt.globalId, receipt.sequence, []⟩ := by
  intro start s once h ys hys
  have hsound : s.store.committed.Sound := S.sound_after Agrees.start.sound xs
  have hunit : s.store.unit = none := S.unit_after rfl xs
  obtain ⟨hid, g, name, hg, hname, hnamed⟩ := S.named_of_answerTo hsound h
  have hsound : once.store.committed.Sound :=
    Gateway.sound_after (S.confined_sameTables today) hsound _
  have hunit : once.store.unit = none := Gateway.unit_after S.confined_registry hunit _
  obtain ⟨hstore, hworld⟩ := S.after_repeats hsound hunit hnamed hname hys
  refine ⟨hstore, hworld, fun y hy => ?_⟩
  rw [← hstore] at hsound hunit
  have hnamed : Named (S.after once ys).store.committed c.id g receipt.sequence name := by
    rw [hstore]
    exact hnamed
  rw [hid, hg]
  exact (S.answerTo_of_named hsound hunit hnamed hname hy).1

/-- Ada is given another name, and once more with a tab behind it. -/
theorem ada_amended_again :
    let start := Session.start (ReadModel.migrate (Database.blank none).migrate) ()
    let s := amongCounters.after start [(newYear, adaSending)]
    let c : AmendDriverName := ⟨Uuid.zero, " Ada King"⟩
    let x : Sending Bench.domain := amending ⟨1⟩ Dictionary.empty c 0
    let y : Sending Bench.domain := amending ⟨2⟩ Dictionary.empty ⟨Uuid.zero, "Ada King\t"⟩ 0
    let once := Gateway.after (amongCounters.registry newYear) s [x]
    answerTo (amongCounters.registry newYear) s x =
        .ok ⟨Uuid.zero, some 1, 2, [("DriverNameAmended", 2)]⟩ ∧
      Repeats c y ∧ (amongCounters.after once [(newYear, y)]).store = once.store ∧
      answerTo (amongCounters.registry newYear) (amongCounters.after once [(newYear, y)]) y =
        .ok ⟨Uuid.zero, some 1, 2, []⟩ := by
  intro start s c x y once
  have hanswer : answerTo (amongCounters.registry newYear) s x =
      .ok ⟨Uuid.zero, some 1, 2, [("DriverNameAmended", 2)]⟩ := by decide +kernel
  have hy : Repeats c y := .intro rfl (by decide +kernel)
  have hys : ∀ y' ∈ [(newYear, y)], Repeats c y'.2 := fun y' hy' => List.mem_singleton.1 hy' ▸ hy
  obtain ⟨hstore, -, hagain⟩ := amended_again amongCounters () [(newYear, adaSending)] newYear ⟨1⟩
    Dictionary.empty c 0 _ hanswer [(newYear, y)] hys
  exact ⟨hanswer, hy, hstore, hagain (newYear, y) hy⟩

end Chronicle.Driver
