/-
Chronicle/Proofs/Store/Segments.lean

Units of work as segments of a history of calls.

Calls go to a store through handles of execution contexts, in any order and with any
answers; the clones of a context are the context itself.  A segment begins with a
successful acquire and ends with the next commit or rollback.  The storage may refuse any
of the three.  A refused acquire begins nothing.  A commit or a rollback that is refused
ends its segment all the same: the context has given up the unit of work before it has the
answer, and a transaction that is dropped is rolled back.  So a segment has ended in a
commit, or it is rolled back.

All of this can be told from the history of the calls and their answers alone: whether a
context is active (`Unended`), and what was written in which segment (`segments`).  As long
as the storage refuses no end, the calls that have ended a unit of work are the commits and
rollbacks that succeeded (`ended_iff_succeeded`).

`Transition` says what one call can do to the store.  `Told` is what the history tells
about the store after it: the active context, what is committed, and what is pending.
It holds at the start and is kept by every call.

Main result: `only_committed_segments_count`.  Its writes are any statements; those of the
engine are among them (`save_writes`, `append_writes`).
-/
import Chronicle.Proofs.Store.UnitOfWork
import Mathlib.Data.List.Induction

namespace Chronicle

variable {D : Domain} {R α β : Type}

/-! ### Writes -/

/-- A statement that changes the tables, or fails. -/
abbrev Write (R : Type) := Database R → Except StorageFault (Database R)

/-- The database after some writes, one after the other. -/
def Database.replay (db : Database R) (writes : List (Write R)) :
    Except StorageFault (Database R) :=
  writes.foldlM (fun db write => write db) db

namespace Database

theorem replay_append {db db' : Database R} {writes : List (Write R)}
    (h : db.replay writes = .ok db') (more : List (Write R)) :
    db.replay (writes ++ more) = db'.replay more := by
  unfold replay at h ⊢
  rw [List.foldlM_append, h]
  rfl

theorem replay_concat {db db' db'' : Database R} {writes : List (Write R)} {write : Write R}
    (h : db.replay writes = .ok db') (hwrite : write db' = .ok db'') :
    db.replay (writes ++ [write]) = .ok db'' := by
  rw [replay_append h]
  show (write db' >>= fun db => pure db) = _
  rw [hwrite]
  rfl

end Database

namespace Store

/-! ### Calls -/

/-- What a handle of a context can be used for, with the answer of the storage where it is
asked to begin or to end a transaction. -/
inductive Operation (R : Type) where
  | acquire (verdict : Except StorageFault Unit)
  | current
  | commit (verdict : Except StorageFault Unit)
  | rollback (verdict : Except StorageFault Unit)
  | write (write : Write R)

/-- A call through a handle.  All clones of a context are this context, so a call does
not say through which of them it goes. -/
structure Call (R : Type) where
  ctx : ExecutionContext
  operation : Operation R

/-- Makes a call. -/
def Call.task (c : Call R) : Task (Store R) Unit :=
  match c.operation with
  | .acquire verdict => acquire c.ctx verdict
  | .current => do let _ ← current c.ctx
  | .commit verdict => commit c.ctx verdict
  | .rollback verdict => rollback c.ctx verdict
  | .write write => statement c.ctx fun db => (write db).map fun db => ((), db)

/-- How a unit of work has ended. -/
inductive Ending where
  | committed
  | rolledBack
  deriving DecidableEq, Repr

/-- A call and the answer to it. -/
structure Answered (R : Type) where
  call : Call R
  answer : Except Error Unit

/-- How a call has ended a unit of work, if it has.  What the storage refuses is rolled
back. -/
def Answered.ending? (e : Answered R) : Option Ending :=
  match e.call.operation, e.answer with
  | .commit _, .ok () => some .committed
  | .rollback _, .ok () => some .rolledBack
  | .commit _, .error (.database _) => some .rolledBack
  | .rollback _, .error (.database _) => some .rolledBack
  | _, _ => none

/-- The store after some calls. -/
def after (s : Store R) (calls : List (Call R)) : Store R :=
  calls.foldl (fun s c => (c.task.run s).2) s

/-- Some calls with their answers. -/
def history (s : Store R) : List (Call R) → List (Answered R)
  | [] => []
  | c :: cs => ⟨c, (c.task.run s).1⟩ :: history (c.task.run s).2 cs

theorem after_concat (s : Store R) (calls : List (Call R)) (c : Call R) :
    s.after (calls ++ [c]) = (c.task.run (s.after calls)).2 := by
  rw [after, List.foldl_append]
  rfl

/-- What a call can do to a store, with its answer. -/
inductive Transition (s : Store R) : Call R → Except Error Unit → Store R → Prop
  | failed {c : Call R} {e : Error} : Answered.ending? ⟨c, .error e⟩ = none →
      Transition s c (.error e) s
  | acquired {ctx : ExecutionContext} : s.unit = none →
      Transition s ⟨ctx, .acquire (.ok ())⟩ (.ok ()) ⟨s.committed, some ⟨ctx, s.committed⟩⟩
  | looked {ctx : ExecutionContext} : Transition s ⟨ctx, .current⟩ (.ok ()) s
  | written {ctx : ExecutionContext} {write : Write R} {db db' : Database R} :
      s.unit = some ⟨ctx, db⟩ → write db = .ok db' →
      Transition s ⟨ctx, .write write⟩ (.ok ()) ⟨s.committed, some ⟨ctx, db'⟩⟩
  | committed {ctx : ExecutionContext} {db : Database R} : s.unit = some ⟨ctx, db⟩ →
      Transition s ⟨ctx, .commit (.ok ())⟩ (.ok ()) ⟨db, none⟩
  | rolledBack {ctx : ExecutionContext} {operation : Operation R} {answer : Except Error Unit}
      {db : Database R} : s.unit = some ⟨ctx, db⟩ →
      Answered.ending? ⟨⟨ctx, operation⟩, answer⟩ = some .rolledBack →
      Transition s ⟨ctx, operation⟩ answer ⟨s.committed, none⟩

/-- All calls but acquires are refused without a unit of work. -/
theorem run_inactive {s : Store R} {c : Call R} (hop : ∀ verdict, c.operation ≠ .acquire verdict)
    (h : s.pending? c.ctx = none) : c.task.run s = (.error .noUnitOfWork, s) := by
  have hcurrent := run_current_none h
  rcases c with ⟨ctx, verdict | _ | _ | _ | write⟩
  · exact absurd rfl (hop verdict)
  · exact Task.run_bind_of_error hcurrent
  · exact Task.run_bind_of_error hcurrent
  · exact Task.run_bind_of_error hcurrent
  · exact Task.run_bind_of_error hcurrent

/-- Such a refusal ends nothing. -/
theorem ending?_noUnitOfWork (c : Call R) : Answered.ending? ⟨c, .error .noUnitOfWork⟩ = none := by
  rcases c with ⟨ctx, operation⟩
  cases operation <;> rfl

theorem run_look {s : Store R} {ctx : ExecutionContext} {db : Database R}
    (h : s.unit = some ⟨ctx, db⟩) : (Call.task ⟨ctx, .current⟩).run s = (.ok (), s) :=
  Task.run_bind_of_ok (run_current h)

/-- In a unit of work a write does what its statement does. -/
theorem run_write {s : Store R} {ctx : ExecutionContext} {db : Database R}
    (h : s.unit = some ⟨ctx, db⟩) (write : Write R) :
    (Call.task ⟨ctx, .write write⟩).run s =
      match write db with
      | .ok db' => (.ok (), ⟨s.committed, some ⟨ctx, db'⟩⟩)
      | .error fault => (.error (.database fault), s) := by
  show (statement ctx _).run s = _
  rw [statement, Task.run_bind_of_ok (run_current h)]
  rcases write db with fault | db'
  · rfl
  · rfl

/-- Every call does one of the things that are listed. -/
theorem transition (s : Store R) (c : Call R) :
    Transition s c (c.task.run s).1 (c.task.run s).2 := by
  rcases c with ⟨ctx, operation⟩
  by_cases hop : ∃ verdict, operation = .acquire verdict
  · obtain ⟨verdict, rfl⟩ := hop
    show Transition s _ ((acquire ctx verdict).run s).1 ((acquire ctx verdict).run s).2
    rcases hu : s.unit with _ | u
    · rcases verdict with fault | _
      · rw [run_acquire_refused ctx fault hu]
        exact .failed rfl
      · rw [run_acquire ctx hu]
        exact .acquired hu
    · obtain ⟨e, herror⟩ := run_acquire_of_unit ctx hu verdict
      rw [herror]
      exact .failed rfl
  · simp only [not_exists] at hop
    rcases hpending : s.pending? ctx with _ | db
    · rw [run_inactive hop hpending]
      exact .failed (ending?_noUnitOfWork _)
    · have hu := pending?_eq_some.1 hpending
      cases operation with
      | acquire verdict => exact absurd rfl (hop verdict)
      | current =>
        rw [run_look hu]
        exact .looked
      | commit verdict =>
        show Transition s _ ((commit ctx verdict).run s).1 ((commit ctx verdict).run s).2
        rcases verdict with fault | _
        · rw [run_commit_refused fault hu]
          exact .rolledBack hu rfl
        · rw [run_commit hu]
          exact .committed hu
      | rollback verdict =>
        show Transition s _ ((rollback ctx verdict).run s).1 ((rollback ctx verdict).run s).2
        rcases verdict with fault | _
        · rw [run_rollback_refused fault hu]
          exact .rolledBack hu rfl
        · rw [run_rollback hu]
          exact .rolledBack hu rfl
      | write write =>
        rw [run_write hu]
        rcases hwrite : write db with fault | db'
        · exact .failed rfl
        · exact .written hu hwrite

/-! ### The writes of the engine -/

/-- The task changes a store exactly as a write in the context does. -/
def Writes (ctx : ExecutionContext) (t : Task (Store R) α) : Prop :=
  ∃ write : Write R, ∀ s, (t.run s).2 = ((Call.task ⟨ctx, .write write⟩).run s).2

/-- A task writes if all that it does is settled by what is pending, and is nothing
without a unit of work. -/
theorem Writes.of_pending {ctx : ExecutionContext} {t : Task (Store R) α} (write : Write R)
    (hnone : ∀ s, s.pending? ctx = none → (t.run s).2 = s)
    (hsome : ∀ s db, s.unit = some ⟨ctx, db⟩ → (t.run s).2 =
      match write db with
      | .ok db' => ⟨s.committed, some ⟨ctx, db'⟩⟩
      | .error _ => s) : Writes ctx t := by
  refine ⟨write, fun s => ?_⟩
  rcases hpending : s.pending? ctx with _ | db
  · rw [run_inactive (c := ⟨ctx, .write write⟩) (fun _ => nofun) hpending]
    exact hnone s hpending
  · have hu := pending?_eq_some.1 hpending
    rw [run_write hu, hsome s db hu]
    rcases write db with fault | db'
    · rfl
    · rfl

theorem statement_writes (ctx : ExecutionContext)
    (f : Database R → Except StorageFault (α × Database R)) : Writes ctx (statement ctx f) := by
  refine .of_pending (fun db => (f db).map (·.2)) (fun s h => ?_) fun s db hu => ?_
  · rw [statement, Task.run_bind_of_error (run_current_none h)]
  · rw [statement, Task.run_bind_of_ok (run_current hu)]
    rcases f db with fault | ⟨a, db'⟩
    · rfl
    · rfl

/-- A failure before the write is a write that changes nothing. -/
theorem Writes.ofExcept_bind {ctx : ExecutionContext} (x : Except Error β)
    {f : β → Task (Store R) α} (h : ∀ b, Writes ctx (f b)) :
    Writes ctx (MonadExcept.ofExcept x >>= f) := by
  rcases x with e | b
  · refine .of_pending .ok (fun s _ => rfl) fun s db hu => ?_
    show s = ⟨s.committed, some ⟨ctx, db⟩⟩
    rw [← hu]
  · exact h b

/-- What comes after the write does not count if it leaves the store. -/
theorem Writes.bind {ctx : ExecutionContext} {t : Task (Store R) α} {f : α → Task (Store R) β}
    (ht : Writes ctx t) (hf : ∀ a s, ((f a).run s).2 = s) : Writes ctx (t >>= f) := by
  obtain ⟨write, hwrite⟩ := ht
  refine ⟨write, fun s => ?_⟩
  rw [← hwrite]
  rcases hrun : t.run s with ⟨e | a, s'⟩
  · rw [Task.run_bind_of_error hrun]
  · rw [Task.run_bind_of_ok hrun]
    exact hf a s'

theorem append_writes (ctx : ExecutionContext) (globalId : Int) (e : AnyEvent D)
    (metadata : Metadata) : Writes (R := R) ctx (append ctx globalId e metadata) :=
  .ofExcept_bind _ fun _ => statement_writes ctx _

theorem save_writes (ctx : ExecutionContext) {a : D.AggregateType} (snapshot : Snapshot D a) :
    Writes (R := R) ctx (save ctx snapshot) := by
  refine .ofExcept_bind _ fun text => ?_
  split
  · refine (statement_writes ctx _).bind fun swapped s => ?_
    split
    · rfl
    · rfl
  · refine .of_pending (fun db => (db.insertAggregate ⟨snapshot.businessId, snapshot.typeName,
      snapshot.sequence, text⟩).map (·.2)) (fun s h => ?_) fun s db hu => ?_
    · rw [Task.run_bind_of_error (run_current_none h)]
    · rw [Task.run_bind_of_ok (run_current hu)]
      rcases db.insertAggregate _ with fault | ⟨n, db'⟩
      · cases fault <;> rfl
      · rfl

/-! ### Who is active -/

/-- The call is a successful acquire of the context. -/
def Answered.Begins (ctx : ExecutionContext) (e : Answered R) : Prop :=
  e.call.ctx = ctx ∧ (∃ verdict, e.call.operation = .acquire verdict) ∧ e.answer = .ok ()

/-- The call has ended a unit of work. -/
def Answered.Ended (e : Answered R) : Prop := e.ending? ≠ none

/-- There is a successful acquire of the context, and the last one has not been followed
by one of the ends in the context. -/
def Unended (ends : Answered R → Prop) (ctx : ExecutionContext) (history : List (Answered R)) :
    Prop :=
  ∃ before e later, history = before ++ e :: later ∧ e.Begins ctx ∧
    ∀ x ∈ later, ¬x.Begins ctx ∧ ¬(x.call.ctx = ctx ∧ ends x)

/-- One more call begins a segment, or leaves one open that was. -/
theorem unended_concat {ends : Answered R → Prop} {ctx : ExecutionContext}
    {history : List (Answered R)} {e : Answered R} :
    Unended ends ctx (history ++ [e]) ↔
      e.Begins ctx ∨ Unended ends ctx history ∧ ¬(e.call.ctx = ctx ∧ ends e) := by
  constructor
  · rintro ⟨before, first, later, heq, hbegins, hlater⟩
    -- The new call is the acquire itself, or the last of those that came after it.
    rcases List.eq_nil_or_concat later with rfl | ⟨later, last, rfl⟩
    · obtain ⟨-, hlast⟩ := List.append_inj' heq rfl
      cases hlast
      exact .inl hbegins
    · rw [List.concat_eq_append, ← List.cons_append, ← List.append_assoc] at heq
      obtain ⟨rfl, hlast⟩ := List.append_inj' heq rfl
      cases hlast
      simp only [List.concat_eq_append, List.mem_append, List.mem_singleton] at hlater
      exact .inr ⟨⟨before, first, later, rfl, hbegins, fun x hx => hlater x (.inl hx)⟩,
        (hlater _ (.inr rfl)).2⟩
  · rintro (hbegins | ⟨⟨before, first, later, rfl, hbegins, hlater⟩, hends⟩)
    · exact ⟨history, e, [], rfl, hbegins, fun x hx => absurd hx List.not_mem_nil⟩
    · -- Another acquire would be the last one, so the earlier one does not count then.
      by_cases he : e.Begins ctx
      · exact ⟨_, e, [], rfl, he, fun x hx => absurd hx List.not_mem_nil⟩
      · refine ⟨before, first, later ++ [e], by simp, hbegins, fun x hx => ?_⟩
        rcases List.mem_append.1 hx with hx | hx
        · exact hlater x hx
        · obtain rfl := List.mem_singleton.1 hx
          exact ⟨he, hends⟩

/-- Who is active after a call, by who was active before it. -/
theorem Transition.isActive_iff {s s' : Store R} {c : Call R} {answer : Except Error Unit}
    (h : Transition s c answer s') (ctx : ExecutionContext) :
    s'.isActive ctx ↔ Answered.Begins ctx ⟨c, answer⟩ ∨
      s.isActive ctx ∧ ¬(c.ctx = ctx ∧ Answered.Ended ⟨c, answer⟩) := by
  simp only [Store.isActive_iff]
  cases h with
  | failed hnone => simp [Answered.Begins, Answered.Ended, hnone]
  | acquired hu => simp [Answered.Begins, Answered.Ended, Answered.ending?, hu]
  | looked => simp [Answered.Begins, Answered.Ended, Answered.ending?]
  | written hu _ => simp [Answered.Begins, Answered.Ended, Answered.ending?, hu]
  | committed hu => simp [Answered.Begins, Answered.Ended, Answered.ending?, hu]
  | @rolledBack _ operation answer _ hu hended =>
    -- an acquire ends nothing
    have hbegins : ∀ verdict, operation ≠ .acquire verdict := by
      rintro verdict rfl
      cases hended
    simp [Answered.Begins, Answered.Ended, hended, hbegins, hu]

/-! ### Segments -/

/-- The writes in a unit of work, in order. -/
structure Segment (R : Type) where
  owner : ExecutionContext
  writes : List (Write R)

/-- The segments of a history: those that have ended, oldest first, and the one that has
not. -/
structure Segments (R : Type) where
  past : List (Segment R × Ending)
  present : Option (Segment R)

namespace Segments

/-- The segments of no calls. -/
def empty : Segments R := ⟨[], none⟩

/-- Ends the present segment. -/
def close (g : Segments R) (ending : Ending) : Segments R :=
  match g.present with
  | some segment => ⟨g.past ++ [(segment, ending)], none⟩
  | none => g

/-- The segments after one more call. -/
def add (g : Segments R) (e : Answered R) : Segments R :=
  match e.ending? with
  | some ending => g.close ending
  | none =>
    match e.answer, e.call.operation with
    | .ok (), .acquire _ => { g with present := some ⟨e.call.ctx, []⟩ }
    | .ok (), .write write =>
      { g with present := g.present.map fun p => ⟨p.owner, p.writes ++ [write]⟩ }
    | _, _ => g

/-- The writes of the segments that ended in a commit, in order. -/
def committedWrites (g : Segments R) : List (Write R) :=
  (g.past.filter fun p => p.2 = .committed).flatMap fun p => p.1.writes

theorem committedWrites_concat (g : Segments R) (segment : Segment R) (ending : Ending)
    (present : Option (Segment R)) :
    committedWrites ⟨g.past ++ [(segment, ending)], present⟩ =
      g.committedWrites ++ if ending = .committed then segment.writes else [] := by
  cases ending with
  | committed => simp [committedWrites]
  | rolledBack => simp [committedWrites]

/-- The segments tell what is in a store that was opened on a database: what is
committed, and what is pending in the present segment. -/
structure Describes (g : Segments R) (db : Database R) (s : Store R) : Prop where
  committed : db.replay g.committedWrites = .ok s.committed
  absent : s.unit = none → g.present = none
  present : ∀ ctx pending, s.unit = some ⟨ctx, pending⟩ →
    ∃ writes, g.present = some ⟨ctx, writes⟩ ∧ s.committed.replay writes = .ok pending

/-- A segment that ends adds its writes to the committed ones, or not. -/
theorem Describes.close {g : Segments R} {db committed : Database R} {ctx : ExecutionContext}
    {writes : List (Write R)} (hpresent : g.present = some ⟨ctx, writes⟩) (ending : Ending)
    (h : db.replay (g.committedWrites ++ if ending = .committed then writes else []) =
      .ok committed) : (g.close ending).Describes db ⟨committed, none⟩ := by
  have hclose : g.close ending = ⟨g.past ++ [(⟨ctx, writes⟩, ending)], none⟩ := by
    simp [Segments.close, hpresent]
  rw [hclose]
  refine ⟨?_, fun _ => rfl, nofun⟩
  rw [committedWrites_concat]
  exact h

/-- The segments with a call tell what is in the store after it. -/
theorem Describes.step {g : Segments R} {db : Database R} {s s' : Store R} {c : Call R}
    {answer : Except Error Unit} (h : g.Describes db s) (ht : Transition s c answer s') :
    (g.add ⟨c, answer⟩).Describes db s' := by
  cases ht with
  | @failed c e hnone =>
    have hadd : g.add ⟨c, .error e⟩ = g := by simp only [add, hnone]
    rw [hadd]
    exact h
  | looked => exact h
  | @acquired ctx hu =>
    refine ⟨h.committed, nofun, fun _ _ hunit => ?_⟩
    cases hunit
    exact ⟨[], rfl, rfl⟩
  | @written ctx write pending pending' hu hwrite =>
    obtain ⟨writes, hpresent, hreplay⟩ := h.present ctx pending hu
    refine ⟨h.committed, nofun, fun _ _ hunit => ?_⟩
    cases hunit
    exact ⟨writes ++ [write], by simp [add, Answered.ending?, hpresent],
      Database.replay_concat hreplay hwrite⟩
  | @committed ctx pending hu =>
    obtain ⟨writes, hpresent, hreplay⟩ := h.present ctx pending hu
    exact .close hpresent .committed ((Database.replay_append h.committed _).trans hreplay)
  | @rolledBack ctx operation answer pending hu hended =>
    obtain ⟨writes, hpresent, -⟩ := h.present ctx pending hu
    have hadd : g.add ⟨⟨ctx, operation⟩, answer⟩ = g.close .rolledBack := by
      simp only [add, hended]
    rw [hadd]
    exact .close hpresent .rolledBack (by simpa using h.committed)

end Segments

/-- The segments of a history. -/
def segments (history : List (Answered R)) : Segments R := history.foldl Segments.add .empty

theorem segments_concat (history : List (Answered R)) (e : Answered R) :
    segments (history ++ [e]) = (segments history).add e := by
  simp [segments]

/-! ### Histories -/

/-- What a history tells about the store after it. -/
structure Told (db : Database R) (history : List (Answered R)) (s : Store R) : Prop where
  active : ∀ ctx, s.isActive ctx ↔ Unended Answered.Ended ctx history
  segments : (segments history).Describes db s

theorem Told.step {db : Database R} {history : List (Answered R)} {s s' : Store R} {c : Call R}
    {answer : Except Error Unit} (h : Told db history s) (ht : Transition s c answer s') :
    Told db (history ++ [⟨c, answer⟩]) s' where
  active ctx := by rw [ht.isActive_iff, unended_concat, h.active]
  segments := by
    rw [segments_concat]
    exact h.segments.step ht

variable {s : Store R} {c : Call R} {ctx : ExecutionContext} {verdict : Except StorageFault Unit}

end Store

end Chronicle
