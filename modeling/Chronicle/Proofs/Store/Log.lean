/-
Chronicle/Proofs/Store/Log.lean

The log of events as it is seen, and how it goes on.

A statement sees the log that is pending, and outside of a unit of work the one
that is committed (`Store.log`).  `Store.GoesOn P` says of two stores that the log
seen in the second one is that of the first with more rows behind it, all of which
satisfy `P`, and that nothing else was committed in between.  So does all that the
engine does to a store; only a rollback takes rows back, and what is seen then was
committed before.

Main result: an append adds the row of its event to the log that is seen, and loads
and saves leave it as it is (`Store.append_log`, `Store.save_log`).  `Store.run_eventsOf`
says how the log is read.
-/
import Chronicle.Proofs.Store.Rows

namespace Chronicle

variable {D : Domain} {R α : Type}

/-! ### Tables that go on -/

namespace Table

theorem insertAll_append (t : Table α) (rows rows' : List α) :
    t.insertAll (rows ++ rows') = (t.insertAll rows).insertAll rows' := by
  induction rows generalizing t with
  | nil => rw [List.nil_append, insertAll_nil]
  | cons row rows ih => rw [List.cons_append, insertAll_cons, insertAll_cons, ih]

theorem Numbered.insertAll {t : Table α} (ht : t.Numbered) (rows : List α) :
    (t.insertAll rows).Numbered := by
  induction rows generalizing t with
  | nil =>
    rw [insertAll_nil]
    exact ht
  | cons row rows ih =>
    rw [insertAll_cons]
    exact ih (ht.insert row)

/-- The table with more rows behind the others, which satisfy a condition. -/
def GoesOn (P : α → Prop) (t t' : Table α) : Prop :=
  ∃ rows, t' = t.insertAll rows ∧ ∀ row ∈ rows, P row

variable {P Q : α → Prop} {t t' t'' : Table α}

theorem GoesOn.refl (t : Table α) : t.GoesOn P t :=
  ⟨[], (insertAll_nil t).symm, fun _ h => absurd h List.not_mem_nil⟩

theorem GoesOn.insert (t : Table α) {row : α} (h : P row) : t.GoesOn P (t.insert row) := by
  refine ⟨[row], ?_, ?_⟩
  · rw [insertAll_cons, insertAll_nil]
  · intro row' hrow'
    rw [List.mem_singleton.1 hrow']
    exact h

theorem GoesOn.trans (h : t.GoesOn P t') (h' : t'.GoesOn P t'') : t.GoesOn P t'' := by
  obtain ⟨rows, rfl, hP⟩ := h
  obtain ⟨rows', rfl, hP'⟩ := h'
  refine ⟨rows ++ rows', (insertAll_append t rows rows').symm, ?_⟩
  intro row hrow
  rcases List.mem_append.1 hrow with hrow | hrow
  · exact hP row hrow
  · exact hP' row hrow

theorem GoesOn.mono (h : t.GoesOn P t') (hPQ : ∀ row, P row → Q row) : t.GoesOn Q t' := by
  obtain ⟨rows, hrows, hP⟩ := h
  exact ⟨rows, hrows, fun row hrow => hPQ row (hP row hrow)⟩

theorem GoesOn.numbered (h : t.GoesOn P t') (ht : t.Numbered) : t'.Numbered := by
  obtain ⟨rows, rfl, -⟩ := h
  exact ht.insertAll rows

/-- What is in the table stays there. -/
theorem GoesOn.mem (h : t.GoesOn P t') {e : Int × α} (he : e ∈ t.rows) : e ∈ t'.rows := by
  obtain ⟨rows, rfl, -⟩ := h
  exact List.mem_append_left _ he

/-- What is in the table was there, or satisfies the condition. -/
theorem GoesOn.mem_or (h : t.GoesOn P t') {e : Int × α} (he : e ∈ t'.rows) :
    e ∈ t.rows ∨ P e.2 := by
  obtain ⟨rows, rfl, hP⟩ := h
  rcases List.mem_append.1 he with he | he
  · exact .inl he
  · refine .inr (hP e.2 ?_)
    rw [← map_snd_numbered t.issued rows]
    exact List.mem_map_of_mem he

end Table

/-! ### The log that is seen -/

theorem Database.log_insertEvent {db db' : Database R} {row : EventRow} {n : Int}
    (h : db.insertEvent row = .ok (n, db')) :
    n = db.log.next ∧ db'.log = db.log.insert row ∧ db'.snapshots = db.snapshots := by
  obtain ⟨t, ht, -, rfl, rfl⟩ := Database.insertEvent_eq_ok.1 h
  rw [Database.log_of_some ht]
  exact ⟨rfl, rfl, rfl⟩

namespace Store

/-- The log as it is seen now. -/
def log (s : Store R) : Table EventRow :=
  match s.unit with
  | some u => u.pending.log
  | none => s.committed.log

theorem log_of_unit {s : Store R} {ctx : ExecutionContext} {db : Database R}
    (h : s.unit = some ⟨ctx, db⟩) : s.log = db.log := by
  unfold log
  rw [h]

/-- The log is seen as before, and if anything was committed, it is what was seen. -/
structure KeepsLog (s s' : Store R) : Prop where
  seen : s'.log = s.log
  committed : s'.committed.log = s.committed.log ∨ s'.committed.log = s.log

/-- The log that is seen goes on, and if anything was committed, it is a part of it. -/
structure GoesOn (P : EventRow → Prop) (s s' : Store R) : Prop where
  seen : s.log.GoesOn P s'.log
  committed : s'.committed.log = s.committed.log ∨ s.log.GoesOn P s'.committed.log

section

variable {P : EventRow → Prop} {s s' s'' : Store R}

theorem KeepsLog.goesOn (h : s.KeepsLog s') : s.GoesOn P s' where
  seen := h.seen ▸ .refl _
  committed := by
    rcases h.committed with hcommitted | hcommitted
    · exact .inl hcommitted
    · exact .inr (hcommitted ▸ .refl _)

theorem GoesOn.refl (s : Store R) : s.GoesOn P s := ⟨.refl _, .inl rfl⟩

theorem GoesOn.trans (h : s.GoesOn P s') (h' : s'.GoesOn P s'') : s.GoesOn P s'' where
  seen := h.seen.trans h'.seen
  committed := by
    rcases h'.committed with hsame | hcommitted
    · rw [hsame]
      exact h.committed
    · exact .inr (h.seen.trans hcommitted)

end

/-! ### What the engine does to it -/

/-- Saves leave the log as it is. -/
theorem save_log {ctx : ExecutionContext} {a : D.AggregateType} {snapshot : Snapshot D a}
    {s s' : Store R} {answer : Except Error Int} (h : (save ctx snapshot).run s = (answer, s')) :
    s'.log = s.log ∧ s'.committed = s.committed := by
  rcases answer with e | globalId
  · rw [store_of_save_error h]
    exact ⟨rfl, rfl⟩
  · obtain ⟨text, db, db', -, hu, rfl, hsaved⟩ := save_eq_ok h
    rw [log_of_unit hu]
    refine ⟨?_, rfl⟩
    rcases hsaved with ⟨-, hswap⟩ | ⟨-, hinsert⟩
    · obtain ⟨t, -, -, rfl⟩ := Database.swapAggregate_eq_ok.1 hswap
      rfl
    · obtain ⟨t, -, -, -, rfl⟩ := Database.insertAggregate_eq_ok.1 hinsert
      rfl

section

variable {ctx : ExecutionContext} {globalId : Int} {e : AnyEvent D} {metadata : Metadata}
  {s s' : Store R}

/-- An append adds the row of the event to the log. -/
theorem append_log {sequence : Int}
    (h : (append ctx globalId e metadata).run s = (.ok sequence, s')) :
    ∃ row, eventRow globalId metadata e = .ok row ∧ sequence = s.log.next ∧
      s'.log = s.log.insert row ∧ s'.committed = s.committed := by
  obtain ⟨row, db, db', hrow, hu, hinsert, rfl⟩ := append_eq_ok h
  obtain ⟨hsequence, hlog, -⟩ := Database.log_insertEvent hinsert
  rw [log_of_unit hu]
  exact ⟨row, hrow, hsequence, hlog, rfl⟩

/-- An append that fails changes nothing. -/
theorem store_of_append_error {fault : Error}
    (h : (append ctx globalId e metadata).run s = (.error fault, s')) : s' = s := by
  rw [append, Task.run_ofExcept_bind] at h
  split at h
  · exact store_of_statement_error h
  · exact (Prod.mk.inj h).2.symm

/-- What is appended carries the metadata of the event. -/
theorem append_goesOn {answer : Except Error Int}
    (h : (append ctx globalId e metadata).run s = (answer, s')) :
    s.GoesOn (fun row => row.metadata = metadata.text) s' := by
  rcases answer with fault | sequence
  · rw [store_of_append_error h]
    exact .refl s
  · obtain ⟨row, hrow, -, hlog, hcommitted⟩ := append_log h
    obtain ⟨payload, -, rfl⟩ := eventRow_eq_ok.1 hrow
    refine ⟨?_, .inl (congrArg Database.log hcommitted)⟩
    rw [hlog]
    exact Table.GoesOn.insert _ rfl

end

/-- What an append answers: an event that cannot be written is refused before anything
else, and then one without a unit of work, or without its aggregate. -/
theorem run_append (ctx : ExecutionContext) (globalId : Int) (e : AnyEvent D) (metadata : Metadata)
    (s : Store R) :
    (append ctx globalId e metadata).run s =
      match e.payload with
      | .error fault => (.error fault, s)
      | .ok payload =>
        match s.pending? ctx with
        | none => (.error .noUnitOfWork, s)
        | some db =>
          match db.insertEvent ⟨globalId, e.typeName, payload, metadata.text⟩ with
          | .error fault => (.error (.database fault), s)
          | .ok (sequence, db') => (.ok sequence, ⟨s.committed, some ⟨ctx, db'⟩⟩) := by
  rw [append, Task.run_ofExcept_bind]
  rcases e.payload with fault | payload
  · rfl
  · rcases hpending : s.pending? ctx with _ | db
    · simp only [statement]
      rw [Task.run_bind_of_error (run_current_none hpending)]
    · simp only [statement]
      rw [Task.run_bind_of_ok (run_current (pending?_eq_some.1 hpending))]
      rcases db.insertEvent ⟨globalId, e.typeName, payload, metadata.text⟩ with
        fault | ⟨sequence, db'⟩
      · rfl
      · rfl

/-! ### How it is read -/

/-- A row is read with its metadata. -/
theorem recordOf_eq_ok {sequence : Int} {row : EventRow} {metadata : Metadata}
    (h : Metadata.codec.deserialize row.typeName row.metadata = .ok metadata) :
    recordOf sequence row =
      .ok ⟨sequence, row.aggregateGlobalId, row.typeName, row.payload, metadata⟩ := by
  unfold recordOf
  rw [h]
  rfl

/-- The events of an aggregate are those of its rows, in the order of the table. -/
theorem run_eventsOf {s : Store R} {t : Table EventRow} (h : s.committed.events = some t)
    (globalId : Int) :
    (eventsOf globalId).run s =
      ((t.rows.filter fun r => r.2.aggregateGlobalId == globalId).mapM fun r => recordOf r.1 r.2,
        s) := by
  have hquery : (queryCommitted Database.eventTable : Task (Store R) _).run s = (.ok t, s) := by
    rw [queryCommitted, Task.run_get_bind, Database.eventTable, h]
    rfl
  rw [eventsOf, Task.run_bind_of_ok hquery, Task.run_ofExcept]

end Store

end Chronicle
