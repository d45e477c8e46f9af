/-
Chronicle/Proofs/Store/Rows.lean

What successful loads, saves and appends have to do with the rows of the tables.

A snapshot that was `Loaded` from a database is the stored one or a fresh one, a
save swaps the row of the former and inserts one for the latter, and
`Store.eventRow` is the row that an append inserts.
-/
import Chronicle.Proofs.Store.Numbering
import Chronicle.Proofs.Store.UnitOfWork

namespace Chronicle

variable {D : Domain} {R : Type}

/-! ### Reading back -/

namespace Codec

variable {α : Type}

/-- Every text that is written for a value is read back as the value. -/
def ReadsBack (c : Codec α) : Prop :=
  ∀ label a text, c.serialize label a = .ok text → c.deserialize label text = .ok a

/-- An optional value that is read as present is what the codec itself reads. -/
theorem deserialize_of_optional {c : Codec α} {label text : String} {a : α}
    (h : c.optional.deserialize label text = .ok (some a)) : c.deserialize label text = .ok a := by
  unfold deserialize at h ⊢
  rcases hread : Json.Tree.read? text with _ | t
  · rw [hread] at h
    cases h
  · rw [hread] at h
    rcases hdecode : c.decode t with _ | b
    · cases t <;> simp [optional, hdecode] at h
    · cases t <;> simp_all [optional]

/-- A present value that is read from what was written for an optional one is that
one. -/
theorem ReadsBack.optional {c : Codec α} (h : c.ReadsBack) {label text : String} {o : Option α}
    {a : α} (hwritten : c.optional.serialize label o = .ok text)
    (hread : c.optional.deserialize label text = .ok (some a)) : o = some a := by
  rcases o with _ | b
  · cases hwritten
    cases hread
  · have hb : c.deserialize label text = .ok b := h label b text hwritten
    rw [deserialize_of_optional hread] at hb
    rw [Except.ok.inj hb]

end Codec

/-! ### Databases with the same tables -/

namespace Database

theorem SameTables.snapshots {db db' : Database R} (h : db.SameTables db') :
    db'.snapshots = db.snapshots := by
  rw [Database.snapshots, Database.snapshots, h.aggregates]

theorem SameTables.log {db db' : Database R} (h : db.SameTables db') : db'.log = db.log := by
  rw [Database.log, Database.log, h.events]

theorem SameTables.sound {db db' : Database R} (h : db.SameTables db') (hdb : db.Sound) :
    db'.Sound :=
  hdb.congr h.snapshots h.log

theorem SameTables.keeps {db db' : Database R} (h : db.SameTables db') : db.Keeps db' := by
  intro g row hrow
  rw [← h.snapshots] at hrow
  exact ⟨row, hrow, rfl, rfl⟩

/-- Statements of the engine keep a database sound. -/
theorem admits_sound : Admits fun db db' : Database R => db.Sound → db'.Sound where
  refl _ h := h
  trans _ _ _ h h' hdb := h' (h hdb)
  insertAggregate _ _ _ _ h hdb := hdb.insertAggregate h
  swapAggregate _ _ _ _ _ _ _ h hdb := hdb.swapAggregate h
  insertEvent _ _ _ _ h hdb := hdb.insertEvent h

end Database

/-! ### Loading -/

/-- The snapshot of an id: the stored one, or a fresh one if there is none. -/
inductive Loaded (db : Database R) (a : D.AggregateType) (id : Uuid) : Snapshot D a → Prop
  | fresh : db.findAggregate id = .ok none → Loaded db a id (Snapshot.fresh id)
  | stored {globalId : Int} {row : AggregateRow} {state : D.State a} :
      db.findAggregate id = .ok (some (globalId, row)) → row.typeName = D.aggregateName a →
      (D.stateCodec a).optional.deserialize row.typeName row.state = .ok (some state) →
      Loaded db a id ⟨some globalId, id, row.typeName, some state, row.sequence, row.sequence⟩

theorem Loaded.businessId {db : Database R} {a : D.AggregateType} {id : Uuid}
    {snapshot : Snapshot D a} (h : Loaded db a id snapshot) : snapshot.businessId = id := by
  cases h <;> rfl

theorem Loaded.typeName {db : Database R} {a : D.AggregateType} {id : Uuid}
    {snapshot : Snapshot D a} (h : Loaded db a id snapshot) :
    snapshot.typeName = D.aggregateName a := by
  cases h with
  | fresh => rfl
  | stored _ hname => exact hname

/-- What is loaded depends on the table of snapshots only. -/
theorem Loaded.congr {db db' : Database R} (hdb : db.SameTables db') {a : D.AggregateType}
    {id : Uuid} {snapshot : Snapshot D a} (h : Loaded db a id snapshot) :
    Loaded db' a id snapshot := by
  have hfind : db'.findAggregate id = db.findAggregate id := by
    rw [Database.findAggregate, Database.findAggregate, Database.aggregateTable,
      Database.aggregateTable, hdb.aggregates]
  cases h with
  | fresh h => exact .fresh (hfind.trans h)
  | stored h hname hstate => exact .stored (hfind.trans h) hname hstate

/-- The row of a stored snapshot. -/
theorem Loaded.mem {db : Database R} {a : D.AggregateType} {id : Uuid} {snapshot : Snapshot D a}
    (h : Loaded db a id snapshot) {globalId : Int} (hid : snapshot.globalId = some globalId) :
    ∃ row, (globalId, row) ∈ db.snapshots.rows ∧ row.identifier = id ∧
      row.typeName = D.aggregateName a ∧ row.sequence = snapshot.initialSequence ∧
      ∃ state, snapshot.state = some state ∧
        (D.stateCodec a).optional.deserialize row.typeName row.state = .ok (some state) := by
  cases h with
  | fresh => cases hid
  | @stored globalId' row state hfind hname hstate =>
    cases hid
    obtain ⟨t, ht, hrow⟩ := Database.findAggregate_eq_ok.1 hfind
    rw [Database.snapshots_of_some ht]
    have hmem := List.mem_of_find?_eq_some hrow.symm
    have hrowId : row.identifier = id := by simpa using List.find?_some hrow.symm
    exact ⟨row, hmem, hrowId, hname, rfl, state, rfl, hstate⟩

/-- A fresh snapshot has an id without a row. -/
theorem Loaded.absent {db : Database R} {a : D.AggregateType} {id : Uuid} {snapshot : Snapshot D a}
    (h : Loaded db a id snapshot) (hid : snapshot.globalId = none) :
    snapshot = Snapshot.fresh id ∧ ∀ r ∈ db.snapshots.rows, r.2.identifier ≠ id := by
  cases h with
  | fresh hfind =>
    obtain ⟨t, ht, hrow⟩ := Database.findAggregate_eq_ok.1 hfind
    rw [Database.snapshots_of_some ht]
    have hnone := List.find?_eq_none.1 hrow.symm
    exact ⟨rfl, fun r hr => by simpa using hnone r hr⟩
  | stored => cases hid

/-- Whoever has a row is loaded from it. -/
theorem Loaded.globalId_of_mem {db : Database R} {a : D.AggregateType} {id : Uuid}
    {snapshot : Snapshot D a} (h : Loaded db a id snapshot) (hdb : db.Sound) {globalId : Int}
    {row : AggregateRow} (hrow : (globalId, row) ∈ db.snapshots.rows) (hid : row.identifier = id) :
    snapshot.globalId = some globalId := by
  rcases hnumber : snapshot.globalId with _ | globalId'
  · exact absurd hid ((h.absent hnumber).2 _ hrow)
  · obtain ⟨row', hrow', hid', -⟩ := h.mem hnumber
    have heq := List.inj_on_of_nodup_map hdb.identifiers hrow hrow' (hid.trans hid'.symm)
    rw [← (Prod.mk.inj heq).1]

theorem Loaded.globalId_of_absent {db : Database R} {a : D.AggregateType} {id : Uuid}
    {snapshot : Snapshot D a} (h : Loaded db a id snapshot)
    (hid : ∀ r ∈ db.snapshots.rows, r.2.identifier ≠ id) : snapshot.globalId = none := by
  rcases hnumber : snapshot.globalId with _ | globalId
  · rfl
  · obtain ⟨row, hrow, hrowId, -⟩ := h.mem hnumber
    exact absurd hrowId (hid _ hrow)

namespace Store

/-- A snapshot is made of a row of the right type that holds a state. -/
theorem snapshotOf_eq_ok {a : D.AggregateType} {id : Uuid} {found : Option (Int × AggregateRow)}
    {snapshot : Snapshot D a} (h : snapshotOf a id found = .ok snapshot) :
    ∃ globalId row state, found = some (globalId, row) ∧ row.typeName = D.aggregateName a ∧
      (D.stateCodec a).optional.deserialize row.typeName row.state = .ok (some state) ∧
      snapshot = ⟨some globalId, id, row.typeName, some state, row.sequence, row.sequence⟩ := by
  rcases found with _ | ⟨globalId, row⟩
  · cases h
  · simp only [snapshotOf] at h
    split at h
    · cases h
    · rename_i hname
      split at h
      · cases h
      · cases h
      · rename_i state hstate
        cases h
        exact ⟨globalId, row, state, rfl, Decidable.not_not.1 hname, hstate, rfl⟩

theorem snapshotOf_stored {a : D.AggregateType} {id : Uuid} {globalId : Int} {row : AggregateRow}
    {state : D.State a} (hname : row.typeName = D.aggregateName a)
    (hstate : (D.stateCodec a).optional.deserialize row.typeName row.state = .ok (some state)) :
    snapshotOf a id (some (globalId, row)) =
      .ok ⟨some globalId, id, row.typeName, some state, row.sequence, row.sequence⟩ := by
  simp only [snapshotOf, hname, ne_eq, not_true_eq_false, if_false]
  rw [hname] at hstate
  rw [hstate]

/-- The one row that is reported as not found is an absent one. -/
theorem snapshotOf_eq_notFound {a : D.AggregateType} {id id' : Uuid}
    {found : Option (Int × AggregateRow)} (h : snapshotOf a id found = .error (.notFound id')) :
    found = none := by
  rcases found with _ | ⟨globalId, row⟩
  · rfl
  · simp only [snapshotOf] at h
    split at h
    · cases h
    · split at h
      · -- a row that cannot be read is reported as such, never as not found
        rename_i e he
        cases h
        unfold Codec.deserialize at he
        split at he <;> cases he
      · cases h
      · cases h

/-- What a load answers.  The store stays as it is. -/
theorem run_load (ctx : ExecutionContext) (a : D.AggregateType) (id : Uuid) (s : Store R) :
    (load ctx a id).run s =
      (match s.pending? ctx with
        | none => .error .noUnitOfWork
        | some db =>
          match db.findAggregate id with
          | .error fault => .error (.database fault)
          | .ok found => snapshotOf a id found, s) := by
  rcases hpending : s.pending? ctx with _ | db
  · rw [load, query, Task.run_bind_of_error (Task.run_bind_of_error (run_current_none hpending))]
  · have hu := pending?_eq_some.1 hpending
    rcases hfind : db.findAggregate id with fault | found
    · have hquery : (query ctx fun db => db.findAggregate id).run s =
          (.error (.database fault), s) := by
        rw [query, Task.run_bind_of_ok (run_current hu), hfind]
        rfl
      rw [load, Task.run_bind_of_error hquery]
      dsimp only
      rw [hfind]
    · rw [load, Task.run_bind_of_ok (query_eq_ok.2 ⟨db, hu, hfind, rfl⟩), Task.run_ofExcept]
      dsimp only
      rw [hfind]

/-- Loads leave the store as it is, and make a snapshot of what is found. -/
theorem load_found {ctx : ExecutionContext} {a : D.AggregateType} {id : Uuid}
    {snapshot : Snapshot D a} {s s' : Store R} (h : (load ctx a id).run s = (.ok snapshot, s')) :
    s' = s ∧ ∃ db found, s.unit = some ⟨ctx, db⟩ ∧ db.findAggregate id = .ok found ∧
      snapshotOf a id found = .ok snapshot := by
  obtain ⟨found, s₁, hquery, hread⟩ := Task.bind_eq_ok.1 h
  obtain ⟨db, hu, hfind, rfl⟩ := query_eq_ok.1 hquery
  rw [Task.run_ofExcept] at hread
  obtain ⟨hok, rfl⟩ := Prod.mk.inj hread
  exact ⟨rfl, db, found, hu, hfind, hok⟩

theorem load_eq_ok {ctx : ExecutionContext} {a : D.AggregateType} {id : Uuid}
    {snapshot : Snapshot D a} {s s' : Store R} (h : (load ctx a id).run s = (.ok snapshot, s')) :
    s' = s ∧ ∃ db, s.unit = some ⟨ctx, db⟩ ∧ Loaded db a id snapshot := by
  obtain ⟨hs, db, found, hu, hfind, hok⟩ := load_found h
  obtain ⟨globalId, row, state, rfl, hname, hstate, rfl⟩ := snapshotOf_eq_ok hok
  exact ⟨hs, db, hu, .stored hfind hname hstate⟩

/-- Loads of what is committed leave the store as it is. -/
theorem loadCommitted_found {a : D.AggregateType} {id : Uuid} {snapshot : Snapshot D a}
    {s s' : Store R} (h : (loadCommitted a id).run s = (.ok snapshot, s')) :
    s' = s ∧ ∃ found, s.committed.findAggregate id = .ok found ∧
      snapshotOf a id found = .ok snapshot := by
  obtain ⟨found, s₁, hquery, hread⟩ := Task.bind_eq_ok.1 h
  rw [Task.run_ofExcept] at hread
  obtain ⟨hok, rfl⟩ := Prod.mk.inj hread
  rw [queryCommitted, Task.run_get_bind] at hquery
  split at hquery
  · rename_i found' hfind
    cases hquery
    exact ⟨rfl, found, hfind, hok⟩
  · cases hquery

theorem load_eq_notFound {ctx : ExecutionContext} {a : D.AggregateType} {id id' : Uuid}
    {s s' : Store R} (h : (load ctx a id).run s = (.error (.notFound id'), s')) :
    s' = s ∧ ∃ db, s.unit = some ⟨ctx, db⟩ ∧ db.findAggregate id = .ok none := by
  rw [run_load] at h
  obtain ⟨hanswer, rfl⟩ := Prod.mk.inj h
  -- the other ways to fail give other errors
  split at hanswer
  · cases hanswer
  · rename_i db hpending
    split at hanswer
    · cases hanswer
    · rename_i found hfind
      rw [snapshotOf_eq_notFound hanswer] at hfind
      exact ⟨rfl, db, pending?_eq_some.1 hpending, hfind⟩

theorem run_loadCommitted {a : D.AggregateType} {id : Uuid} {snapshot : Snapshot D a}
    {s : Store R} {found : Option (Int × AggregateRow)}
    (hfind : s.committed.findAggregate id = .ok found)
    (hsnapshot : snapshotOf a id found = .ok snapshot) :
    (loadCommitted a id).run s = (.ok snapshot, s) := by
  have hquery : (queryCommitted fun db => db.findAggregate id : Task (Store R) _).run s =
      (.ok found, s) := by
    rw [queryCommitted, Task.run_get_bind, hfind]
    rfl
  rw [loadCommitted, Task.run_bind_of_ok hquery, Task.run_ofExcept, hsnapshot]

/-! ### Appending -/

/-- The row that an event becomes in the log. -/
def eventRow (globalId : Int) (metadata : Metadata) (e : AnyEvent D) : Except Error EventRow := do
  let payload ← e.payload
  return ⟨globalId, e.typeName, payload, metadata.text⟩

theorem eventRow_eq_ok {globalId : Int} {metadata : Metadata} {e : AnyEvent D} {row : EventRow} :
    eventRow globalId metadata e = .ok row ↔ ∃ payload, e.payload = .ok payload ∧
      row = ⟨globalId, e.typeName, payload, metadata.text⟩ := by
  rcases h : e.payload with e' | payload
  · simp [eventRow, h, bind, Except.bind]
  · simp [eventRow, h, bind, Except.bind, pure, Except.pure, eq_comm]

/-- An append inserts the row of its event. -/
theorem append_eq_ok {ctx : ExecutionContext} {globalId sequence : Int} {e : AnyEvent D}
    {metadata : Metadata} {s s' : Store R}
    (h : (append ctx globalId e metadata).run s = (.ok sequence, s')) :
    ∃ row db db', eventRow globalId metadata e = .ok row ∧ s.unit = some ⟨ctx, db⟩ ∧
      db.insertEvent row = .ok (sequence, db') ∧ s' = ⟨s.committed, some ⟨ctx, db'⟩⟩ := by
  obtain ⟨payload, s₁, hpayload, hstatement⟩ := Task.bind_eq_ok.1 h
  rw [Task.run_ofExcept] at hpayload
  obtain ⟨hok, rfl⟩ := Prod.mk.inj hpayload
  obtain ⟨db, db', hu, hinsert, rfl⟩ := statement_eq_ok.1 hstatement
  exact ⟨_, db, db', eventRow_eq_ok.2 ⟨payload, hok, rfl⟩, hu, hinsert, rfl⟩

/-! ### Saving -/

/-- A save of a stored snapshot swaps its row, and one of a fresh snapshot inserts one. -/
theorem save_eq_ok {ctx : ExecutionContext} {a : D.AggregateType} {snapshot : Snapshot D a}
    {globalId : Int} {s s' : Store R} (h : (save ctx snapshot).run s = (.ok globalId, s')) :
    ∃ text db db', stateText snapshot = .ok text ∧ s.unit = some ⟨ctx, db⟩ ∧
      s' = ⟨s.committed, some ⟨ctx, db'⟩⟩ ∧
      (snapshot.globalId = some globalId ∧
          db.swapAggregate globalId snapshot.initialSequence snapshot.sequence text =
            .ok (true, db') ∨
        snapshot.globalId = none ∧
          db.insertAggregate ⟨snapshot.businessId, snapshot.typeName, snapshot.sequence, text⟩ =
            .ok (globalId, db')) := by
  obtain ⟨text, s₁, htext, hsave⟩ := Task.bind_eq_ok.1 h
  rw [Task.run_ofExcept] at htext
  obtain ⟨hok, rfl⟩ := Prod.mk.inj htext
  split at hsave
  · rename_i globalId' hid
    obtain ⟨done, s₂, hstatement, hdone⟩ := Task.bind_eq_ok.1 hsave
    obtain ⟨db, db', hu, hswap, rfl⟩ := statement_eq_ok.1 hstatement
    split at hdone
    · rename_i htrue
      cases hdone
      rw [htrue] at hswap
      exact ⟨text, db, db', hok, hu, rfl, .inl ⟨hid, hswap⟩⟩
    · cases hdone
  · rename_i hid
    obtain ⟨db, s₂, hcurrent, hrest⟩ := Task.bind_eq_ok.1 hsave
    obtain ⟨hu, rfl⟩ := current_eq_ok.1 hcurrent
    split at hrest
    · rename_i globalId' db' hinsert
      cases hrest
      exact ⟨text, db, db', hok, hu, rfl, .inr ⟨hid, hinsert⟩⟩
    · cases hrest
    · cases hrest

/-- A state that cannot be written is refused before anything else. -/
theorem run_save_unwritten {ctx : ExecutionContext} {a : D.AggregateType} {snapshot : Snapshot D a}
    {e : Error} (h : stateText snapshot = .error e) (s : Store R) :
    (save ctx snapshot).run s = (.error e, s) := by
  rw [save, Task.run_ofExcept_bind, h]

/-- A save of a stored snapshot whose row has another sequence is a conflict, and
changes nothing. -/
theorem run_save_outdated {ctx : ExecutionContext} {a : D.AggregateType} {snapshot : Snapshot D a}
    {s : Store R} {db : Database R} {t : Table AggregateRow} {globalId : Int} {text : String}
    (hu : s.unit = some ⟨ctx, db⟩) (ht : db.aggregates = some t)
    (hid : snapshot.globalId = some globalId) (htext : stateText snapshot = .ok text)
    (houtdated : ∀ row, (globalId, row) ∈ t.rows → row.sequence ≠ snapshot.initialSequence) :
    (save ctx snapshot).run s =
      (.error (.conflict snapshot.businessId snapshot.initialSequence), s) := by
  have hdb : ({ db with aggregates := some t } : Database R) = db := by
    rw [← ht]
  have hswap : db.swapAggregate globalId snapshot.initialSequence snapshot.sequence text =
      .ok (false, db) := by
    refine Database.swapAggregate_eq_ok.2 ⟨t, ht, ?_, ?_⟩
    · simpa using houtdated
    · rw [Database.swapped_eq_self houtdated, hdb]
  have hs : (⟨s.committed, some ⟨ctx, db⟩⟩ : Store R) = s := by
    rw [← hu]
  have hstatement : (statement ctx fun db =>
      db.swapAggregate globalId snapshot.initialSequence snapshot.sequence text).run s =
        (.ok false, s) :=
    statement_eq_ok.2 ⟨db, db, hu, hswap, hs.symm⟩
  rw [save, Task.run_ofExcept_bind, htext]
  simp only [hid]
  rw [Task.run_bind_of_ok hstatement]
  rfl

/-- A save of a fresh snapshot whose id has a row is a conflict, and changes nothing. -/
theorem run_save_taken {ctx : ExecutionContext} {a : D.AggregateType} {snapshot : Snapshot D a}
    {s : Store R} {db : Database R} {t : Table AggregateRow} {text : String}
    (hu : s.unit = some ⟨ctx, db⟩) (ht : db.aggregates = some t) (hid : snapshot.globalId = none)
    (htext : stateText snapshot = .ok text)
    (htaken : ∃ r ∈ t.rows, r.2.identifier = snapshot.businessId) :
    (save ctx snapshot).run s =
      (.error (.conflict snapshot.businessId snapshot.initialSequence), s) := by
  have hinsert : db.insertAggregate
      ⟨snapshot.businessId, snapshot.typeName, snapshot.sequence, text⟩ =
        .error (.duplicate "aggregate.aggregate_identifier") := by
    have hsome : (t.find? fun r => r.identifier == snapshot.businessId).isSome := by
      simpa [Table.find?] using htaken
    simp only [Database.insertAggregate, Database.aggregateTable, ht, bind, Except.bind]
    rw [if_pos hsome]
  rw [save, Task.run_ofExcept_bind, htext]
  simp only [hid]
  rw [Task.run_bind_of_ok (run_current hu)]
  simp only [hinsert]
  rfl

/-- A save that fails changes nothing. -/
theorem store_of_save_error {ctx : ExecutionContext} {a : D.AggregateType}
    {snapshot : Snapshot D a} {s s' : Store R} {e : Error}
    (h : (save ctx snapshot).run s = (.error e, s')) : s' = s := by
  rcases htext : stateText snapshot with e' | text
  · rw [run_save_unwritten htext] at h
    exact (Prod.mk.inj h).2.symm
  rw [save, Task.run_ofExcept_bind, htext] at h
  dsimp only at h
  split at h
  · rename_i globalId hid
    rcases hstatement : (statement ctx fun db =>
        db.swapAggregate globalId snapshot.initialSequence snapshot.sequence text).run s with
      ⟨e' | swapped, s₁⟩
    · rw [Task.run_bind_of_error hstatement] at h
      obtain ⟨-, rfl⟩ := Prod.mk.inj h
      exact store_of_statement_error hstatement
    · rw [Task.run_bind_of_ok hstatement] at h
      obtain ⟨db, db', hu, hswap, rfl⟩ := statement_eq_ok.1 hstatement
      obtain ⟨t, ht, hswapped, rfl⟩ := Database.swapAggregate_eq_ok.1 hswap
      split at h
      · cases h
      · -- no row was met, so none was changed
        rename_i hfalse
        have hunmet : ∀ row, (globalId, row) ∈ t.rows → row.sequence ≠ snapshot.initialSequence :=
          fun row hrow heq => hfalse (hswapped.2 ⟨row, hrow, heq⟩)
        obtain ⟨-, rfl⟩ := Prod.mk.inj h
        rw [Database.swapped_eq_self hunmet, ← ht, ← hu]
  · rcases hpending : s.pending? ctx with _ | db
    · rw [Task.run_bind_of_error (run_current_none hpending)] at h
      exact (Prod.mk.inj h).2.symm
    · rw [Task.run_bind_of_ok (run_current (pending?_eq_some.1 hpending))] at h
      split at h
      · cases h
      · exact (Prod.mk.inj h).2.symm
      · exact (Prod.mk.inj h).2.symm

end Store

end Chronicle
