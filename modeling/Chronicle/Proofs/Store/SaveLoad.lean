/-
Chronicle/Proofs/Store/SaveLoad.lean

A save followed by loads, in any unit of work on any sound database.

A snapshot is `Obtained` from a database and may be saved to another one, later or at
another time.  It `Fits` a database if its row has the sequence that was loaded, or if it
has no number and there is no row of its id.  A save succeeds exactly if its state can be
written and the snapshot fits (`run_save_of_fits`, `run_save_of_not_fits`), and then it
`Stores` one row and leaves everything else.

What is loaded afterwards is what was saved if the snapshot `Owns` the row of its number.
That is so if the database keeps the rows of the one that the snapshot was obtained from
(`owns_of_keeps`), as all statements do (`admits_keeps`).  Giving up a unit of work does
not: its numbers are given again, and a snapshot that was loaded in it may fit the row of
another aggregate (`stale_save_overwrites`).

Main result: `save_then_load`.
-/
import Chronicle.Proofs.Bench.Codec
import Chronicle.Proofs.Store.Rows

namespace Chronicle

variable {D : Domain} {R : Type} {a : D.AggregateType}

/-! ### Snapshots and databases -/

namespace Snapshot

/-- The row of the snapshot has the sequence that was loaded.  A snapshot without a number
has no row of its id. -/
def Fits (snapshot : Snapshot D a) (db : Database R) : Prop :=
  match snapshot.globalId with
  | some n => ∃ row, (n, row) ∈ db.snapshots.rows ∧ row.sequence = snapshot.initialSequence
  | none => ∀ r ∈ db.snapshots.rows, r.2.identifier ≠ snapshot.businessId

theorem fits_of_none {snapshot : Snapshot D a} (h : snapshot.globalId = none) (db : Database R) :
    snapshot.Fits db ↔ ∀ r ∈ db.snapshots.rows, r.2.identifier ≠ snapshot.businessId := by
  rw [Fits, h]

theorem fits_of_some {snapshot : Snapshot D a} {n : Int} (h : snapshot.globalId = some n)
    (db : Database R) : snapshot.Fits db ↔
      ∃ row, (n, row) ∈ db.snapshots.rows ∧ row.sequence = snapshot.initialSequence := by
  rw [Fits, h]

/-- The row of the number is one of the same id and type. -/
def Owns (snapshot : Snapshot D a) (db : Database R) : Prop :=
  ∀ n row, snapshot.globalId = some n → (n, row) ∈ db.snapshots.rows →
    row.identifier = snapshot.businessId ∧ row.typeName = snapshot.typeName

/-- The number that a save gives. -/
def numberIn (snapshot : Snapshot D a) (db : Database R) : Int :=
  snapshot.globalId.getD db.snapshots.next

/-- What a save makes of a row, or of none. -/
def rowOver (snapshot : Snapshot D a) (text : String) : Option AggregateRow → AggregateRow
  | some row => { row with sequence := snapshot.sequence, state := text }
  | none => ⟨snapshot.businessId, snapshot.typeName, snapshot.sequence, text⟩

/-- Where snapshots come from: they are fresh, or loaded from a database, in a unit of
work or not. -/
inductive Obtained (origin : Database R) : Snapshot D a → Prop
  | fresh (id : Uuid) : Obtained origin (Snapshot.fresh id)
  | load {ctx : ExecutionContext} {id : Uuid} {snapshot : Snapshot D a} {s s' : Store R} :
      s.unit = some ⟨ctx, origin⟩ → (Store.load ctx a id).run s = (.ok snapshot, s') →
      Obtained origin snapshot
  | loadCommitted {id : Uuid} {snapshot : Snapshot D a} {s s' : Store R} :
      s.committed = origin → (Store.loadCommitted a id).run s = (.ok snapshot, s') →
      Obtained origin snapshot

/-- A snapshot with a number is read from the row of this number. -/
theorem Obtained.exists_row {origin : Database R} {snapshot : Snapshot D a}
    (h : snapshot.Obtained origin) : snapshot.typeName = D.aggregateName a ∧
      ∀ n, snapshot.globalId = some n → ∃ row, (n, row) ∈ origin.snapshots.rows ∧
        row.identifier = snapshot.businessId ∧ row.typeName = snapshot.typeName := by
  have hread {db : Database R} {id : Uuid} {found : Option (Int × AggregateRow)}
      {snapshot : Snapshot D a} (hfind : db.findAggregate id = .ok found)
      (hok : Store.snapshotOf a id found = .ok snapshot) :
      snapshot.typeName = D.aggregateName a ∧
        ∀ n, snapshot.globalId = some n → ∃ row, (n, row) ∈ db.snapshots.rows ∧
          row.identifier = snapshot.businessId ∧ row.typeName = snapshot.typeName := by
    obtain ⟨g, row, state, rfl, hname, hstate, rfl⟩ := Store.snapshotOf_eq_ok hok
    refine ⟨hname, fun n hn => ?_⟩
    cases hn
    obtain ⟨row', hrow', hid, hname', -⟩ := (Loaded.stored hfind hname hstate).mem rfl
    exact ⟨row', hrow', hid, hname'.trans hname.symm⟩
  cases h with
  | fresh id => exact ⟨rfl, nofun⟩
  | load hu hload =>
    obtain ⟨-, db, found, hu', hfind, hok⟩ := Store.load_found hload
    cases hu.symm.trans hu'
    exact hread hfind hok
  | loadCommitted hcommitted hload =>
    obtain ⟨-, found, hfind, hok⟩ := Store.loadCommitted_found hload
    rw [hcommitted] at hfind
    exact hread hfind hok

/-- Whoever keeps the rows of a database keeps those of the snapshots obtained from it. -/
theorem Obtained.owns_of_keeps {origin db : Database R} {snapshot : Snapshot D a}
    (h : snapshot.Obtained origin) (hdb : db.Sound) (hkeeps : origin.Keeps db) :
    snapshot.Owns db := by
  intro n row hn hrow
  obtain ⟨row', hrow', hid, hname⟩ := h.exists_row.2 n hn
  obtain ⟨row'', hrow'', hid', hname'⟩ := hkeeps n row' hrow'
  rw [hdb.snapshots.unique hrow hrow'']
  exact ⟨hid'.trans hid, hname'.trans hname⟩

end Snapshot

namespace Database

/-- Statements of the engine keep all rows. -/
theorem admits_keeps : Admits (R := R) Keeps where
  refl := Keeps.refl
  trans _ _ _ h h' := h.trans h'
  insertAggregate db db' row n h := by
    obtain ⟨t, ht, -, -, rfl⟩ := insertAggregate_eq_ok.1 h
    intro g old hold
    rw [snapshots_of_some ht] at hold
    exact ⟨old, List.mem_append_left _ hold, rfl, rfl⟩
  swapAggregate db db' key expected sequence state done h := by
    obtain ⟨t, ht, -, rfl⟩ := swapAggregate_eq_ok.1 h
    intro g old hold
    rw [snapshots_of_some ht] at hold
    show ∃ row, (g, row) ∈ (swapped t key expected sequence state).rows ∧ _ ∧ _
    by_cases hmet : g == key && old.sequence == expected
    · exact ⟨{ old with state, sequence }, Table.mem_update.2 ⟨old, hold, (if_pos hmet).symm⟩,
        rfl, rfl⟩
    · exact ⟨old, Table.mem_update.2 ⟨old, hold, (if_neg hmet).symm⟩, rfl, rfl⟩
  insertEvent db db' row n h := by
    obtain ⟨_, _, _, _, rfl⟩ := insertEvent_eq_ok.1 h
    exact Keeps.refl db

end Database

namespace Store

/-! ### Saves that succeed -/

/-- What a save leaves: the row of its number, and everything else as it was. -/
structure Stores (snapshot : Snapshot D a) (text : String) (db db' : Database R) : Prop where
  table : db.aggregates.isSome
  row : db'.snapshots.get? (snapshot.numberIn db) =
    some (snapshot.rowOver text (db.snapshots.get? (snapshot.numberIn db)))
  others : (db'.snapshots.rows.filter fun r => r.1 ≠ snapshot.numberIn db) =
    db.snapshots.rows.filter fun r => r.1 ≠ snapshot.numberIn db
  events : db'.events = db.events
  readModel : db'.readModel = db.readModel

/-- A snapshot that fits is saved. -/
theorem run_save_of_fits {ctx : ExecutionContext} {snapshot : Snapshot D a} {s : Store R}
    {db : Database R} {t : Table AggregateRow} {text : String} (hu : s.unit = some ⟨ctx, db⟩)
    (ht : db.aggregates = some t) (htext : stateText snapshot = .ok text)
    (hfits : snapshot.Fits db) :
    ∃ db', (save ctx snapshot).run s =
      (.ok (snapshot.numberIn db), ⟨s.committed, some ⟨ctx, db'⟩⟩) := by
  rw [save, Task.run_ofExcept_bind, htext, Snapshot.numberIn, Database.snapshots_of_some ht]
  dsimp only
  rcases hid : snapshot.globalId with _ | n
  · rw [Snapshot.fits_of_none hid, Database.snapshots_of_some ht] at hfits
    have hinsert : db.insertAggregate ⟨snapshot.businessId, snapshot.typeName, snapshot.sequence,
        text⟩ = .ok (t.next, _) :=
      Database.insertAggregate_eq_ok.2 ⟨t, ht, hfits, rfl, rfl⟩
    dsimp only
    rw [Task.run_bind_of_ok (run_current hu), hinsert]
    exact ⟨_, rfl⟩
  · rw [Snapshot.fits_of_some hid, Database.snapshots_of_some ht] at hfits
    have hswap : db.swapAggregate n snapshot.initialSequence snapshot.sequence text =
        .ok (true, _) :=
      Database.swapAggregate_eq_ok.2 ⟨t, ht, iff_of_true rfl hfits, rfl⟩
    dsimp only
    rw [Task.run_bind_of_ok (statement_eq_ok.2 ⟨db, _, hu, hswap, rfl⟩)]
    exact ⟨_, rfl⟩

/-- A snapshot that does not fit is a conflict. -/
theorem run_save_of_not_fits {ctx : ExecutionContext} {snapshot : Snapshot D a} {s : Store R}
    {db : Database R} {t : Table AggregateRow} {text : String} (hu : s.unit = some ⟨ctx, db⟩)
    (ht : db.aggregates = some t) (htext : stateText snapshot = .ok text)
    (hfits : ¬snapshot.Fits db) :
    (save ctx snapshot).run s =
      (.error (.conflict snapshot.businessId snapshot.initialSequence), s) := by
  rcases hid : snapshot.globalId with _ | n
  · rw [Snapshot.fits_of_none hid, Database.snapshots_of_some ht] at hfits
    have htaken : ∃ r ∈ t.rows, r.2.identifier = snapshot.businessId := by simpa using hfits
    exact run_save_taken hu ht hid htext htaken
  · rw [Snapshot.fits_of_some hid, Database.snapshots_of_some ht] at hfits
    exact run_save_outdated hu ht hid htext fun row hrow heq => hfits ⟨row, hrow, heq⟩

/-- Without its table nothing is saved. -/
theorem run_save_of_no_table {ctx : ExecutionContext} {snapshot : Snapshot D a} {s : Store R}
    {db : Database R} {text : String} (hu : s.unit = some ⟨ctx, db⟩) (ht : db.aggregates = none)
    (htext : stateText snapshot = .ok text) :
    (save ctx snapshot).run s = (.error (.database (.missingTable "aggregate")), s) := by
  rw [save, Task.run_ofExcept_bind, htext]
  dsimp only
  rcases hid : snapshot.globalId with _ | n
  · dsimp only
    rw [Task.run_bind_of_ok (run_current hu), Database.insertAggregate, Database.aggregateTable, ht]
    rfl
  · have hstatement : (statement ctx fun db => db.swapAggregate n snapshot.initialSequence
        snapshot.sequence text).run s = (.error (.database (.missingTable "aggregate")), s) := by
      rw [statement, Task.run_bind_of_ok (run_current hu), Database.swapAggregate,
        Database.aggregateTable, ht]
      rfl
    exact Task.run_bind_of_error hstatement

section

variable {snapshot : Snapshot D a} {text : String} {db db' : Database R} {n : Int}
  (hdb : db.Sound)

include hdb

/-- The number of a new snapshot has no row. -/
theorem get?_numberIn_of_new (hid : snapshot.globalId = none) :
    db.snapshots.get? (snapshot.numberIn db) = none := by
  rw [Snapshot.numberIn, hid]
  exact hdb.snapshots.get?_next

theorem stores_of_swap (hid : snapshot.globalId = some n)
    (hswap : db.swapAggregate n snapshot.initialSequence snapshot.sequence text =
      .ok (true, db')) :
    snapshot.Fits db ∧ snapshot.numberIn db = n ∧ Stores snapshot text db db' := by
  have hdb' := hdb.swapAggregate hswap
  obtain ⟨t, ht, hdone, rfl⟩ := Database.swapAggregate_eq_ok.1 hswap
  have hsnapshots := Database.snapshots_of_some ht
  obtain ⟨row, hrow, hsequence⟩ := hdone.1 rfl
  have hnumber : snapshot.numberIn db = n := by
    rw [Snapshot.numberIn, hid]
    rfl
  have hget : db.snapshots.get? n = some row := by
    rw [hsnapshots, Table.Numbered.get?_eq_some (hsnapshots ▸ hdb.snapshots)]
    exact hrow
  refine ⟨(Snapshot.fits_of_some hid db).2 ⟨row, hsnapshots ▸ hrow, hsequence⟩, hnumber, ?_⟩
  refine ⟨by rw [ht]; rfl, ?_, ?_, rfl, rfl⟩
  · rw [hnumber, hget, hdb'.snapshots.get?_eq_some, ← hsequence]
    exact Database.mem_swapped hrow _ _
  · rw [hnumber, hsnapshots]
    exact Database.filter_swapped t _ _ _ _

theorem stores_of_insert (hid : snapshot.globalId = none)
    (hinsert : db.insertAggregate
      ⟨snapshot.businessId, snapshot.typeName, snapshot.sequence, text⟩ = .ok (n, db')) :
    snapshot.Fits db ∧ snapshot.numberIn db = n ∧ Stores snapshot text db db' := by
  have hdb' := hdb.insertAggregate hinsert
  have hget := get?_numberIn_of_new hdb hid
  obtain ⟨t, ht, hnew, rfl, rfl⟩ := Database.insertAggregate_eq_ok.1 hinsert
  have hsnapshots := Database.snapshots_of_some ht
  have hnumber : snapshot.numberIn db = t.next := by
    rw [Snapshot.numberIn, hid, hsnapshots]
    rfl
  refine ⟨(Snapshot.fits_of_none hid db).2 (hsnapshots ▸ hnew), hnumber, ?_⟩
  refine ⟨by rw [ht]; rfl, ?_, ?_, rfl, rfl⟩
  · rw [hget, hnumber, hdb'.snapshots.get?_eq_some]
    exact List.mem_append_right _ List.mem_cons_self
  · rw [hnumber, hsnapshots]
    show (t.rows ++ [(t.next, _)]).filter _ = _
    rw [List.filter_append]
    simp

end

/-- A save that succeeds stores the row of its snapshot. -/
theorem save_stores {ctx : ExecutionContext} {snapshot : Snapshot D a} {s s' : Store R}
    {db : Database R} {n : Int} (hdb : db.Sound) (hu : s.unit = some ⟨ctx, db⟩)
    (h : (save ctx snapshot).run s = (.ok n, s')) :
    ∃ text db', stateText snapshot = .ok text ∧ s' = ⟨s.committed, some ⟨ctx, db'⟩⟩ ∧ db'.Sound ∧
      snapshot.Fits db ∧ snapshot.numberIn db = n ∧ Stores snapshot text db db' := by
  obtain ⟨text, db₁, db', htext, hu₁, hs', hcase⟩ := save_eq_ok h
  cases hu.symm.trans hu₁
  refine ⟨text, db', htext, hs', ?_⟩
  rcases hcase with ⟨hid, hswap⟩ | ⟨hid, hinsert⟩
  · exact ⟨hdb.swapAggregate hswap, stores_of_swap hdb hid hswap⟩
  · exact ⟨hdb.insertAggregate hinsert, stores_of_insert hdb hid hinsert⟩

/-! ### Loads after a save -/

/-- What a load answers in a unit of work. -/
theorem run_load_of_unit {ctx : ExecutionContext} {s : Store R} {db : Database R}
    (hu : s.unit = some ⟨ctx, db⟩) (a : D.AggregateType) (id : Uuid) :
    (load ctx a id).run s =
      (match db.findAggregate id with
        | .error fault => .error (.database fault)
        | .ok found => snapshotOf a id found, s) := by
  have hrun := run_load ctx a id s
  rw [pending?_eq_some.2 hu] at hrun
  exact hrun

/-- A snapshot that owns its row saves its id and its type with the rest. -/
theorem rowOver_of_owns {snapshot : Snapshot D a} {db : Database R} (hdb : db.Sound)
    (howns : snapshot.Owns db) (text : String) :
    snapshot.rowOver text (db.snapshots.get? (snapshot.numberIn db)) =
      ⟨snapshot.businessId, snapshot.typeName, snapshot.sequence, text⟩ := by
  rcases hget : db.snapshots.get? (snapshot.numberIn db) with _ | row
  · rfl
  · rcases hid : snapshot.globalId with _ | n
    · rw [get?_numberIn_of_new hdb hid] at hget
      cases hget
    · rw [Snapshot.numberIn, hid] at hget
      obtain ⟨hbusinessId, hname⟩ := howns n row hid (Table.mem_of_get? hget)
      rw [Snapshot.rowOver, hbusinessId, hname]

section

variable {snapshot : Snapshot D a} {text : String} {db db' : Database R} (hdb : db.Sound)
  (hdb' : db'.Sound) (howns : snapshot.Owns db) (h : Stores snapshot text db db')

include hdb hdb' howns h

theorem Stores.mem : (snapshot.numberIn db,
    (⟨snapshot.businessId, snapshot.typeName, snapshot.sequence, text⟩ : AggregateRow)) ∈
      db'.snapshots.rows := by
  have hrow := h.row
  rwa [rowOver_of_owns hdb howns, hdb'.snapshots.get?_eq_some] at hrow

/-- What was saved is loaded. -/
theorem Stores.load (hname : snapshot.typeName = D.aggregateName a) {state : D.State a}
    (hread : (D.stateCodec a).optional.deserialize snapshot.typeName text = .ok (some state))
    (ctx : ExecutionContext) (committed : Database R) :
    (Store.load ctx a snapshot.businessId).run ⟨committed, some ⟨ctx, db'⟩⟩ =
      (.ok ⟨some (snapshot.numberIn db), snapshot.businessId, snapshot.typeName, some state,
        snapshot.sequence, snapshot.sequence⟩, ⟨committed, some ⟨ctx, db'⟩⟩) := by
  have hfind := hdb'.findAggregate_eq_some.2 ⟨h.mem hdb hdb' howns, rfl⟩
  have hok : snapshotOf a snapshot.businessId (some (snapshot.numberIn db,
      ⟨snapshot.businessId, snapshot.typeName, snapshot.sequence, text⟩)) = .ok ⟨_, _, _, _, _, _⟩ :=
    snapshotOf_stored hname hread
  rw [run_load_of_unit rfl, hfind]
  dsimp only
  rw [hok]

/-- Other ids are found as before. -/
theorem Stores.findAggregate {id : Uuid} (hne : id ≠ snapshot.businessId) :
    db'.findAggregate id = db.findAggregate id := by
  have hmem := h.mem hdb hdb' howns
  have htable' : db'.aggregates.isSome := by
    obtain ⟨t, ht, -⟩ := Database.exists_aggregates_of_mem hmem
    rw [ht]
    rfl
  refine hdb.findAggregate_congr hdb' h.table htable' fun g row hrow => ?_
  by_cases hg : g = snapshot.numberIn db
  · -- the row of the number has the id of the snapshot, before and after
    subst hg
    refine iff_of_false (fun hrow' => ?_) fun hrow' => ?_
    · rw [hdb'.snapshots.unique hrow' hmem] at hrow
      exact hne hrow.symm
    · have hget := hdb.snapshots.get?_eq_some.2 hrow'
      have hover := rowOver_of_owns hdb howns text
      rw [hget] at hover
      exact hne (hrow.symm.trans (congrArg AggregateRow.identifier hover))
  · have hothers := congrArg ((g, row) ∈ ·) h.others
    simpa [hg] using hothers

end

/-- **Saves and loads.**  In a unit of work on a sound database, a snapshot that was
obtained from any database is given a state and a sequence, and saved.

* If the state can be written, the save succeeds exactly if the snapshot fits; it is a
  conflict otherwise.  It fails if the state cannot be written or there is no table.
* A save that fails changes nothing.
* A save that succeeds gives the number of the snapshot, or a new one, and changes the row
  of this number only.
* If the row of its number was one of the snapshot's id and type, as it is if the database
  has kept the rows of the one that the snapshot was obtained from, the snapshot is loaded
  as it was saved, provided that its state is present and its codec is sound, and all other
  loads answer as before. -/
theorem save_then_load {ctx : ExecutionContext} {s : Store R} {db origin : Database R}
    (hdb : db.Sound) (hu : s.unit = some ⟨ctx, db⟩) {base : Snapshot D a}
    (hbase : base.Obtained origin) (state : Option (D.State a)) (sequence : Int) :
    let snapshot := (base.withState state).advanceTo sequence
    let answer := ((save ctx snapshot).run s).1
    let s' := ((save ctx snapshot).run s).2
    (∀ e, stateText snapshot = .error e → answer = .error e) ∧
    (∀ text, stateText snapshot = .ok text →
      (db.aggregates = none → answer = .error (.database (.missingTable "aggregate"))) ∧
      (db.aggregates.isSome → ((∃ n, answer = .ok n) ↔ snapshot.Fits db) ∧
        (¬snapshot.Fits db →
          answer = .error (.conflict base.businessId base.initialSequence)))) ∧
    (∀ e, answer = .error e → s' = s) ∧
    ∀ n, answer = .ok n →
      (base.globalId = some n ∨ base.globalId = none ∧ ∀ r ∈ db.snapshots.rows, r.1 < n) ∧
      (∃ text db', stateText snapshot = .ok text ∧ n = snapshot.numberIn db ∧
        s' = ⟨s.committed, some ⟨ctx, db'⟩⟩ ∧ Stores snapshot text db db') ∧
      (origin.Keeps db → snapshot.Owns db) ∧
      (snapshot.Owns db →
        (∀ present, state = some present → (D.stateCodec a).RoundTrips →
          (D.stateCodec a).NeverNull → (load ctx a base.businessId).run s' =
            (.ok ⟨some n, base.businessId, base.typeName, some present, sequence, sequence⟩,
              s')) ∧
        ∀ b id, id ≠ base.businessId →
          ((load ctx (D := D) b id).run s').1 = ((load ctx b id).run s).1) := by
  intro snapshot answer s'
  have hrun : (save ctx snapshot).run s = (answer, s') := rfl
  obtain ⟨hname, -⟩ := hbase.exists_row
  refine ⟨fun e htext => ?_, fun text htext => ⟨fun ht => ?_, fun ht => ?_⟩, fun e he => ?_,
    fun n hn => ?_⟩
  · exact congrArg Prod.fst (run_save_unwritten htext s)
  · exact congrArg Prod.fst (run_save_of_no_table hu ht htext)
  · obtain ⟨t, ht⟩ := Option.isSome_iff_exists.1 ht
    have hconflict (hfits : ¬snapshot.Fits db) :
        answer = .error (.conflict base.businessId base.initialSequence) :=
      congrArg Prod.fst (run_save_of_not_fits hu ht htext hfits)
    refine ⟨⟨fun ⟨n, hn⟩ => ?_, fun hfits => ?_⟩, hconflict⟩
    · by_contra hfits
      cases hn.symm.trans (hconflict hfits)
    · obtain ⟨db', hsave⟩ := run_save_of_fits hu ht htext hfits
      exact ⟨_, congrArg Prod.fst hsave⟩
  · rw [he] at hrun
    exact store_of_save_error hrun
  · rw [hn] at hrun
    obtain ⟨text, db', htext, hs', hdb', -, rfl, hstores⟩ := save_stores hdb hu hrun
    have hnumber : snapshot.numberIn db = base.globalId.getD db.snapshots.next := rfl
    refine ⟨?_, ⟨text, db', htext, rfl, hs', hstores⟩, ?_, fun howns => ⟨?_, ?_⟩⟩
    · rcases hid : base.globalId with _ | n
      · rw [hnumber, hid]
        exact .inr ⟨rfl, fun r hr => hdb.snapshots.lt_next hr⟩
      · rw [hnumber, hid]
        exact .inl rfl
    · exact fun hkeeps => hbase.owns_of_keeps hdb hkeeps
    · rintro present rfl hroundTrips hneverNull
      rw [hs']
      exact hstores.load hdb hdb' howns hname
        (hroundTrips.deserialize_optional hneverNull htext) ctx s.committed
    · intro b id hne
      have hu' : s'.unit = some ⟨ctx, db'⟩ := by rw [hs']
      rw [run_load_of_unit hu, run_load_of_unit hu', hstores.findAggregate hdb hdb' howns hne]

/-! ### Labels -/

/-- The type of labels. -/
def label : Bench.vocabulary.AggregateType := Bench.AggregateType.label

/-- A label that was loaded from the first row. -/
def labelOf (id : Uuid) (text : String) (sequence : Int) : Snapshot Bench.vocabulary label :=
  ⟨some 1, id, "Label", some (Bench.Label.mk text), sequence, sequence⟩

/-- The text that is stored for a label. -/
def labelText (text : String) : String :=
  (Json.Tree.ofMembers [("text", .text text)]).render

/-- A database with a label in the first row. -/
def labelStored (id : Uuid) (text : String) (sequence : Int) : Database Unit :=
  ⟨some ⟨[(1, ⟨id, "Label", sequence, labelText text⟩)], 1⟩, some Table.empty, ()⟩

theorem insertAggregate_label (id : Uuid) (text : String) (sequence : Int) :
    (Database.blank ()).migrate.insertAggregate ⟨id, "Label", sequence, labelText text⟩ =
      .ok (1, labelStored id text sequence) := rfl

theorem sound_labelStored (id : Uuid) (text : String) (sequence : Int) :
    (labelStored id text sequence).Sound :=
  (Database.Reachable.insertAggregate (.migrate (.blank ()))
    (insertAggregate_label id text sequence)).sound

theorem serialize_label {text : String} (htext : text ≠ Bench.cursed) :
    (Bench.vocabulary.stateCodec label).serialize "Label" (Bench.Label.mk text) =
      .ok (labelText text) :=
  Codec.serialize_eq_ok.2 ⟨_, Bench.encode_guarded_of_ne htext _, rfl⟩

/-- The label is loaded from its row. -/
theorem run_load_label {ctx : ExecutionContext} {s : Store Unit} {id : Uuid} {text : String}
    {sequence : Int} (hu : s.unit = some ⟨ctx, labelStored id text sequence⟩)
    (htext : text ≠ Bench.cursed) :
    (load ctx label id).run s = (.ok (labelOf id text sequence), s) := by
  have hfind : (labelStored id text sequence).findAggregate id =
      .ok (some (1, ⟨id, "Label", sequence, labelText text⟩)) :=
    (sound_labelStored id text sequence).findAggregate_eq_some.2 ⟨List.mem_cons_self, rfl⟩
  have hstate : (Bench.vocabulary.stateCodec label).optional.deserialize "Label"
      (labelText text) = .ok (some (Bench.Label.mk text)) :=
    Bench.roundTrips_labelCodec.deserialize_optional Bench.neverNull_labelCodec
      (serialize_label htext)
  have hok : snapshotOf label id (some (1, ⟨id, "Label", sequence, labelText text⟩)) =
      .ok (labelOf id text sequence) :=
    snapshotOf_stored rfl hstate
  rw [run_load_of_unit hu, hfind]
  exact congrArg (·, s) hok

/-- A label that was loaded is changed, saved and loaded again. -/
theorem label_saved_and_loaded :
    let base := labelOf Uuid.zero "first" 1
    let db := labelStored Uuid.zero "first" 1
    let s : Store Unit := ⟨db, some ⟨⟨0⟩, db⟩⟩
    let snapshot := (base.withState (some (Bench.Label.mk "second"))).advanceTo 2
    let s' := ((save ⟨0⟩ snapshot).run s).2
    db.Sound ∧ base.Obtained db ∧ ((save ⟨0⟩ snapshot).run s).1 = .ok 1 ∧
      (load ⟨0⟩ label Uuid.zero).run s' = (.ok (labelOf Uuid.zero "second" 2), s') := by
  intro base db s snapshot s'
  have hdb : db.Sound := sound_labelStored _ _ _
  have hu : s.unit = some ⟨⟨0⟩, db⟩ := rfl
  have hbase : base.Obtained db := .load hu (run_load_label hu (by decide))
  have hfits : snapshot.Fits db := ⟨_, List.mem_cons_self, rfl⟩
  have htext : stateText snapshot = .ok (labelText "second") := rfl
  obtain ⟨-, hwritten, -, hsaved⟩ :=
    save_then_load hdb hu hbase (some (Bench.Label.mk "second")) 2
  obtain ⟨n, hn⟩ := ((hwritten _ htext).2 rfl).1.2 hfits
  obtain ⟨hnumber, -, howns, hloaded⟩ := hsaved n hn
  obtain rfl : 1 = n := by simpa [base, labelOf] using hnumber
  obtain ⟨hload, -⟩ := hloaded (howns (.refl db))
  exact ⟨hdb, hbase, hn, hload _ rfl Bench.roundTrips_labelCodec Bench.neverNull_labelCodec⟩

/-- A number that is given up with a unit of work is given again.  A label that was loaded
before that fits the row of another one, which it overwrites: it is saved, but is not found
afterwards, and the other one has its text. -/
theorem stale_save_overwrites :
    let stale := labelOf Uuid.zero "first" 1
    let other : Uuid := ⟨1#128⟩
    ∃ (s s' s'' : Store Unit) (db : Database Unit),
      (do
        acquire ⟨0⟩
        let _ ← save ⟨0⟩ (((Snapshot.fresh Uuid.zero : Snapshot Bench.vocabulary label).withState
          (some (Bench.Label.mk "first"))).advanceTo 1)
        load ⟨0⟩ label Uuid.zero).run (ofDatabase (Database.blank ()).migrate) =
          (.ok stale, s) ∧
      (do
        rollback ⟨0⟩
        acquire ⟨1⟩
        save ⟨1⟩ (((Snapshot.fresh other : Snapshot Bench.vocabulary label).withState
          (some (Bench.Label.mk "other"))).advanceTo 1)).run s = (.ok 1, s') ∧
      s'.unit = some ⟨⟨1⟩, db⟩ ∧ db.Sound ∧
      (save ⟨1⟩ ((stale.withState (some (Bench.Label.mk "second"))).advanceTo 2)).run s' =
        (.ok 1, s'') ∧
      ((load ⟨1⟩ label Uuid.zero).run s'').1 = .error (.notFound Uuid.zero) ∧
      ((load ⟨1⟩ label other).run s').1 = .ok (labelOf other "other" 1) ∧
      ((load ⟨1⟩ label other).run s'').1 = .ok (labelOf other "second" 2) := by
  intro stale other
  have hload {s : Store Unit} {ctx : ExecutionContext} {id : Uuid} {text : String} {n : Int}
      (hu : s.unit = some ⟨ctx, labelStored id text n⟩) (htext : text ≠ Bench.cursed) :
      ((load ctx label id).run s).1 = .ok (labelOf id text n) :=
    congrArg Prod.fst (run_load_label hu htext)
  let empty : Database Unit := (Database.blank ()).migrate
  let s₁ : Store Unit := ⟨empty, some ⟨⟨0⟩, empty⟩⟩
  let s₂ : Store Unit := ⟨empty, some ⟨⟨0⟩, labelStored Uuid.zero "first" 1⟩⟩
  have hacquire : (acquire ⟨0⟩).run (ofDatabase empty) = (.ok (), s₁) := rfl
  have hsave : (save ⟨0⟩ (((Snapshot.fresh Uuid.zero : Snapshot Bench.vocabulary label).withState
      (some (Bench.Label.mk "first"))).advanceTo 1)).run s₁ = (.ok 1, s₂) := rfl
  have hstale : (load ⟨0⟩ label Uuid.zero).run s₂ = (.ok stale, s₂) :=
    run_load_label rfl (by decide)
  refine ⟨s₂, ⟨empty, some ⟨⟨1⟩, labelStored other "other" 1⟩⟩,
    ⟨empty, some ⟨⟨1⟩, labelStored other "second" 2⟩⟩, labelStored other "other" 1, ?_, rfl, rfl,
    sound_labelStored _ _ _, rfl, rfl, hload rfl (by decide), hload rfl (by decide)⟩
  rw [Task.run_bind_of_ok hacquire, Task.run_bind_of_ok hsave, hstale]

end Store

end Chronicle
