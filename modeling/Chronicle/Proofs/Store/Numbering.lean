/-
Chronicle/Proofs/Store/Numbering.lean

How tables number their rows, and what the statements of the engine do to them.

`Table.Numbered` is the order of the numbers: they increase along the table and
none is greater than the greatest one given, so the next row gets a new number
behind all others (`Table.Numbered.insert`).  `Table.insertAll` appends several
rows with consecutive numbers.
-/
import Chronicle.Store.Database
import Mathlib.Data.List.Nodup

namespace Chronicle

variable {α R : Type}

/-! ### Numbered tables -/

namespace Table

/-- Numbers increase along the table, up to the greatest one given. -/
structure Numbered (t : Table α) : Prop where
  increasing : t.rows.Pairwise fun a b => a.1 < b.1
  issued : ∀ r ∈ t.rows, r.1 ≤ t.issued

theorem numbered_empty : (empty : Table α).Numbered :=
  ⟨.nil, fun _ h => absurd h List.not_mem_nil⟩

/-- Every row has a number below the next one. -/
theorem Numbered.lt_next {t : Table α} (ht : t.Numbered) {r : Int × α} (hr : r ∈ t.rows) :
    r.1 < t.next :=
  Int.lt_add_one_of_le (ht.issued r hr)

theorem Numbered.insert {t : Table α} (ht : t.Numbered) (row : α) : (t.insert row).Numbered where
  increasing := by
    rw [rows_insert]
    refine List.pairwise_append.2 ⟨ht.increasing, List.pairwise_singleton _ _, ?_⟩
    intro a ha b hb
    rw [List.mem_singleton.1 hb]
    exact ht.lt_next ha
  issued := by
    intro r hr
    rw [rows_insert] at hr
    rcases List.mem_append.1 hr with hr | hr
    · exact Int.le_of_lt (ht.lt_next hr)
    · rw [List.mem_singleton.1 hr]
      exact Int.le_refl _

theorem keys_update (t : Table α) (p : Int → α → Bool) (f : α → α) :
    (t.update p f).rows.map Prod.fst = t.rows.map Prod.fst := by
  simp only [update, List.map_map]
  apply List.map_congr_left
  intro r _
  dsimp only [Function.comp]
  split <;> rfl

theorem mem_update {t : Table α} {p : Int → α → Bool} {f : α → α} {r : Int × α} :
    r ∈ (t.update p f).rows ↔
      ∃ a, (r.1, a) ∈ t.rows ∧ r.2 = if p r.1 a then f a else a := by
  simp only [update, List.mem_map]
  constructor
  · rintro ⟨⟨k, a⟩, hr, rfl⟩
    dsimp only
    split
    · rename_i hp
      exact ⟨a, hr, (if_pos hp).symm⟩
    · rename_i hp
      exact ⟨a, hr, (if_neg hp).symm⟩
  · rintro ⟨a, hr, ha⟩
    refine ⟨(r.1, a), hr, ?_⟩
    split at ha
    · rename_i hp
      rw [if_pos hp, ← ha]
    · rename_i hp
      rw [if_neg hp, ← ha]

theorem exists_mem_update {t : Table α} {p : Int → α → Bool} {f : α → α} {k : Int} :
    (∃ a, (k, a) ∈ (t.update p f).rows) ↔ ∃ a, (k, a) ∈ t.rows := by
  have hkeys (u : Table α) : (∃ a, (k, a) ∈ u.rows) ↔ k ∈ u.rows.map Prod.fst := by
    simp
  rw [hkeys, hkeys, keys_update]

theorem Numbered.update {t : Table α} (ht : t.Numbered) (p : Int → α → Bool) (f : α → α) :
    (t.update p f).Numbered where
  increasing := by
    have h := ht.increasing
    rw [← List.pairwise_map (f := Prod.fst)] at h ⊢
    rw [keys_update]
    exact h
  issued := by
    intro r hr
    obtain ⟨a, ha, -⟩ := mem_update.1 hr
    exact ht.issued (r.1, a) ha

theorem Numbered.nodup {t : Table α} (ht : t.Numbered) : (t.rows.map Prod.fst).Nodup :=
  List.pairwise_map.2 (ht.increasing.imp fun h => Int.ne_of_lt h)

/-- A number has at most one row. -/
theorem Numbered.unique {t : Table α} (ht : t.Numbered) {k : Int} {a b : α}
    (ha : (k, a) ∈ t.rows) (hb : (k, b) ∈ t.rows) : a = b :=
  congrArg Prod.snd (List.inj_on_of_nodup_map ht.nodup ha hb rfl)

theorem mem_of_get? {t : Table α} {k : Int} {a : α} (h : t.get? k = some a) : (k, a) ∈ t.rows := by
  obtain ⟨r, hr, rfl⟩ := Option.map_eq_some_iff.1 h
  have hk : r.1 = k := by simpa using List.find?_some hr
  rw [← hk]
  exact List.mem_of_find?_eq_some hr

theorem isSome_get?_iff {t : Table α} {k : Int} :
    (t.get? k).isSome ↔ ∃ a, (k, a) ∈ t.rows := by
  simp [get?]

theorem Numbered.get?_eq_some {t : Table α} (ht : t.Numbered) {k : Int} {a : α} :
    t.get? k = some a ↔ (k, a) ∈ t.rows := by
  constructor
  · exact mem_of_get?
  · intro h
    obtain ⟨b, hb⟩ := Option.isSome_iff_exists.1 (isSome_get?_iff.2 ⟨a, h⟩)
    rw [hb, ht.unique h (mem_of_get? hb)]

/-- The next number has no row. -/
theorem Numbered.get?_next {t : Table α} (ht : t.Numbered) : t.get? t.next = none := by
  rcases hget : t.get? t.next with _ | row
  · rfl
  · exact absurd (ht.lt_next (mem_of_get? hget)) (Int.lt_irrefl _)

/-- The row of a number after some rows were changed. -/
theorem get?_update (t : Table α) (p : Int → α → Bool) (f : α → α) (k : Int) :
    (t.update p f).get? k = (t.get? k).map fun a => if p k a then f a else a := by
  have hkey : ((fun r : Int × α => r.1 == k) ∘ fun r => if p r.1 r.2 then (r.1, f r.2) else r) =
      fun r => r.1 == k := by
    funext r
    dsimp only [Function.comp]
    split <;> rfl
  simp only [get?, update, List.find?_map, hkey, Option.map_map]
  rcases hfind : t.rows.find? fun r => r.1 == k with _ | r
  · rw [hfind]
    rfl
  · have hk : r.1 = k := by simpa using List.find?_some hfind
    subst hk
    rw [hfind]
    simp only [Option.map_some, Function.comp]
    split <;> rfl

/-- The row of a number after one more row was added. -/
theorem Numbered.get?_insert {t : Table α} (ht : t.Numbered) (row : α) (k : Int) :
    (t.insert row).get? k = if k = t.next then some row else t.get? k := by
  by_cases hk : k = t.next
  · subst hk
    rw [if_pos rfl, (ht.insert row).get?_eq_some, rows_insert]
    exact List.mem_append_right _ List.mem_cons_self
  · rw [if_neg hk]
    simp [get?, List.find?_append, Ne.symm hk]

/-! ### Appending several rows -/

/-- Rows with the numbers that follow a given one. -/
def numbered (issued : Int) : List α → List (Int × α)
  | [] => []
  | row :: rows => (issued + 1, row) :: numbered (issued + 1) rows

/-- Adds rows behind the others, under the next numbers. -/
def insertAll (t : Table α) (rows : List α) : Table α :=
  ⟨t.rows ++ numbered t.issued rows, t.issued + rows.length⟩

@[simp] theorem insertAll_nil (t : Table α) : t.insertAll [] = t := by
  simp [insertAll, numbered]

theorem insertAll_cons (t : Table α) (row : α) (rows : List α) :
    t.insertAll (row :: rows) = (t.insert row).insertAll rows := by
  simp only [insertAll, numbered, insert, next, List.append_assoc, List.cons_append,
    List.nil_append, List.length_cons, mk.injEq, true_and]
  omega

@[simp] theorem map_snd_numbered (issued : Int) (rows : List α) :
    (numbered issued rows).map Prod.snd = rows := by
  induction rows generalizing issued with
  | nil => rfl
  | cons row rows ih => rw [numbered, List.map_cons, ih]

@[simp] theorem length_numbered (issued : Int) (rows : List α) :
    (numbered issued rows).length = rows.length := by
  rw [← List.length_map (f := Prod.snd), map_snd_numbered]

theorem lt_of_mem_numbered {issued : Int} {rows : List α} {r : Int × α}
    (h : r ∈ numbered issued rows) : issued < r.1 ∧ r.1 ≤ issued + rows.length := by
  induction rows generalizing issued with
  | nil => cases h
  | cons row rows ih =>
    rw [List.length_cons]
    rcases List.mem_cons.1 h with rfl | h
    · dsimp only
      omega
    · have := ih h
      omega

theorem pairwise_numbered (issued : Int) (rows : List α) :
    (numbered issued rows).Pairwise fun a b => a.1 < b.1 := by
  induction rows generalizing issued with
  | nil => exact .nil
  | cons row rows ih =>
    refine List.pairwise_cons.2 ⟨?_, ih (issued + 1)⟩
    intro r hr
    exact (lt_of_mem_numbered hr).1

end Table

/-! ### The statements of the engine -/

namespace Database

/-- The snapshots; none while their table is absent. -/
def snapshots (db : Database R) : Table AggregateRow := db.aggregates.getD Table.empty

/-- The log; empty while its table is absent. -/
def log (db : Database R) : Table EventRow := db.events.getD Table.empty

@[simp] theorem snapshots_of_some {db : Database R} {t : Table AggregateRow}
    (h : db.aggregates = some t) : db.snapshots = t := by
  simp [snapshots, h]

@[simp] theorem log_of_some {db : Database R} {t : Table EventRow} (h : db.events = some t) :
    db.log = t := by
  simp [log, h]

/-- A snapshot is in a table. -/
theorem exists_aggregates_of_mem {db : Database R} {r : Int × AggregateRow}
    (h : r ∈ db.snapshots.rows) : ∃ t, db.aggregates = some t ∧ r ∈ t.rows := by
  rcases ht : db.aggregates with _ | t
  · rw [snapshots, ht] at h
    cases h
  · rw [snapshots_of_some ht] at h
    exact ⟨t, rfl, h⟩

theorem findAggregate_eq_ok {db : Database R} {id : Uuid} {found : Option (Int × AggregateRow)} :
    db.findAggregate id = .ok found ↔
      ∃ t, db.aggregates = some t ∧ found = t.find? fun row => row.identifier == id := by
  rcases h : db.aggregates with _ | t
  · simp [findAggregate, aggregateTable, h, bind, Except.bind]
  · simp [findAggregate, aggregateTable, h, bind, Except.bind, pure, Except.pure, eq_comm]

/-- An inserted snapshot has a new identifier and the next number. -/
theorem insertAggregate_eq_ok {db db' : Database R} {row : AggregateRow} {n : Int} :
    db.insertAggregate row = .ok (n, db') ↔
      ∃ t, db.aggregates = some t ∧ (∀ r ∈ t.rows, r.2.identifier ≠ row.identifier) ∧
        n = t.next ∧ db' = { db with aggregates := some (t.insert row) } := by
  rcases h : db.aggregates with _ | t
  · simp [insertAggregate, aggregateTable, h, bind, Except.bind]
  · simp only [insertAggregate, aggregateTable, h, bind, Except.bind, pure, Except.pure]
    split
    · -- the identifier is taken, which a new row may not be
      rename_i hsome
      simp only [Table.find?, List.find?_isSome, beq_iff_eq] at hsome
      obtain ⟨r, hr, hid⟩ := hsome
      constructor
      · intro h
        cases h
      · rintro ⟨_, ht, hnew, -⟩
        cases ht
        exact absurd hid (hnew r hr)
    · rename_i hnone
      simp only [Table.find?, List.find?_isSome, beq_iff_eq, not_exists, not_and] at hnone
      constructor
      · intro h
        cases h
        exact ⟨t, rfl, hnone, rfl, rfl⟩
      · rintro ⟨_, ht, -, rfl, rfl⟩
        cases ht
        rfl

/-- The table of snapshots after a swap. -/
def swapped (t : Table AggregateRow) (globalId expected sequence : Int) (state : String) :
    Table AggregateRow :=
  t.update (fun key row => key == globalId && row.sequence == expected) fun row =>
    { row with state, sequence }

theorem swapAggregate_eq_ok {db db' : Database R} {globalId expected sequence : Int}
    {state : String} {done : Bool} :
    db.swapAggregate globalId expected sequence state = .ok (done, db') ↔
      ∃ t, db.aggregates = some t ∧
        (done ↔ ∃ row, (globalId, row) ∈ t.rows ∧ row.sequence = expected) ∧
        db' = { db with aggregates := some (swapped t globalId expected sequence state) } := by
  rcases h : db.aggregates with _ | t
  · simp [swapAggregate, aggregateTable, h, bind, Except.bind]
  · have hcount : (0 < t.count fun key row => key == globalId && row.sequence == expected) ↔
        ∃ row, (globalId, row) ∈ t.rows ∧ row.sequence = expected := by
      simp [Table.count, List.countP_pos_iff]
    simp only [swapAggregate, aggregateTable, h, bind, Except.bind, pure, Except.pure,
      Except.ok.injEq, Prod.mk.injEq, Option.some.injEq, exists_eq_left', swapped, ← hcount]
    constructor
    · rintro ⟨rfl, rfl⟩
      simp
    · rintro ⟨hdone, rfl⟩
      refine ⟨?_, rfl⟩
      rw [Bool.eq_iff_iff, hdone, decide_eq_true_iff]

/-- A swap that no row meets changes nothing. -/
theorem swapped_eq_self {t : Table AggregateRow} {globalId expected : Int}
    (h : ∀ row, (globalId, row) ∈ t.rows → row.sequence ≠ expected) (sequence : Int)
    (state : String) : swapped t globalId expected sequence state = t := by
  have hrows : (swapped t globalId expected sequence state).rows = t.rows := by
    calc _ = t.rows.map id := by
          apply List.map_congr_left
          intro r hr
          have hmet : ¬(r.1 == globalId && r.2.sequence == expected) := by
            simp only [Bool.and_eq_true, beq_iff_eq, not_and]
            rintro rfl
            exact h r.2 hr
          exact if_neg hmet
      _ = t.rows := List.map_id _
  show (⟨(swapped t globalId expected sequence state).rows, t.issued⟩ : Table AggregateRow) = t
  rw [hrows]

theorem mem_swapped {t : Table AggregateRow} {globalId : Int} {row : AggregateRow}
    (h : (globalId, row) ∈ t.rows) (sequence : Int) (state : String) :
    (globalId, { row with state, sequence }) ∈
      (swapped t globalId row.sequence sequence state).rows :=
  Table.mem_update.2 ⟨row, h, by simp⟩

/-- A swap leaves the rows of all other numbers. -/
theorem filter_swapped (t : Table AggregateRow) (globalId expected sequence : Int)
    (state : String) :
    ((swapped t globalId expected sequence state).rows.filter fun r => r.1 ≠ globalId) =
      t.rows.filter fun r => r.1 ≠ globalId := by
  -- a swap keeps the numbers, so the filter may as well be taken before it
  simp only [swapped, Table.update, List.filter_map]
  have hcongr : (t.rows.filter ((fun r => decide (r.1 ≠ globalId)) ∘ fun r =>
      if r.1 == globalId && r.2.sequence == expected then (r.1, { r.2 with state, sequence })
      else r)) = t.rows.filter fun r => r.1 ≠ globalId := by
    apply List.filter_congr
    intro r _
    dsimp only [Function.comp]
    split <;> rfl
  -- and rows of other numbers are not changed
  rw [hcongr]
  calc _ = (t.rows.filter fun r => r.1 ≠ globalId).map id := by
        apply List.map_congr_left
        intro r hr
        have hne : r.1 ≠ globalId := by simpa using (List.mem_filter.1 hr).2
        simp [hne]
    _ = _ := List.map_id _

/-- An inserted event belongs to a stored aggregate, and has the next number. -/
theorem insertEvent_eq_ok {db db' : Database R} {row : EventRow} {n : Int} :
    db.insertEvent row = .ok (n, db') ↔
      ∃ t, db.events = some t ∧ (∃ a, (row.aggregateGlobalId, a) ∈ db.snapshots.rows) ∧
        n = t.next ∧ db' = { db with events := some (t.insert row) } := by
  rcases h : db.events with _ | t
  · simp [insertEvent, eventTable, h, bind, Except.bind]
  · simp only [insertEvent, eventTable, h, bind, Except.bind, pure, Except.pure,
      ← Table.isSome_get?_iff, snapshots]
    split
    · rename_i hsome
      constructor
      · intro h
        cases h
        exact ⟨t, rfl, hsome, rfl, rfl⟩
      · rintro ⟨_, ht, -, rfl, rfl⟩
        cases ht
        rfl
    · rename_i hnone
      constructor
      · intro h
        cases h
      · rintro ⟨_, -, hsome, -⟩
        exact absurd hsome hnone

/-- An event of an aggregate that is not stored is refused. -/
theorem insertEvent_of_absent {db : Database R} {row : EventRow} {t : Table EventRow}
    (ht : db.events = some t) (h : ∀ a, (row.aggregateGlobalId, a) ∉ db.snapshots.rows) :
    db.insertEvent row = .error .foreignKey := by
  have hnone : ¬(db.snapshots.get? row.aggregateGlobalId).isSome := by
    rw [Table.isSome_get?_iff]
    exact not_exists.2 h
  simp only [insertEvent, eventTable, ht, bind, Except.bind]
  exact if_neg hnone

/-! ### Reachable databases -/

/-- The databases that statements lead to, in any order, where others write the
read model only. -/
inductive Reachable : Database R → Prop
  | blank (readModel : R) : Reachable (blank readModel)
  | migrate {db : Database R} : Reachable db → Reachable db.migrate
  | insertAggregate {db db' : Database R} {row : AggregateRow} {n : Int} :
      Reachable db → db.insertAggregate row = .ok (n, db') → Reachable db'
  | swapAggregate {db db' : Database R} {globalId expected sequence : Int} {state : String}
      {done : Bool} : Reachable db →
      db.swapAggregate globalId expected sequence state = .ok (done, db') → Reachable db'
  | insertEvent {db db' : Database R} {row : EventRow} {n : Int} :
      Reachable db → db.insertEvent row = .ok (n, db') → Reachable db'
  | readModel {db : Database R} (readModel : R) : Reachable db → Reachable { db with readModel }

/-- What holds of every reachable database. -/
structure Sound (db : Database R) : Prop where
  snapshots : db.snapshots.Numbered
  log : db.log.Numbered
  /-- No identifier has two snapshots. -/
  identifiers : (db.snapshots.rows.map fun r => r.2.identifier).Nodup
  /-- Every event belongs to a stored aggregate. -/
  references : ∀ e ∈ db.log.rows, ∃ a, (e.2.aggregateGlobalId, a) ∈ db.snapshots.rows

theorem sound_blank (readModel : R) : (blank readModel).Sound :=
  ⟨Table.numbered_empty, Table.numbered_empty, .nil, fun _ h => absurd h List.not_mem_nil⟩

/-- Soundness is about the tables of the engine only. -/
theorem Sound.congr {db db' : Database R} (h : db.Sound) (hsnapshots : db'.snapshots = db.snapshots)
    (hlog : db'.log = db.log) : db'.Sound := by
  refine ⟨?_, ?_, ?_, ?_⟩
  · rw [hsnapshots]
    exact h.snapshots
  · rw [hlog]
    exact h.log
  · rw [hsnapshots]
    exact h.identifiers
  · rw [hsnapshots, hlog]
    exact h.references

theorem Sound.insertAggregate {db db' : Database R} {row : AggregateRow} {n : Int} (h : db.Sound)
    (hdb : db.insertAggregate row = .ok (n, db')) : db'.Sound := by
  obtain ⟨t, ht, hnew, rfl, rfl⟩ := insertAggregate_eq_ok.1 hdb
  have hold := snapshots_of_some ht
  -- the identifier is new, and no event loses its aggregate
  refine ⟨hold ▸ h.snapshots.insert row, h.log, ?_, ?_⟩
  · show ((t.rows ++ [(t.next, row)]).map fun r => r.2.identifier).Nodup
    have hmem : row.identifier ∉ t.rows.map fun r => r.2.identifier := by
      intro hmem
      obtain ⟨r, hr, heq⟩ := List.mem_map.1 hmem
      exact hnew r hr heq
    rw [List.map_append]
    exact List.nodup_append_comm.1 (List.nodup_cons.2 ⟨hmem, hold ▸ h.identifiers⟩)
  · intro e he
    obtain ⟨a, ha⟩ := h.references e he
    rw [hold] at ha
    exact ⟨a, List.mem_append_left _ ha⟩

theorem map_identifier_swapped (t : Table AggregateRow) (globalId expected sequence : Int)
    (state : String) : ((swapped t globalId expected sequence state).rows.map fun r =>
      r.2.identifier) = t.rows.map fun r => r.2.identifier := by
  simp only [swapped, Table.update, List.map_map]
  apply List.map_congr_left
  intro r _
  dsimp only [Function.comp]
  split <;> rfl

theorem Sound.swapAggregate {db db' : Database R} {globalId expected sequence : Int}
    {state : String} {done : Bool} (h : db.Sound)
    (hdb : db.swapAggregate globalId expected sequence state = .ok (done, db')) : db'.Sound := by
  obtain ⟨t, ht, -, rfl⟩ := swapAggregate_eq_ok.1 hdb
  have hold := snapshots_of_some ht
  have hnumbered : (swapped t globalId expected sequence state).Numbered :=
    (hold ▸ h.snapshots : t.Numbered).update _ _
  refine ⟨hnumbered, h.log, ?_, ?_⟩
  · show ((swapped t globalId expected sequence state).rows.map fun r => r.2.identifier).Nodup
    rw [map_identifier_swapped, ← hold]
    exact h.identifiers
  · intro e he
    obtain ⟨a, ha⟩ := h.references e he
    rw [hold] at ha
    show ∃ b, (e.2.aggregateGlobalId, b) ∈ (swapped t globalId expected sequence state).rows
    rw [swapped, Table.exists_mem_update]
    exact ⟨a, ha⟩

theorem Sound.insertEvent {db db' : Database R} {row : EventRow} {n : Int} (h : db.Sound)
    (hdb : db.insertEvent row = .ok (n, db')) : db'.Sound := by
  obtain ⟨t, ht, href, rfl, rfl⟩ := insertEvent_eq_ok.1 hdb
  have hold := log_of_some ht
  refine ⟨h.snapshots, hold ▸ h.log.insert row, h.identifiers, ?_⟩
  intro e he
  rcases List.mem_append.1 he with he | he
  · exact h.references e (hold.symm ▸ he)
  · rw [List.mem_singleton.1 he]
    exact href

/-- Every reachable database is sound. -/
theorem Reachable.sound {db : Database R} (h : db.Reachable) : db.Sound := by
  induction h with
  | blank readModel => exact sound_blank readModel
  | @migrate db _ ih =>
    refine ih.congr ?_ ?_
    · rfl
    · rfl
  | insertAggregate _ hdb ih => exact ih.insertAggregate hdb
  | swapAggregate _ hdb ih => exact ih.swapAggregate hdb
  | insertEvent _ hdb ih => exact ih.insertEvent hdb
  | readModel _ _ ih => exact ih.congr rfl rfl

/-! ### Look-ups -/

/-- A database that has its tables finds the row of an id. -/
theorem Sound.findAggregate {db : Database R} (hdb : db.Sound) {g : Int}
    {row : AggregateRow} (hrow : (g, row) ∈ db.snapshots.rows) :
    db.findAggregate row.identifier = .ok (some (g, row)) := by
  obtain ⟨t, ht, hmem⟩ := exists_aggregates_of_mem hrow
  refine findAggregate_eq_ok.2 ⟨t, ht, ?_⟩
  have hidentifiers := hdb.identifiers
  rw [snapshots_of_some ht] at hidentifiers
  rcases hfind : t.find? fun row' => row'.identifier == row.identifier with _ | found
  · have hnone := List.find?_eq_none.1 hfind _ hmem
    simp at hnone
  · have hid : found.2.identifier = row.identifier := by simpa using List.find?_some hfind
    rw [List.inj_on_of_nodup_map hidentifiers (List.mem_of_find?_eq_some hfind) hmem hid]

/-- In a sound database the row of an id is found, and nothing else. -/
theorem Sound.findAggregate_eq_some {db : Database R} (hdb : db.Sound) {id : Uuid} {g : Int}
    {row : AggregateRow} : db.findAggregate id = .ok (some (g, row)) ↔
      (g, row) ∈ db.snapshots.rows ∧ row.identifier = id := by
  constructor
  · intro h
    obtain ⟨t, ht, hfind⟩ := findAggregate_eq_ok.1 h
    rw [snapshots_of_some ht]
    exact ⟨List.mem_of_find?_eq_some hfind.symm, by simpa using List.find?_some hfind.symm⟩
  · rintro ⟨hrow, rfl⟩
    exact hdb.findAggregate hrow

/-- Look-ups for an id are the same if the rows of the id are. -/
theorem Sound.findAggregate_congr {db db' : Database R} (hdb : db.Sound) (hdb' : db'.Sound)
    (htable : db.aggregates.isSome) (htable' : db'.aggregates.isSome) {id : Uuid}
    (h : ∀ g row, row.identifier = id →
      ((g, row) ∈ db'.snapshots.rows ↔ (g, row) ∈ db.snapshots.rows)) :
    db'.findAggregate id = db.findAggregate id := by
  obtain ⟨t, ht⟩ := Option.isSome_iff_exists.1 htable
  obtain ⟨t', ht'⟩ := Option.isSome_iff_exists.1 htable'
  obtain ⟨found, hfind⟩ : ∃ found, db.findAggregate id = .ok found :=
    ⟨_, findAggregate_eq_ok.2 ⟨t, ht, rfl⟩⟩
  obtain ⟨found', hfind'⟩ : ∃ found, db'.findAggregate id = .ok found :=
    ⟨_, findAggregate_eq_ok.2 ⟨t', ht', rfl⟩⟩
  rw [hfind, hfind']
  rcases found' with _ | ⟨g, row⟩
  · rcases found with _ | ⟨g, row⟩
    · rfl
    · obtain ⟨hrow, hid⟩ := hdb.findAggregate_eq_some.1 hfind
      rw [hdb'.findAggregate_eq_some.2 ⟨(h g row hid).2 hrow, hid⟩] at hfind'
      cases hfind'
  · obtain ⟨hrow, hid⟩ := hdb'.findAggregate_eq_some.1 hfind'
    rw [hdb.findAggregate_eq_some.2 ⟨(h g row hid).1 hrow, hid⟩] at hfind
    rw [Except.ok.inj hfind]

/-! ### Rows that are kept -/

/-- Every snapshot keeps its number, its identifier and its name. -/
def Keeps (db db' : Database R) : Prop :=
  ∀ g row, (g, row) ∈ db.snapshots.rows → ∃ row', (g, row') ∈ db'.snapshots.rows ∧
    row'.identifier = row.identifier ∧ row'.typeName = row.typeName

theorem Keeps.refl (db : Database R) : db.Keeps db :=
  fun _ row hrow => ⟨row, hrow, rfl, rfl⟩

theorem Keeps.trans {db db' db'' : Database R} (h : db.Keeps db') (h' : db'.Keeps db'') :
    db.Keeps db'' := by
  intro g row hrow
  obtain ⟨row', hrow', hid, hname⟩ := h g row hrow
  obtain ⟨row'', hrow'', hid', hname'⟩ := h' g row' hrow'
  exact ⟨row'', hrow'', hid'.trans hid, hname'.trans hname⟩

end Database

end Chronicle
