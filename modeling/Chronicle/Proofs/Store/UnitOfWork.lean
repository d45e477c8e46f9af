/-
Chronicle/Proofs/Store/UnitOfWork.lean

What the operations of a store do to it, operation by operation.

`Store.Within ρ` says of two stores that the second is the first one later in
the same unit of work: what is committed stays, the owner stays, and what is
pending has changed within `ρ`.  All statements of the engine stay within every
relation that `Database.Admits` them.
-/
import Chronicle.Proofs.Task
import Chronicle.Store.Aggregates
import Chronicle.Store.EventLog

namespace Chronicle

variable {D : Domain} {R α : Type}

/-! ### Relations between databases -/

namespace Database

/-- A relation that a sequence of statements of the engine stays within. -/
structure Admits (ρ : Database R → Database R → Prop) : Prop where
  refl : ∀ db, ρ db db
  trans : ∀ ⦃a b c⦄, ρ a b → ρ b c → ρ a c
  insertAggregate : ∀ ⦃db db' : Database R⦄ ⦃row : AggregateRow⦄ ⦃n : Int⦄,
    db.insertAggregate row = .ok (n, db') → ρ db db'
  swapAggregate : ∀ ⦃db db' : Database R⦄ ⦃key expected sequence : Int⦄ ⦃state : String⦄
    ⦃swapped : Bool⦄, db.swapAggregate key expected sequence state = .ok (swapped, db') → ρ db db'
  insertEvent : ∀ ⦃db db' : Database R⦄ ⦃row : EventRow⦄ ⦃n : Int⦄,
    db.insertEvent row = .ok (n, db') → ρ db db'

/-- The relation of any two databases. -/
theorem admits_true : Admits (R := R) fun _ _ => True := by
  constructor <;> (intros; trivial)

/-- Two databases whose engine tables are the same; only the read model may differ. -/
structure SameTables (db db' : Database R) : Prop where
  aggregates : db'.aggregates = db.aggregates
  events : db'.events = db.events

theorem SameTables.refl (db : Database R) : db.SameTables db := ⟨rfl, rfl⟩

theorem SameTables.trans {a b c : Database R} (h : a.SameTables b) (h' : b.SameTables c) :
    a.SameTables c :=
  ⟨h'.aggregates.trans h.aggregates, h'.events.trans h.events⟩

end Database

namespace Store

/-! ### In a unit of work -/

theorem pending?_eq_some {s : Store R} {ctx : ExecutionContext} {db : Database R} :
    s.pending? ctx = some db ↔ s.unit = some ⟨ctx, db⟩ := by
  rcases s with ⟨committed, _ | ⟨owner, pending⟩⟩
  · simp [pending?]
  · by_cases h : owner = ctx
    · simp [pending?, h]
    · simp [pending?, h]

theorem isActive_iff {s : Store R} {ctx : ExecutionContext} :
    s.isActive ctx ↔ ∃ db, s.unit = some ⟨ctx, db⟩ := by
  simp only [isActive, Option.isSome_iff_exists, pending?_eq_some]

theorem run_current {s : Store R} {ctx : ExecutionContext} {db : Database R}
    (h : s.unit = some ⟨ctx, db⟩) : (current ctx).run s = (.ok db, s) := by
  have hdb := pending?_eq_some.2 h
  simp only [current, Task.run_get_bind, hdb]
  rfl

theorem run_current_none {s : Store R} {ctx : ExecutionContext} (h : s.pending? ctx = none) :
    (current ctx).run s = (.error .noUnitOfWork, s) := by
  simp only [current, Task.run_get_bind, h]
  rfl

theorem current_eq_ok {s s' : Store R} {ctx : ExecutionContext} {db : Database R} :
    (current ctx).run s = (.ok db, s') ↔ s.unit = some ⟨ctx, db⟩ ∧ s' = s := by
  rcases h : s.pending? ctx with _ | db'
  · rw [run_current_none h]
    have hne : s.unit ≠ some ⟨ctx, db⟩ := fun hu => by
      rw [pending?_eq_some.2 hu] at h
      cases h
    constructor
    · intro h
      cases h
    · intro h
      exact absurd h.1 hne
  · have hu := pending?_eq_some.1 h
    rw [run_current hu, hu]
    constructor
    · intro h'
      obtain ⟨hdb, hs⟩ := Prod.mk.inj h'
      rw [Except.ok.inj hdb]
      exact ⟨rfl, hs.symm⟩
    · rintro ⟨h', rfl⟩
      cases h'
      rfl

/-! ### Begin and end -/

theorem run_acquire {s : Store R} (ctx : ExecutionContext) (h : s.unit = none) :
    (acquire ctx).run s = (.ok ⟨⟩, ⟨s.committed, some ⟨ctx, s.committed⟩⟩) := by
  simp only [acquire, Task.run_get_bind, h]
  rfl

/-- A store that is in use is refused to everyone, and left as it is. -/
theorem run_acquire_of_unit {s : Store R} (ctx : ExecutionContext) {u : UnitOfWork R}
    (h : s.unit = some u) (verdict : Except StorageFault Unit := .ok ()) :
    ∃ e, (acquire ctx verdict).run s = (.error e, s) := by
  simp only [acquire, Task.run_get_bind, h]
  split
  · exact ⟨_, rfl⟩
  · exact ⟨_, rfl⟩

/-- What is not begun leaves the store as it is. -/
theorem run_acquire_refused {s : Store R} (ctx : ExecutionContext) (fault : StorageFault)
    (h : s.unit = none) : (acquire ctx (.error fault)).run s = (.error (.database fault), s) := by
  simp only [acquire, Task.run_get_bind, h]
  rfl

theorem run_commit {s : Store R} {ctx : ExecutionContext} {db : Database R}
    (h : s.unit = some ⟨ctx, db⟩) : (commit ctx).run s = (.ok ⟨⟩, ⟨db, none⟩) := by
  rw [commit, Task.run_bind_of_ok (run_current h)]
  rfl

theorem run_rollback {s : Store R} {ctx : ExecutionContext} {db : Database R}
    (h : s.unit = some ⟨ctx, db⟩) : (rollback ctx).run s = (.ok ⟨⟩, ⟨s.committed, none⟩) := by
  rw [rollback, Task.run_bind_of_ok (run_current h)]
  rfl

/-- What the storage refuses to commit is rolled back. -/
theorem run_commit_refused {s : Store R} {ctx : ExecutionContext} {db : Database R}
    (fault : StorageFault) (h : s.unit = some ⟨ctx, db⟩) :
    (commit ctx (.error fault)).run s = (.error (.database fault), ⟨s.committed, none⟩) := by
  rw [commit, Task.run_bind_of_ok (run_current h)]
  rfl

theorem run_rollback_refused {s : Store R} {ctx : ExecutionContext} {db : Database R}
    (fault : StorageFault) (h : s.unit = some ⟨ctx, db⟩) :
    (rollback ctx (.error fault)).run s = (.error (.database fault), ⟨s.committed, none⟩) := by
  rw [rollback, Task.run_bind_of_ok (run_current h)]
  rfl

theorem acquire_eq_ok {s s' : Store R} {ctx : ExecutionContext}
    (h : (acquire ctx).run s = (.ok (), s')) :
    s.unit = none ∧ s' = ⟨s.committed, some ⟨ctx, s.committed⟩⟩ := by
  rcases hu : s.unit with _ | u
  · rw [run_acquire ctx hu] at h
    exact ⟨rfl, (Prod.mk.inj h).2.symm⟩
  · obtain ⟨e, herror⟩ := run_acquire_of_unit ctx hu
    rw [herror] at h
    cases h

theorem commit_eq_ok {s s' : Store R} {ctx : ExecutionContext}
    (h : (commit ctx).run s = (.ok (), s')) :
    ∃ db, s.unit = some ⟨ctx, db⟩ ∧ s' = ⟨db, none⟩ := by
  obtain ⟨db, _, hcurrent, -⟩ := Task.bind_eq_ok.1 h
  obtain ⟨hu, -⟩ := current_eq_ok.1 hcurrent
  rw [run_commit hu] at h
  exact ⟨db, hu, (Prod.mk.inj h).2.symm⟩

theorem rollback_eq_ok {s s' : Store R} {ctx : ExecutionContext}
    (h : (rollback ctx).run s = (.ok (), s')) :
    (∃ db, s.unit = some ⟨ctx, db⟩) ∧ s' = ⟨s.committed, none⟩ := by
  obtain ⟨db, _, hcurrent, -⟩ := Task.bind_eq_ok.1 h
  obtain ⟨hu, -⟩ := current_eq_ok.1 hcurrent
  rw [run_rollback hu] at h
  exact ⟨⟨db, hu⟩, (Prod.mk.inj h).2.symm⟩

theorem store_of_commit_error {s s' : Store R} {ctx : ExecutionContext} {e : Error}
    (h : (commit ctx).run s = (.error e, s')) : s' = s := by
  rcases hpending : s.pending? ctx with _ | db
  · rw [commit, Task.run_bind_of_error (run_current_none hpending)] at h
    exact (Prod.mk.inj h).2.symm
  · rw [run_commit (pending?_eq_some.1 hpending)] at h
    cases h

theorem committed_of_rollback {s s' : Store R} {ctx : ExecutionContext} {answer : Except Error Unit}
    (h : (rollback ctx).run s = (answer, s')) : s'.committed = s.committed := by
  rcases hpending : s.pending? ctx with _ | db
  · rw [rollback, Task.run_bind_of_error (run_current_none hpending)] at h
    rw [← (Prod.mk.inj h).2]
  · rw [run_rollback (pending?_eq_some.1 hpending)] at h
    rw [← (Prod.mk.inj h).2]

/-! ### Statements -/

/-- A statement succeeds on what is pending, which it changes. -/
theorem statement_eq_ok {s s' : Store R} {ctx : ExecutionContext}
    {f : Database R → Except StorageFault (α × Database R)} {a : α} :
    (statement ctx f).run s = (.ok a, s') ↔
      ∃ db db', s.unit = some ⟨ctx, db⟩ ∧ f db = .ok (a, db') ∧
        s' = ⟨s.committed, some ⟨ctx, db'⟩⟩ := by
  rw [statement, Task.bind_eq_ok]
  simp only [current_eq_ok]
  constructor
  · rintro ⟨db, _, ⟨hu, rfl⟩, h⟩
    split at h
    · rename_i a' db' hf
      cases h
      exact ⟨db, db', hu, hf, rfl⟩
    · cases h
  · rintro ⟨db, db', hu, hf, rfl⟩
    refine ⟨db, s, ⟨hu, rfl⟩, ?_⟩
    simp only [hf]
    rfl

/-- A statement that fails changes nothing. -/
theorem store_of_statement_error {s s' : Store R} {ctx : ExecutionContext}
    {f : Database R → Except StorageFault (α × Database R)} {e : Error}
    (h : (statement ctx f).run s = (.error e, s')) : s' = s := by
  rcases hpending : s.pending? ctx with _ | db
  · rw [statement, Task.run_bind_of_error (run_current_none hpending)] at h
    exact (Prod.mk.inj h).2.symm
  · rw [statement, Task.run_bind_of_ok (run_current (pending?_eq_some.1 hpending))] at h
    split at h
    · cases h
    · exact (Prod.mk.inj h).2.symm

/-- A query succeeds on what is pending, which it leaves. -/
theorem query_eq_ok {s s' : Store R} {ctx : ExecutionContext}
    {f : Database R → Except StorageFault α} {a : α} :
    (query ctx f).run s = (.ok a, s') ↔
      ∃ db, s.unit = some ⟨ctx, db⟩ ∧ f db = .ok a ∧ s' = s := by
  rw [query, Task.bind_eq_ok]
  simp only [current_eq_ok]
  constructor
  · rintro ⟨db, _, ⟨hu, rfl⟩, h⟩
    split at h
    · rename_i a' hf
      cases h
      exact ⟨db, hu, hf, rfl⟩
    · cases h
  · rintro ⟨db, hu, hf, rfl⟩
    refine ⟨db, s', ⟨hu, rfl⟩, ?_⟩
    simp only [hf]
    rfl

/-! ### Staying in a unit of work -/

/-- Later in the same unit of work. -/
def Within (ρ : Database R → Database R → Prop) (s s' : Store R) : Prop :=
  ∀ ctx db, s.unit = some ⟨ctx, db⟩ →
    ∃ db', ρ db db' ∧ s' = ⟨s.committed, some ⟨ctx, db'⟩⟩

section

variable {ρ : Database R → Database R → Prop}

theorem Within.refl (hrefl : ∀ db, ρ db db) (s : Store R) : s.Within ρ s := by
  intro ctx db h
  refine ⟨db, hrefl db, ?_⟩
  rw [← h]

theorem Within.trans (htrans : ∀ ⦃a b c⦄, ρ a b → ρ b c → ρ a c) {s s' s'' : Store R}
    (h : s.Within ρ s') (h' : s'.Within ρ s'') : s.Within ρ s'' := by
  intro ctx db hu
  obtain ⟨db', hρ, rfl⟩ := h ctx db hu
  obtain ⟨db'', hρ', rfl⟩ := h' ctx db' rfl
  exact ⟨db'', htrans hρ hρ', rfl⟩

theorem Within.mono {ρ' : Database R → Database R → Prop} {s s' : Store R} (h : s.Within ρ s')
    (hρ : ∀ ⦃db db'⦄, ρ db db' → ρ' db db') : s.Within ρ' s' := by
  intro ctx db hu
  obtain ⟨db', hdb, rfl⟩ := h ctx db hu
  exact ⟨db', hρ hdb, rfl⟩

/-- A change of what is pending. -/
theorem within_pending {s : Store R} {ctx : ExecutionContext} {db db' : Database R}
    (hu : s.unit = some ⟨ctx, db⟩) (h : ρ db db') :
    s.Within ρ ⟨s.committed, some ⟨ctx, db'⟩⟩ := by
  intro ctx' db'' hu'
  rw [hu] at hu'
  cases hu'
  exact ⟨db', h, rfl⟩

/-- Without a unit of work nothing comes after the look at what is pending. -/
theorem current_bind_respects (hrefl : ∀ db, ρ db db) {ctx : ExecutionContext}
    {f : Database R → Task (Store R) α}
    (hf : ∀ (s : Store R) db, s.unit = some ⟨ctx, db⟩ → s.Within ρ ((f db).run s).2) :
    (current ctx >>= f).Respects (Within ρ) := by
  intro s
  rcases h : s.pending? ctx with _ | db
  · rw [Task.run_bind_of_error (run_current_none h)]
    exact .refl hrefl s
  · have hu := pending?_eq_some.1 h
    rw [Task.run_bind_of_ok (run_current hu)]
    exact hf s db hu

theorem query_respects (hrefl : ∀ db, ρ db db) (ctx : ExecutionContext)
    (f : Database R → Except StorageFault α) : (query ctx f).Respects (Within ρ) := by
  refine current_bind_respects hrefl fun s db _ => ?_
  split
  · exact .refl hrefl s
  · exact .refl hrefl s

theorem statement_respects (hrefl : ∀ db, ρ db db) (ctx : ExecutionContext)
    {f : Database R → Except StorageFault (α × Database R)}
    (hf : ∀ ⦃db a db'⦄, f db = .ok (a, db') → ρ db db') :
    (statement ctx f).Respects (Within ρ) := by
  refine current_bind_respects hrefl fun s db hu => ?_
  split
  · rename_i a db' hok
    exact within_pending hu (hf hok)
  · exact .refl hrefl s

theorem load_respects (hrefl : ∀ db, ρ db db) (htrans : ∀ ⦃a b c⦄, ρ a b → ρ b c → ρ a c)
    (ctx : ExecutionContext) (a : D.AggregateType) (id : Uuid) :
    (load ctx a id).Respects (Within (R := R) ρ) :=
  .bind (.trans htrans) (query_respects hrefl ctx _) fun _ =>
    Task.respects_ofExcept (.refl hrefl) _

variable (hρ : Database.Admits ρ)

include hρ

theorem append_respects (ctx : ExecutionContext) (globalId : Int) (e : AnyEvent D)
    (metadata : Metadata) : (append ctx globalId e metadata).Respects (Within (R := R) ρ) :=
  .bind (.trans hρ.trans) (Task.respects_ofExcept (.refl hρ.refl) _) fun _ =>
    statement_respects hρ.refl ctx fun _ _ _ h => hρ.insertEvent h

theorem save_respects (ctx : ExecutionContext) {a : D.AggregateType} (snapshot : Snapshot D a) :
    (save ctx snapshot).Respects (Within (R := R) ρ) := by
  refine .bind (.trans hρ.trans) (Task.respects_ofExcept (.refl hρ.refl) _) fun state => ?_
  split
  · refine .bind (.trans hρ.trans)
      (statement_respects hρ.refl ctx fun _ _ _ h => hρ.swapAggregate h) fun _ => ?_
    split
    · exact Task.respects_pure (.refl hρ.refl) _
    · exact Task.respects_throw (.refl hρ.refl) _
  · refine current_bind_respects hρ.refl fun s db hu => ?_
    split
    · rename_i hok
      exact within_pending hu (hρ.insertAggregate hok)
    · exact .refl hρ.refl s
    · exact .refl hρ.refl s

end

end Store

end Chronicle
