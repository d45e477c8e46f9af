/-
Chronicle/Proofs/Gateway/Outcome.lean

What becomes of a command.

`Gateway.begun` is the session in which the work of a command begins.  A command
either ends before that with an error, or its work ends in an error and what it
wrote is gone, or its work succeeds and what it wrote is committed: these are the
three cases of `Gateway.Ending`, and `Gateway.send_ending` shows that there are no
others.  Nobody occupies a critical section any longer than the command
(`Gateway.sections_send`).
-/
import Chronicle.Proofs.Gateway.Inside

namespace Chronicle

variable {D : Domain} {R W α : Type} {ρ : Database R → Database R → Prop}

open Session

namespace Session

/-- A unit of work of a context begins. -/
def opened (s : Session R W) (ctx : ExecutionContext) : Session R W :=
  { s with store := ⟨s.store.committed, some ⟨ctx, s.store.committed⟩⟩ }

end Session

namespace Gateway

/-! ### Units of work -/

theorem run_onStore_acquire {s : Session R W} (ctx : ExecutionContext)
    (hunit : s.store.unit = none) :
    (onStore (Store.acquire ctx) : Task (Session R W) Unit).run s = (.ok ⟨⟩, s.opened ctx) := by
  rw [run_onStore, Store.run_acquire ctx hunit]
  rfl

/-- How work in a unit of work of its own ends. -/
inductive UnitEnding (ρ : Database R → Database R → Prop) (ctx : ExecutionContext)
    (work : Task (Session R W) α) (s : Session R W) : Except Error α → Session R W → Prop
  /-- The store is in use. -/
  | refused (e : Error) : s.store.unit ≠ none → UnitEnding ρ ctx work s (.error e) s
  | rolledBack {e : Error} {s₁ : Session R W} : s.store.unit = none →
      work.run (s.opened ctx) = (.error e, s₁) →
      UnitEnding ρ ctx work s (.error e) { s₁ with store := s.store }
  | committed {a : α} {s₁ : Session R W} {db : Database R} : s.store.unit = none →
      work.run (s.opened ctx) = (.ok a, s₁) → s₁.store = ⟨s.store.committed, some ⟨ctx, db⟩⟩ →
      ρ s.store.committed db → UnitEnding ρ ctx work s (.ok a) { s₁ with store := ⟨db, none⟩ }

theorem unitOfWork_ending {work : Task (Session R W) α} (hwork : work.Respects (Inside ρ))
    (ctx : ExecutionContext) (s : Session R W) :
    UnitEnding ρ ctx work s ((unitOfWork ctx work).run s).1 ((unitOfWork ctx work).run s).2 := by
  rcases hunit : s.store.unit with _ | u
  · rw [unitOfWork, Task.run_bind_of_ok (run_onStore_acquire ctx hunit)]
    -- the work has left the unit of work open, with what was committed as it was
    rcases hrun : work.run (s.opened ctx) with ⟨e | a, s₁⟩
    · obtain ⟨db, -, hs₁⟩ := (hwork.run hrun).store ctx s.store.committed rfl
      have hrollback : (onStore (Store.rollback ctx) : Task (Session R W) Unit).run s₁ =
          (.ok ⟨⟩, { s₁ with store := s.store }) := by
        rw [run_onStore, Store.run_rollback (congrArg Store.unit hs₁), hs₁]
        rcases s with ⟨⟨committed, unit⟩, _⟩
        cases hunit
        rfl
      simp only [Task.run_mk, bind_apply, hrun, hrollback, pure_apply]
      exact .rolledBack hunit hrun
    · obtain ⟨db, hdb, hs₁⟩ := (hwork.run hrun).store ctx s.store.committed rfl
      have hcommit : (onStore (Store.commit ctx) : Task (Session R W) Unit).run s₁ =
          (.ok ⟨⟩, { s₁ with store := ⟨db, none⟩ }) := by
        rw [run_onStore, Store.run_commit (congrArg Store.unit hs₁)]
      simp only [Task.run_mk, bind_apply, hrun, hcommit, pure_apply]
      exact .committed hunit hrun hs₁ hdb
  · obtain ⟨e, he⟩ := Store.run_acquire_of_unit ctx hunit
    have hacquire : (onStore (Store.acquire ctx) : Task (Session R W) Unit).run s =
        (.error e, s) := by
      rw [run_onStore, he]
    rw [unitOfWork, Task.run_bind_of_error hacquire]
    refine .refused e ?_
    rw [hunit]
    exact Option.some_ne_none u

/-- Work that fails is answered with its error, however the unit of work is left. -/
theorem unitOfWork_of_error {work : Task (Session R W) α} {ctx : ExecutionContext}
    {s s₁ : Session R W} {e : Error} (hunit : s.store.unit = none)
    (h : work.run (s.opened ctx) = (.error e, s₁)) :
    ((unitOfWork ctx work).run s).1 = .error e := by
  rw [unitOfWork, Task.run_bind_of_ok (run_onStore_acquire ctx hunit)]
  simp only [Task.run_mk, bind_apply, h]
  rfl

/-- When work succeeds, what is pending then is committed. -/
theorem unitOfWork_of_ok {work : Task (Session R W) α} {ctx : ExecutionContext}
    {s s₁ : Session R W} {a : α} {db : Database R} (hunit : s.store.unit = none)
    (h : work.run (s.opened ctx) = (.ok a, s₁)) (hu : s₁.store.unit = some ⟨ctx, db⟩) :
    (unitOfWork ctx work).run s = (.ok a, { s₁ with store := ⟨db, none⟩ }) := by
  have hcommit : (onStore (Store.commit ctx) : Task (Session R W) Unit).run s₁ =
      (.ok ⟨⟩, { s₁ with store := ⟨db, none⟩ }) := by
    rw [run_onStore, Store.run_commit hu]
  rw [unitOfWork, Task.run_bind_of_ok (run_onStore_acquire ctx hunit)]
  simp only [Task.run_mk, bind_apply, h, hcommit]
  rfl

/-- Work in a unit of work of its own leaves the critical sections as they are. -/
theorem sections_unitOfWork {work : Task (Session R W) α} (hwork : work.Respects (Inside ρ))
    (ctx : ExecutionContext) (s : Session R W) :
    s.sections.SameOccupants ((unitOfWork ctx work).run s).2.sections := by
  have hend := unitOfWork_ending hwork ctx s
  generalize (unitOfWork ctx work).run s = result at hend ⊢
  rcases result with ⟨answer, s'⟩
  cases hend with
  | refused => exact .refl _
  | rolledBack _ hrun => exact (hwork.run hrun).sections
  | committed _ hrun => exact (hwork.run hrun).sections

section

variable {work : Task (Session R W) α} {ctx : ExecutionContext} {s s' : Session R W}

/-- Whatever the work does, it succeeds in a unit of work of its own only if that is
open in the end, and what is pending then is committed. -/
theorem unitOfWork_eq_ok {a : α} (h : (unitOfWork ctx work).run s = (.ok a, s')) :
    ∃ s₁ db, work.run (s.opened ctx) = (.ok a, s₁) ∧ s₁.store.unit = some ⟨ctx, db⟩ ∧
      s'.store = ⟨db, none⟩ := by
  obtain ⟨_, s₀, hacquire, h⟩ := Task.bind_eq_ok.1 h
  have hs₀ : s₀ = s.opened ctx := by
    rw [eq_of_onStore hacquire, (Store.acquire_eq_ok (run_of_onStore hacquire)).2]
    rfl
  rw [← hs₀]
  rcases hwork : work.run s₀ with ⟨e | a', s₁⟩
  · simp only [Task.run_mk, bind_apply, hwork] at h
    cases h
  · rcases hcommit : (onStore (Store.commit ctx) : Task (Session R W) Unit).run s₁ with
      ⟨e | _, s₂⟩
    · simp only [Task.run_mk, bind_apply, hwork, hcommit] at h
      cases h
    · simp only [Task.run_mk, bind_apply, hwork, hcommit] at h
      cases h
      obtain ⟨db, hu, hstore⟩ := Store.commit_eq_ok (run_of_onStore hcommit)
      exact ⟨s₁, db, rfl, hu, hstore⟩

/-- When a unit of work fails, nothing is committed but what the work itself has
committed. -/
theorem unitOfWork_eq_error {e : Error} (h : (unitOfWork ctx work).run s = (.error e, s')) :
    s' = s ∨ s'.store.committed = (work.run (s.opened ctx)).2.store.committed := by
  rcases hunit : s.store.unit with _ | u
  · rw [unitOfWork, Task.run_bind_of_ok (run_onStore_acquire ctx hunit)] at h
    right
    rcases hwork : work.run (s.opened ctx) with ⟨e | a, s₁⟩
    · rcases hrollback : (onStore (Store.rollback ctx) : Task (Session R W) Unit).run s₁ with
        ⟨answer, s₂⟩
      simp only [Task.run_mk, bind_apply, hwork, hrollback] at h
      cases h
      exact Store.committed_of_rollback (run_of_onStore hrollback)
    · rcases hcommit : (onStore (Store.commit ctx) : Task (Session R W) Unit).run s₁ with
        ⟨e | _, s₂⟩
      · simp only [Task.run_mk, bind_apply, hwork, hcommit] at h
        cases h
        rw [Store.store_of_commit_error (run_of_onStore hcommit)]
      · simp only [Task.run_mk, bind_apply, hwork, hcommit] at h
        cases h
  · left
    obtain ⟨e, he⟩ := Store.run_acquire_of_unit ctx hunit
    have hacquire : (onStore (Store.acquire ctx) : Task (Session R W) Unit).run s =
        (.error e, s) := by
      rw [run_onStore, he]
    rw [unitOfWork, Task.run_bind_of_error hacquire] at h
    exact (Prod.mk.inj h).2.symm

end

/-! ### Critical sections -/

/-- The session after the section of an id was entered. -/
def entered (s : Session R W) (id : Uuid) : Session R W :=
  { s with
    sections := s.sections.enter id
    metrics := s.metrics.setOccupied (s.sections.enter id).size }

/-- The session in which the work of a command for an id begins. -/
def begun (s : Session R W) (id : Uuid) (ctx : ExecutionContext) : Session R W :=
  (entered s id).opened ctx

theorem run_inSection (id : Uuid) (work : Task (Session R W) α) (s : Session R W) :
    (inSection id work).run s =
      ((work.run (entered s id)).1,
        { (work.run (entered s id)).2 with
          sections := (work.run (entered s id)).2.sections.exit s.sections.nextTicket }) := rfl

/-- A visit of a critical section leaves no trace. -/
theorem sections_inSection {s : Session R W} (hs : s.sections.WellFormed) (id : Uuid)
    {work : Task (Session R W) α}
    (hwork : ∀ s : Session R W, s.sections.SameOccupants (work.run s).2.sections) :
    s.sections.SameOccupants ((inSection id work).run s).2.sections := by
  obtain ⟨t, hjoined, hkey, -⟩ := hs.enter id
  rw [run_inSection]
  dsimp only
  rw [← hkey]
  exact (hjoined.congr (hwork (entered s id))).exit hs

/-! ### Commands -/

/-- How a command ends.  In the last case its work has led from `begun` to `s₁`. -/
inductive Ending (ρ : Database R → Database R → Prop) (r : Registry D (Session R W))
    (ctx : ExecutionContext) (metadata : Metadata) (c : D.CommandType) (command : D.Command c)
    (s : Session R W) : Except Error Receipt → Store R → Prop
  | active {db : Database R} : s.store.unit = some ⟨ctx, db⟩ →
      Ending ρ r ctx metadata c command s (.error .unitOfWorkActive) s.store
  | failed (e : Error) : s.store.isActive ctx = false →
      Ending ρ r ctx metadata c command s (.error e) s.store
  | committed {id : Uuid} {receipt : Receipt} {s₁ : Session R W} {db : Database R} :
      s.store.unit = none → D.target command = some id →
      (process r ctx metadata id c command).run (begun s id ctx) = (.ok receipt, s₁) →
      s₁.store = ⟨s.store.committed, some ⟨ctx, db⟩⟩ → ρ s.store.committed db →
      Ending ρ r ctx metadata c command s (.ok receipt) ⟨db, none⟩

section

variable {r : Registry D (Session R W)} (hρ : Database.Admits ρ) (hr : r.Confined ρ ρ)

include hρ hr

theorem run_ending (ctx : ExecutionContext) (metadata : Metadata) (c : D.CommandType)
    (command : D.Command c) (s : Session R W) :
    Ending ρ r ctx metadata c command s ((run r ctx metadata c command).run s).1
      ((run r ctx metadata c command).run s).2.store := by
  simp only [run, Task.run_get_bind]
  rcases hactive : s.store.isActive ctx with _ | _
  · rcases htarget : D.target command with _ | id
    · exact .failed _ hactive
    · -- the store is not touched by entering and leaving the section
      have hwork := process_inside hρ hr ctx metadata id c command
      have hend := unitOfWork_ending hwork ctx (entered s id)
      show Ending ρ r ctx metadata c command s
        ((inSection id (unitOfWork ctx (process r ctx metadata id c command))).run s).1
        ((inSection id (unitOfWork ctx (process r ctx metadata id c command))).run s).2.store
      rw [run_inSection]
      dsimp only
      generalize (unitOfWork ctx (process r ctx metadata id c command)).run (entered s id) =
        result at hend ⊢
      rcases result with ⟨answer, s'⟩
      cases hend with
      | refused e => exact .failed e hactive
      | rolledBack => exact .failed _ hactive
      | committed hunit hrun hs₁ hdb => exact .committed hunit htarget hrun hs₁ hdb
  · obtain ⟨db, hdb⟩ := Store.isActive_iff.1 hactive
    exact .active hdb

theorem sections_run {s : Session R W} (hs : s.sections.WellFormed) (ctx : ExecutionContext)
    (metadata : Metadata) (c : D.CommandType) (command : D.Command c) :
    s.sections.SameOccupants ((run r ctx metadata c command).run s).2.sections := by
  simp only [run, Task.run_get_bind]
  rcases s.store.isActive ctx with _ | _
  · rcases D.target command with _ | id
    · exact .refl s.sections
    · exact sections_inSection hs id
        (sections_unitOfWork (process_inside hρ hr ctx metadata id c command) ctx)
  · exact .refl s.sections

end

/-! ### Metrics -/

theorem run_measureEvents (answer : Except Error Receipt) (s : Session R W) :
    ∃ metrics, (measureEvents answer).run s = (⟨⟩, { s with metrics }) := by
  rcases answer with e | receipt
  · exact ⟨s.metrics, rfl⟩
  · exact ⟨_, run_forM_measure (fun (e : String × Int) m => m.recordAppended e.1) receipt.events s⟩

/-- Counting a command changes the metrics only. -/
theorem run_send (r : Registry D (Session R W)) (ctx : ExecutionContext) (metadata : Metadata)
    (c : D.CommandType) (command : D.Command c) (seconds : Float) (s : Session R W) :
    ∃ metrics, (send r ctx metadata c command seconds).run s =
      (((run r ctx metadata c command).run s).1,
        { ((run r ctx metadata c command).run s).2 with metrics }) := by
  rcases hrun : (run r ctx metadata c command).run s with ⟨answer, s'⟩
  obtain ⟨metrics, h⟩ := run_measureEvents answer s'
  let metrics' := metrics.recordCommand (D.commandName c) seconds (outcome answer)
  refine ⟨metrics'.setOccupied s'.sections.size, ?_⟩
  have h' : measureEvents answer s' = (⟨⟩, { s' with metrics }) := h
  simp only [send, Task.run_mk, bind_apply, hrun, h']
  rfl

/-- A command is its work in a unit of work, if it comes to that. -/
theorem send_cases (r : Registry D (Session R W)) (ctx : ExecutionContext) (metadata : Metadata)
    (c : D.CommandType) (command : D.Command c) (seconds : Float) (s : Session R W) :
    let result := (send r ctx metadata c command seconds).run s
    (∃ e, result.1 = .error e ∧ result.2.store = s.store) ∨
      ∃ id, D.target command = some id ∧
        let whole := (unitOfWork ctx (process r ctx metadata id c command)).run (entered s id)
        result.1 = whole.1 ∧ result.2.store = whole.2.store := by
  obtain ⟨metrics, h⟩ := run_send r ctx metadata c command seconds s
  dsimp only
  rw [h]
  simp only [run, Task.run_get_bind]
  rcases s.store.isActive ctx with _ | _
  · rcases D.target command with _ | id
    · exact .inl ⟨_, rfl, rfl⟩
    · refine .inr ⟨id, rfl, ?_⟩
      show ((inSection id _).run s).1 = _ ∧ ((inSection id _).run s).2.store = _
      rw [run_inSection]
      exact ⟨rfl, rfl⟩
  · exact .inl ⟨_, rfl, rfl⟩

section

variable {r : Registry D (Session R W)} (hρ : Database.Admits ρ) (hr : r.Confined ρ ρ)
  (ctx : ExecutionContext) (metadata : Metadata) (c : D.CommandType) (command : D.Command c)
  (seconds : Float)

include hρ hr

theorem send_ending (s : Session R W) :
    Ending ρ r ctx metadata c command s ((send r ctx metadata c command seconds).run s).1
      ((send r ctx metadata c command seconds).run s).2.store := by
  obtain ⟨metrics, h⟩ := run_send r ctx metadata c command seconds s
  rw [h]
  exact run_ending hρ hr ctx metadata c command s

theorem sections_send {s : Session R W} (hs : s.sections.WellFormed) :
    s.sections.SameOccupants ((send r ctx metadata c command seconds).run s).2.sections := by
  obtain ⟨metrics, h⟩ := run_send r ctx metadata c command seconds s
  rw [h]
  exact sections_run hρ hr hs ctx metadata c command

end

/-- A command that fails leaves the store as it was. -/
theorem store_of_error {δ : Database R → Database R → Prop} {r : Registry D (Session R W)}
    (hr : r.Confined ρ δ) {ctx : ExecutionContext} {metadata : Metadata} {c : D.CommandType}
    {command : D.Command c} {seconds : Float} {s s' : Session R W} {e : Error}
    (h : (send r ctx metadata c command seconds).run s = (.error e, s')) : s'.store = s.store := by
  have hany : r.Confined (fun _ _ => True) fun _ _ => True :=
    hr.mono (fun _ _ _ => trivial) fun _ _ _ => trivial
  have hend := send_ending Database.admits_true hany ctx metadata c command seconds s
  rw [h] at hend
  generalize hstore : s'.store = store' at hend ⊢
  cases hend with
  | active => rfl
  | failed => rfl

end Gateway

end Chronicle
