/-
Chronicle/Proofs/Task.lean

How tasks run.  A task ends with an answer in a state, also when it fails: what
it changed before the failure stays.

`Task.bind_eq_ok` takes a successful run apart at its first step.
`Task.Respects Q` says that every run, whatever its answer, goes from a state to
one that `Q` relates to it; for a reflexive and transitive `Q` this holds of a
sequence of tasks if it holds of each of them.  `Work.Respects Q` is the same for
the work of handlers.
-/
import Chronicle.Registry.Handler

namespace Chronicle

variable {σ τ α β : Type}

/-! ### Work that cannot fail -/

theorem bind_apply (t : StateM σ α) (f : α → StateM σ β) (s : σ) :
    (t >>= f) s = f (t s).1 (t s).2 := rfl

theorem pure_apply (a : α) (s : σ) : (pure a : StateM σ α) s = (a, s) := rfl

namespace Task

/-! ### Runs of single steps -/

@[simp] theorem run_modify (f : σ → σ) (s : σ) :
    (modify f : Task σ PUnit).run s = (.ok ⟨⟩, f s) := rfl

@[simp] theorem run_mk (t : StateM σ (Except Error α)) (s : σ) :
    (ExceptT.mk t : Task σ α).run s = t s := rfl

@[simp] theorem run_ofExcept (a : Except Error α) (s : σ) :
    (MonadExcept.ofExcept a : Task σ α).run s = (a, s) := by
  cases a <;> rfl

/-! ### Runs of sequences -/

theorem run_bind_of_ok {t : Task σ α} {f : α → Task σ β} {s s' : σ} {a : α}
    (h : t.run s = (.ok a, s')) : (t >>= f).run s = (f a).run s' := by
  show (match t.run s with
    | (answer, s') => ExceptT.bindCont f answer s') = _
  rw [h]
  rfl

theorem run_bind_of_error {t : Task σ α} {f : α → Task σ β} {s s' : σ} {e : Error}
    (h : t.run s = (.error e, s')) : (t >>= f).run s = (.error e, s') := by
  show (match t.run s with
    | (answer, s') => ExceptT.bindCont f answer s') = _
  rw [h]
  rfl

/-- A sequence succeeds if its first task does and then the rest. -/
theorem bind_eq_ok {t : Task σ α} {f : α → Task σ β} {s s'' : σ} {b : β} :
    (t >>= f).run s = (.ok b, s'') ↔
      ∃ a s', t.run s = (.ok a, s') ∧ (f a).run s' = (.ok b, s'') := by
  constructor
  · intro h
    rcases ht : t.run s with ⟨e | a, s'⟩
    · rw [run_bind_of_error ht] at h
      cases h
    · rw [run_bind_of_ok ht] at h
      exact ⟨a, s', rfl, h⟩
  · rintro ⟨a, s', ht, hf⟩
    rw [run_bind_of_ok ht]
    exact hf

@[simp] theorem run_get_bind (f : σ → Task σ β) (s : σ) :
    ((get : Task σ σ) >>= f).run s = (f s).run s := rfl

theorem run_ofExcept_bind (x : Except Error α) (f : α → Task σ β) (s : σ) :
    ((MonadExcept.ofExcept x : Task σ α) >>= f).run s =
      match x with
      | .ok a => (f a).run s
      | .error e => (.error e, s) := by
  rcases x with e | a <;> rfl

/-! ### What every run respects -/

/-- Every run of the task goes from a state to a related one. -/
def Respects (Q : σ → σ → Prop) (t : Task σ α) : Prop := ∀ s, Q s (t.run s).2

section

variable {Q : σ → σ → Prop}

theorem Respects.run {t : Task σ α} {s s' : σ} {answer : Except Error α} (ht : t.Respects Q)
    (h : t.run s = (answer, s')) : Q s s' := by
  have := ht s
  rw [h] at this
  exact this

theorem respects_pure (hrefl : ∀ s, Q s s) (a : α) : (pure a : Task σ α).Respects Q :=
  fun s => hrefl s

theorem respects_throw (hrefl : ∀ s, Q s s) (e : Error) : (throw e : Task σ α).Respects Q :=
  fun s => hrefl s

theorem respects_ofExcept (hrefl : ∀ s, Q s s) (a : Except Error α) :
    (MonadExcept.ofExcept a : Task σ α).Respects Q := by
  intro s
  rw [run_ofExcept]
  exact hrefl s

theorem Respects.bind (htrans : ∀ {a b c}, Q a b → Q b c → Q a c) {t : Task σ α}
    {f : α → Task σ β} (ht : t.Respects Q) (hf : ∀ a, (f a).Respects Q) :
    (t >>= f).Respects Q := by
  intro s
  rcases h : t.run s with ⟨e | a, s'⟩
  · rw [run_bind_of_error h]
    exact ht.run h
  · rw [run_bind_of_ok h]
    exact htrans (ht.run h) (hf a s')

end

end Task

/-! ### Work of handlers -/

namespace Work

/-- The work of a handler goes through the same states as the task made of it. -/
theorem run_asTask (w : Work σ α) (s : σ) :
    w.asTask.run s = ((w.run s).1.mapError .handler, (w.run s).2) := by
  rcases h : w.run s with ⟨text | a, s'⟩
  all_goals
    simp only [Work.asTask, ExceptT.run_mk, bind, StateT.bind]
    rw [h]
    rfl

theorem run_get_bind (f : σ → Work σ α) (s : σ) :
    ((get : Work σ σ) >>= f).run s = (f s).run s := rfl

/-- Work of handlers that goes from every state to a related one. -/
def Respects (Q : σ → σ → Prop) (w : Work σ α) : Prop := ∀ s, Q s (w.run s).2

section

variable {Q : σ → σ → Prop}

theorem Respects.asTask {w : Work σ α} (h : w.Respects Q) : w.asTask.Respects Q := by
  intro s
  rw [run_asTask]
  exact h s

theorem respects_pure (hrefl : ∀ s, Q s s) (a : α) : (pure a : Work σ α).Respects Q :=
  fun s => hrefl s

theorem respects_throw (hrefl : ∀ s, Q s s) (text : String) :
    (throw text : Work σ α).Respects Q :=
  fun s => hrefl s

theorem Respects.bind (htrans : ∀ {a b c}, Q a b → Q b c → Q a c) {w : Work σ α}
    {f : α → Work σ β} (hw : w.Respects Q) (hf : ∀ a, (f a).Respects Q) :
    (w >>= f).Respects Q := by
  intro s
  have h := hw s
  show Q s ((match w.run s with
    | (answer, s') => ExceptT.bindCont f answer s').2)
  rcases hrun : w.run s with ⟨text | a, s'⟩
  · rw [hrun] at h
    exact h
  · rw [hrun] at h
    exact htrans h (hf a s')

end

end Work

/-- A call does nothing before its inputs are there. -/
theorem callWith_respects {D : Domain} {Q : σ → σ → Prop} (hrefl : ∀ s, Q s s)
    (htrans : ∀ {a b c}, Q a b → Q b c → Q a c) (ctx : HandlerContext D)
    (inputs : List (SideInput D)) {work : Inputs inputs → Work σ α}
    (h : ∀ values, (work values).Respects Q) : (callWith ctx inputs work).Respects Q :=
  .bind @htrans (Task.respects_ofExcept hrefl _) fun values => (h values).asTask

namespace Session

variable {R W : Type}

/-! ### Tasks on the store -/

theorem run_onStore (t : Task (Store R) α) (s : Session R W) :
    (onStore t).run s = ((t.run s.store).1, { s with store := (t.run s.store).2 }) := rfl

theorem run_of_onStore {t : Task (Store R) α} {s s' : Session R W} {answer : Except Error α}
    (h : (onStore t).run s = (answer, s')) : t.run s.store = (answer, s'.store) := by
  rw [run_onStore] at h
  obtain ⟨rfl, rfl⟩ := Prod.mk.inj h
  rfl

/-- A task on the store changes nothing else. -/
theorem eq_of_onStore {t : Task (Store R) α} {s s' : Session R W} {answer : Except Error α}
    (h : (onStore t).run s = (answer, s')) : s' = { s with store := s'.store } := by
  rw [run_onStore] at h
  obtain ⟨-, rfl⟩ := Prod.mk.inj h
  rfl

/-! ### Metrics -/

/-- Counting things one after the other. -/
theorem run_forM_measure (f : α → Metrics → Metrics) (xs : List α) (s : Session R W) :
    (xs.forM fun x => measure (f x) : StateM (Session R W) Unit).run s =
      (⟨⟩, { s with metrics := xs.foldl (fun m x => f x m) s.metrics }) := by
  induction xs generalizing s with
  | nil => rfl
  | cons x xs ih => exact ih { s with metrics := f x s.metrics }

end Session

end Chronicle
