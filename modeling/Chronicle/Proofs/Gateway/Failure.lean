/-
Chronicle/Proofs/Gateway/Failure.lean

The errors that a command can end in.

`Task.FailsOnly Q t s` says that the run of `t` from `s` succeeds or ends in an
error of `Q`.  Most errors of a command arise in its own statements, whatever the
handlers are (`Error.IsCommon`), and each `Q` of interest admits these.  Not among
them are missing side inputs, conflicts, and aggregates that are not found.  For
missing inputs `Registry.Resolves` is the condition on the handlers, a conflict can
come from a save only, and an aggregate that a load does not find is a new one.

Main results: `Gateway.failsOnly_process` and `Gateway.failsOnly_send`.
-/
import Chronicle.Proofs.Gateway.Outcome
import Chronicle.Proofs.Registry.Built

namespace Chronicle

variable {D : Domain} {R W σ α β : Type} {Q : Error → Prop}

open Session

/-! ### Tasks -/

namespace Task

/-- The run of a task from a state succeeds, or fails with an error of `Q`. -/
def FailsOnly (Q : Error → Prop) (t : Task σ α) (s : σ) : Prop :=
  ∀ e, (t.run s).1 = .error e → Q e

theorem failsOnly_pure (a : α) (s : σ) : (pure a : Task σ α).FailsOnly Q s := nofun

theorem failsOnly_throw {e : Error} (h : Q e) (s : σ) : (throw e : Task σ α).FailsOnly Q s := by
  intro e' he'
  cases he'
  exact h

theorem failsOnly_ofExcept {a : Except Error α} (h : ∀ e, a = .error e → Q e) (s : σ) :
    (MonadExcept.ofExcept a : Task σ α).FailsOnly Q s := by
  intro e he
  rw [run_ofExcept] at he
  exact h e he

theorem failsOnly_asTask (h : ∀ text, Q (.handler text)) (w : Work σ α) (s : σ) :
    w.asTask.FailsOnly Q s := by
  intro e he
  rw [Work.run_asTask] at he
  rcases hw : (w.run s).1 with text | a
  · rw [hw] at he
    cases he
    exact h text
  · rw [hw] at he
    cases he

theorem FailsOnly.bind {t : Task σ α} {f : α → Task σ β} {s : σ} (ht : t.FailsOnly Q s)
    (hf : ∀ a s', t.run s = (.ok a, s') → (f a).FailsOnly Q s') : (t >>= f).FailsOnly Q s := by
  intro e he
  rcases h : t.run s with ⟨e' | a, s'⟩
  · rw [run_bind_of_error h] at he
    cases he
    apply ht
    rw [h]
  · rw [run_bind_of_ok h] at he
    exact hf a s' h e he

theorem FailsOnly.onStore {t : Task (Store R) α} {s : Session R W} (h : t.FailsOnly Q s.store) :
    (Session.onStore t : Task (Session R W) α).FailsOnly Q s := h

/-- One after the other, up to the first failure. -/
theorem failsOnly_forM {f : α → Task σ PUnit} {xs : List α}
    (h : ∀ x ∈ xs, ∀ s, (f x).FailsOnly Q s) (s : σ) : (xs.forM f).FailsOnly Q s := by
  induction xs generalizing s with
  | nil => exact failsOnly_pure _ s
  | cons x xs ih =>
    refine (h x List.mem_cons_self s).bind fun _ s' _ => ?_
    exact ih (fun x' hx' => h x' (List.mem_cons_of_mem x hx')) s'

end Task

open Chronicle.Task

/-! ### Errors of the engine itself -/

/-- An error that can arise in a command whatever the handlers are. -/
def Error.IsCommon : Error → Prop
  | .notFound _ | .definition _ | .unsatisfiedDependency _ | .conflict _ _ => False
  | .queryHandlerNotFound _ | .broker _ => False
  | _ => True

variable (hQ : ∀ e : Error, e.IsCommon → Q e)

include hQ

/-! ### Statements -/

theorem Codec.serialize_failsOnly {c : Codec α} {label : String} {a : α} {e : Error}
    (h : c.serialize label a = .error e) : Q e := by
  unfold serialize at h
  split at h
  · cases h
  · cases h
    exact hQ _ trivial

theorem Codec.deserialize_failsOnly {c : Codec α} {label text : String} {e : Error}
    (h : c.deserialize label text = .error e) : Q e := by
  unfold deserialize at h
  split at h
  · cases h
  · cases h
    exact hQ _ trivial

namespace Store

theorem failsOnly_current (ctx : ExecutionContext) (s : Store R) :
    (current ctx).FailsOnly Q s := by
  intro e he
  rcases h : s.pending? ctx with _ | db
  · rw [run_current_none h] at he
    cases he
    exact hQ _ trivial
  · rw [run_current (pending?_eq_some.1 h)] at he
    cases he

theorem failsOnly_statement (ctx : ExecutionContext)
    (f : Database R → Except StorageFault (α × Database R)) (s : Store R) :
    (statement ctx f).FailsOnly Q s := by
  refine (failsOnly_current hQ ctx s).bind fun db s' _ => ?_
  split
  · exact nofun
  · exact failsOnly_throw (hQ (.database _) trivial) s'

theorem failsOnly_query (ctx : ExecutionContext) (f : Database R → Except StorageFault α)
    (s : Store R) : (query ctx f).FailsOnly Q s := by
  refine (failsOnly_current hQ ctx s).bind fun db s' _ => ?_
  split
  · exact failsOnly_pure _ s'
  · exact failsOnly_throw (hQ (.database _) trivial) s'

theorem snapshotOf_failsOnly {a : D.AggregateType} {id : Uuid} {found : Option (Int × AggregateRow)}
    {e : Error} (h : snapshotOf a id found = .error e) : e = .notFound id ∨ Q e := by
  rcases found with _ | ⟨globalId, row⟩
  · cases h
    exact .inl rfl
  · right
    simp only [snapshotOf] at h
    split at h
    · cases h
      exact hQ _ trivial
    · split at h
      · -- the state could not be read
        rename_i e' he'
        cases h
        exact Codec.deserialize_failsOnly hQ he'
      · cases h
        exact hQ _ trivial
      · cases h

theorem failsOnly_load (ctx : ExecutionContext) (a : D.AggregateType) (id : Uuid) (s : Store R) :
    (load ctx a id).FailsOnly (fun e => e = .notFound id ∨ Q e) s := by
  refine (failsOnly_query (fun e he => .inr (hQ e he)) ctx _ s).bind fun found s' _ => ?_
  exact failsOnly_ofExcept (fun _ => snapshotOf_failsOnly hQ) s'

theorem failsOnly_acquire (ctx : ExecutionContext) (s : Store R) :
    (acquire ctx).FailsOnly Q s := by
  intro e he
  rw [acquire, Task.run_get_bind] at he
  split at he
  · cases he
  · split at he
    · cases he
      exact hQ _ trivial
    · cases he
      exact hQ _ trivial

theorem failsOnly_commit (ctx : ExecutionContext) (s : Store R) : (commit ctx).FailsOnly Q s :=
  (failsOnly_current hQ ctx s).bind fun _ _ _ => nofun

theorem failsOnly_append (ctx : ExecutionContext) (globalId : Int) (e : AnyEvent D)
    (metadata : Metadata) (s : Store R) : (append ctx globalId e metadata).FailsOnly Q s :=
  (failsOnly_ofExcept (fun _ => Codec.serialize_failsOnly hQ) s).bind fun _ s' _ =>
    failsOnly_statement hQ ctx _ s'

theorem failsOnly_save (hconflict : ∀ id expected, Q (.conflict id expected))
    (ctx : ExecutionContext) {a : D.AggregateType} (snapshot : Snapshot D a) (s : Store R) :
    (save ctx snapshot).FailsOnly Q s := by
  refine (failsOnly_ofExcept (fun _ => Codec.serialize_failsOnly hQ) s).bind fun text s₁ _ => ?_
  split
  · refine (failsOnly_statement hQ ctx _ s₁).bind fun swapped s₂ _ => ?_
    split
    · exact failsOnly_pure _ s₂
    · exact failsOnly_throw (hconflict _ _) s₂
  · refine (failsOnly_current hQ ctx s₁).bind fun db s₂ _ => ?_
    split
    · exact nofun
    · exact failsOnly_throw (hconflict _ _) s₂
    · exact failsOnly_throw (hQ (.database _) trivial) s₂

end Store

/-! ### Handlers -/

omit hQ in
/-- Inputs that are not resolved are missing. -/
theorem Inputs.eq_of_resolve_error {ctx : HandlerContext D} {is : List (SideInput D)} {e : Error}
    (h : Inputs.resolve ctx is = .error e) : ∃ i ∈ is, e = .unsatisfiedDependency i.path := by
  induction is with
  | nil => cases h
  | cons i is ih =>
    rcases hi : i.resolve ctx with e' | value
    · rw [Inputs.resolve, hi] at h
      cases h
      unfold SideInput.resolve at hi
      split at hi
      · cases hi
      · cases hi
        exact ⟨i, List.mem_cons_self, rfl⟩
    · rcases his : Inputs.resolve ctx is with e' | values
      · rw [Inputs.resolve, hi, his] at h
        cases h
        obtain ⟨j, hj, rfl⟩ := ih his
        exact ⟨j, List.mem_cons_of_mem i hj, rfl⟩
      · rw [Inputs.resolve, hi, his] at h
        cases h

theorem failsOnly_callWith {ctx : HandlerContext D} {inputs : List (SideInput D)}
    (h : ∀ e, Inputs.resolve ctx inputs = .error e → Q e) (work : Inputs inputs → Work σ α)
    (s : σ) : (callWith ctx inputs work).FailsOnly Q s :=
  (failsOnly_ofExcept h s).bind fun values s' _ =>
    failsOnly_asTask (fun text => hQ (.handler text) trivial) (work values) s'

theorem Registry.failsOnly_callAll {e : D.EventType} {event : D.Event e} {ctx : HandlerContext D}
    {hs : List (EventHandler D σ e)}
    (h : ∀ f ∈ hs, ∀ e, Inputs.resolve ctx f.inputs = .error e → Q e) (s : σ) :
    (callAll event ctx hs).FailsOnly Q s := by
  induction hs generalizing s with
  | nil => exact failsOnly_pure _ s
  | cons f hs ih =>
    refine (failsOnly_callWith hQ (h f List.mem_cons_self) _ s).bind fun _ s' _ => ?_
    exact ih (fun f' hf' => h f' (List.mem_cons_of_mem f hf')) s'

omit hQ in
/-- Where a side input of a handler is missing in a command, the error is one of `Q`. -/
structure Registry.Resolves (r : Registry D σ) (Q : Error → Prop) : Prop where
  creation : ∀ c h, ⟨c, .creation h⟩ ∈ r.commands →
    ∀ ctx e, Inputs.resolve (.forCommand r.dependencies ctx) h.inputs = .error e → Q e
  mutation : ∀ c h, ⟨c, .mutation h⟩ ∈ r.commands →
    ∀ ctx e, Inputs.resolve (.forCommand r.dependencies ctx) h.inputs = .error e → Q e
  domainEvent : ∀ t h, ⟨t, h⟩ ∈ r.domainHandlers →
    ∀ ctx info e, Inputs.resolve (.forDomainEvent r.dependencies ctx info) h.inputs = .error e → Q e

omit hQ in
/-- Nothing is asked of the handlers where missing inputs are among the errors of `Q`. -/
theorem Registry.resolves_of_unsatisfied (h : ∀ text, Q (.unsatisfiedDependency text))
    (r : Registry D σ) : r.Resolves Q := by
  have hmissing {ctx : HandlerContext D} {is : List (SideInput D)} {e : Error}
      (he : Inputs.resolve ctx is = .error e) : Q e := by
    obtain ⟨i, -, rfl⟩ := Inputs.eq_of_resolve_error he
    exact h i.path
  exact ⟨fun _ _ _ _ _ => hmissing, fun _ _ _ _ _ => hmissing, fun _ _ _ _ _ _ => hmissing⟩

section

variable {r : Registry D σ} (hr : r.Resolves Q)

include hr

theorem Registry.failsOnly_dispatchCommand (c : D.CommandType)
    (state : Option (D.State (D.aggregateOf c))) (command : D.Command c) (ctx : ExecutionContext)
    (s : σ) : (r.dispatchCommand c state command (.forCommand r.dependencies ctx)).FailsOnly Q s := by
  unfold dispatchCommand
  split
  · exact failsOnly_throw (hQ (.commandHandlerNotFound _) trivial) s
  · rename_i h hfind
    have hmem := Tagged.mem_of_find? hfind
    split
    · exact failsOnly_throw (hQ (.noTargetIdentifier _) trivial) s
    · split
      · exact failsOnly_throw (hQ (.aggregateAlreadyExists _) trivial) s
      · exact failsOnly_throw (hQ (.aggregateNotFound _) trivial) s
      · exact failsOnly_callWith hQ (hr.creation c _ hmem ctx) _ s
      · exact failsOnly_callWith hQ (hr.mutation c _ hmem ctx) _ s

theorem Registry.failsOnly_dispatchDomain (e : AnyEvent D) (ctx : ExecutionContext)
    (info : EventInfo) (s : σ) :
    (r.dispatchDomain e (.forDomainEvent r.dependencies ctx info)).FailsOnly Q s :=
  failsOnly_callAll hQ
    (fun h hh => hr.domainEvent e.type h (Tagged.mem_select.1 hh) ctx info) s

end

theorem Registry.dispatchState_failsOnly {r : Registry D σ} {a : D.AggregateType}
    {state : D.State a} {event : AnyEvent D} {e : Error}
    (h : r.dispatchState a state event = .error e) : Q e := by
  unfold dispatchState at h
  split at h
  · cases h
  · cases h
    exact hQ _ trivial

/-! ### Commands -/

namespace Gateway

theorem failsOnly_loadOrFresh (ctx : ExecutionContext) (a : D.AggregateType) (id : Uuid)
    (s : Session R W) : (loadOrFresh ctx a id).FailsOnly Q s := by
  intro e he
  have hload := (Store.failsOnly_load hQ ctx a id s.store).onStore (W := W) (s := s)
  rcases hrun : (onStore (Store.load ctx a id) : Task (Session R W) (Snapshot D a)).run s with
    ⟨answer, s'⟩
  simp only [loadOrFresh, Task.run_mk, bind_apply, hrun] at he
  split at he
  · cases he
  · rename_i hfound
    have he : answer = .error e := he
    rcases hload e (by rw [hrun]; exact he) with rfl | h
    · -- an aggregate that is not found is a new one
      exact absurd he (hfound id)
    · exact h

section

variable {r : Registry D (Session R W)} {ctx : ExecutionContext} {metadata : Metadata}

theorem failsOnly_applyEvents (hr : r.Resolves Q) (globalId : Int) {a : D.AggregateType}
    (state : D.State a) (events : List (AnyEvent D)) (s : Session R W) :
    (applyEvents r ctx metadata globalId state events).FailsOnly Q s := by
  induction events generalizing state s with
  | nil => exact failsOnly_pure _ s
  | cons e es ih =>
    have hevent : (applyEvent r ctx metadata globalId state e).FailsOnly Q s := by
      refine (failsOnly_ofExcept (fun _ => Registry.dispatchState_failsOnly hQ) s).bind
        fun state' s₁ _ => ?_
      refine (Registry.failsOnly_dispatchDomain hQ hr e ctx _ s₁).bind fun _ s₂ _ => ?_
      exact (Store.failsOnly_append hQ ctx globalId e metadata s₂.store).onStore.bind
        fun _ s₃ _ => failsOnly_pure _ s₃
    refine hevent.bind fun result s₁ _ => ?_
    exact (ih result.1 s₁).bind fun _ s₂ _ => failsOnly_pure _ s₂

/-- Where conflicts are admitted, the work of a command has no further condition. -/
theorem failsOnly_process (hconflict : ∀ id expected, Q (.conflict id expected))
    (hr : r.Resolves Q) (id : Uuid) (c : D.CommandType) (command : D.Command c) (s : Session R W) :
    (process r ctx metadata id c command).FailsOnly Q s := by
  refine (failsOnly_loadOrFresh hQ ctx _ id s).bind fun snapshot s₁ _ => ?_
  refine (Registry.failsOnly_dispatchCommand hQ hr c snapshot.state command ctx s₁).bind
    fun result s₂ _ => ?_
  dsimp only
  split
  · exact failsOnly_pure _ s₂
  · have hensure : (ensureRow ctx snapshot).FailsOnly Q s₂ := by
      unfold ensureRow
      split
      · exact failsOnly_pure _ s₂
      · exact (Store.failsOnly_save hQ hconflict ctx _ s₂.store).onStore
    refine hensure.bind fun globalId s₃ _ => ?_
    refine (failsOnly_applyEvents hQ hr globalId _ _ s₃).bind fun _ s₄ _ => ?_
    exact (Store.failsOnly_save hQ hconflict ctx _ s₄.store).onStore.bind
      fun _ s₅ _ => failsOnly_pure _ s₅

theorem failsOnly_unitOfWork {work : Task (Session R W) α} {s : Session R W}
    (hwork : s.store.unit = none → work.FailsOnly Q (s.opened ctx)) :
    (unitOfWork ctx work).FailsOnly Q s := by
  refine (Store.failsOnly_acquire hQ ctx s.store).onStore.bind fun _ s₁ hacquire => ?_
  obtain ⟨hunit, hstore⟩ := Store.acquire_eq_ok (run_of_onStore hacquire)
  have hs₁ : s₁ = s.opened ctx := by
    rw [run_onStore] at hacquire
    rw [← (Prod.mk.inj hacquire).2, Store.run_acquire ctx hunit]
    rfl
  have hwork := hwork hunit
  rw [← hs₁] at hwork
  intro e he
  rcases hrun : work.run s₁ with ⟨e' | a, s₂⟩
  · -- a rollback does not change the answer of the work
    simp only [Task.run_mk, bind_apply, hrun] at he
    cases he
    apply hwork
    rw [hrun]
  · have hcommit := (Store.failsOnly_commit hQ ctx s₂.store).onStore (W := W) (s := s₂)
    rcases hdone : (onStore (Store.commit ctx) : Task (Session R W) Unit).run s₂ with ⟨e' | _, s₃⟩
    · simp only [Task.run_mk, bind_apply, hrun, hdone] at he
      cases he
      apply hcommit
      rw [hdone]
    · simp only [Task.run_mk, bind_apply, hrun, hdone] at he
      cases he

/-- A command fails as its work does. -/
theorem failsOnly_send {c : D.CommandType} {command : D.Command c} {seconds : Float}
    {s : Session R W}
    (hwork : ∀ id, s.store.unit = none →
      (process r ctx metadata id c command).FailsOnly Q (begun s id ctx)) :
    (send r ctx metadata c command seconds).FailsOnly Q s := by
  obtain ⟨metrics, hsend⟩ := run_send r ctx metadata c command seconds s
  intro e he
  rw [hsend] at he
  dsimp only at he
  simp only [run, Task.run_get_bind] at he
  split at he
  · cases he
    exact hQ _ trivial
  · split at he
    · cases he
      exact hQ _ trivial
    · rename_i id _
      -- the section is entered and left around the unit of work
      rw [run_inSection] at he
      exact failsOnly_unitOfWork hQ (fun hunit => hwork id hunit) e he

end

end Gateway

end Chronicle
