/-
Chronicle/Proofs/Registry/Acceptance.lean

Which calls succeed, and that the others leave no trace.

A call looks at three things: at the shared values (`Registration.Admissible`), at
the place that its handler is to have alone, and at the types of events that are
known under the names of its own (`Registration.Fits`).  It succeeds if all three
allow it, and then the table is the one with its additions
(`Registration.perform_eq_ok`).

Main result: a call that fails changes nothing, so a table and all answers to
later calls are those of the calls that succeeded (`refusals_leave_no_trace`).
-/
import Chronicle.Proofs.Registry.Built

namespace Chronicle

variable {D : Domain} {σ α : Type}

/-! ### Checks -/

namespace Task

variable {τ β : Type}

/-- A check in front of a task has to succeed. -/
theorem ofExcept_bind_eq_ok {x : Except Error α} {f : α → Task τ β} {s s' : τ} {b : β} :
    ((MonadExcept.ofExcept x : Task τ α) >>= f).run s = (.ok b, s') ↔
      ∃ a, x = .ok a ∧ (f a).run s = (.ok b, s') := by
  rw [run_ofExcept_bind]
  rcases x with e | a
  · constructor
    · intro h
      cases h
    · rintro ⟨a, ⟨⟩, -⟩
  · simp

theorem check_bind_eq_ok {x : Except Error Unit} {f : Unit → Task τ β} {s s' : τ} {b : β} :
    ((MonadExcept.ofExcept x : Task τ Unit) >>= f).run s = (.ok b, s') ↔
      x = .ok () ∧ (f ()).run s = (.ok b, s') :=
  ofExcept_bind_eq_ok.trans ⟨fun ⟨_, h⟩ => h, fun h => ⟨(), h⟩⟩

theorem set_eq_ok {s s' x : τ} : (set x : Task τ Unit).run s = (.ok (), s') ↔ s' = x := by
  show (Except.ok (), x) = (Except.ok (), s') ↔ _
  rw [Prod.mk.injEq]
  exact ⟨fun h => h.2.symm, fun h => ⟨rfl, h.symm⟩⟩

end Task

namespace Registry

/-- A place in the table that one call at most can have. -/
inductive Place (D : Domain) where
  | command (c : D.CommandType)
  | state (a : D.AggregateType) (e : D.EventType)
  | group (name : String)
  | query (key : String)

/-- The place has its handler, or a group its number of workers. -/
def Taken (r : Registry D σ) : Place D → Prop
  | .command c => ∃ h ∈ r.commands, h.1 = c
  | .state a e => ∃ h ∈ r.states, h.aggregate = a ∧ h.event = e
  | .group name => (r.groups.get? name).any (·.declared) = true
  | .query key => r.queries.contains key = true

/-- No other type of events is known under the name. -/
def Knows (r : Registry D σ) (e : D.EventType) : Prop :=
  ∀ e', r.decoders.get? (D.eventName e) = some e' → e' = e

theorem checkPrimary_eq_ok {r : Registry D σ} {role : String} {t : TypeId D} :
    r.checkPrimary role t = .ok () ↔ r.dependencies.contains t = false := by
  unfold checkPrimary
  split
  · rename_i h
    simp [h]
  · rename_i h
    simp [h]

theorem checkCommand_eq_ok {r : Registry D σ} {c : D.CommandType} :
    r.checkCommand c = .ok () ↔
      ¬r.Taken (.command c) ∧ r.dependencies.contains (.command c) = false := by
  have htaken : (r.commands.any fun h => h.1 = c) = true ↔ r.Taken (.command c) := by
    simp [Taken]
  unfold checkCommand
  split
  · rename_i h
    simp [htaken.1 h]
  · rename_i h
    rw [checkPrimary_eq_ok]
    exact ⟨fun hprimary => ⟨fun ht => h (htaken.2 ht), hprimary⟩, And.right⟩

theorem withDecoder_eq_ok {r r' : Registry D σ} {e : D.EventType} :
    r.withDecoder e = .ok r' ↔
      r.Knows e ∧ r' = { r with decoders := r.decoders.insert (D.eventName e) e } := by
  unfold withDecoder Knows
  split
  · rename_i e' he'
    split
    · -- to insert the decoder once more changes nothing
      rename_i heq
      subst heq
      rw [Dictionary.insert_self he']
      simp only [Except.ok.injEq, he', Option.some.injEq, forall_eq', true_and]
      exact eq_comm
    · rename_i hne
      simp [he', hne]
  · rename_i hnone
    simp [hnone, eq_comm]

theorem checkWorkers_eq_ok {name : String} {workers : Nat} :
    checkWorkers name workers = .ok () ↔ 0 < workers ∧ workers ≤ maxWorkers := by
  unfold checkWorkers
  split
  · rename_i h
    simp only [reduceCtorEq, false_iff]
    omega
  · rename_i h
    simp only [true_iff]
    omega

/-- To look a group up before it is changed makes no difference. -/
theorem updateGroup_updateGroup_id (r : Registry D σ) (name : String)
    (f : ProcessingGroup D σ → ProcessingGroup D σ) :
    (r.updateGroup name id).updateGroup name f = r.updateGroup name f := by
  unfold updateGroup Dictionary.update
  simp only [Dictionary.get?_insert, if_pos, Dictionary.insert_insert]
  rfl

/-- A group is declared after it was looked up if it was before. -/
theorem any_declared_updateGroup_id (r : Registry D σ) (name : String) :
    ((r.updateGroup name id).groups.get? name).any (·.declared) =
      (r.groups.get? name).any (·.declared) := by
  unfold updateGroup Dictionary.update
  simp only [Dictionary.get?_insert, if_pos]
  rcases r.groups.get? name with _ | g
  · rfl
  · rfl

/-! ### Success of single calls -/

section

variable {r r' : Registry D σ}

theorem addCommand_eq_ok {c : D.CommandType} {inputs : List (SideInput D)}
    {h : CommandHandler D σ c} : (addCommand c inputs h).run r = (.ok (), r') ↔
      (¬r.Taken (.command c) ∧ r.dependencies.contains (.command c) = false) ∧
        SideInput.verifyAll r.dependencies .command inputs = .ok () ∧
        r' = { r with commands := r.commands ++ [⟨c, h⟩] } := by
  rw [addCommand, Task.run_get_bind, Task.check_bind_eq_ok, checkCommand_eq_ok,
    Task.check_bind_eq_ok, Task.set_eq_ok]

theorem onState_eq_ok {h : StateHandler D} : (onState h).run r = (.ok (), r') ↔
    ¬r.Taken (.state h.aggregate h.event) ∧ r.Knows h.event ∧
      r' = { r with
        states := r.states ++ [h]
        decoders := r.decoders.insert (D.eventName h.event) h.event } := by
  have htaken : (r.states.any fun s => s.aggregate = h.aggregate ∧ s.event = h.event) = true ↔
      r.Taken (.state h.aggregate h.event) := by
    simp [Taken]
  rw [onState, Task.run_get_bind]
  split
  · rename_i hany
    simp only [htaken.1 hany, not_true_eq_false, false_and, iff_false]
    intro h
    cases h
  · rename_i hany
    rw [Task.ofExcept_bind_eq_ok]
    simp only [withDecoder_eq_ok, Task.set_eq_ok]
    constructor
    · rintro ⟨_, ⟨hknows, rfl⟩, rfl⟩
      exact ⟨fun h => hany (htaken.2 h), hknows, rfl⟩
    · rintro ⟨-, hknows, rfl⟩
      exact ⟨_, ⟨hknows, rfl⟩, rfl⟩

theorem onDomainEvent_eq_ok {e : D.EventType} {h : EventHandler D σ e} :
    (onDomainEvent e h).run r = (.ok (), r') ↔
      r.dependencies.contains (.event e) = false ∧
        SideInput.verifyAll r.dependencies .domainEvent h.inputs = .ok () ∧ r.Knows e ∧
        r' = { r with
          domainHandlers := r.domainHandlers ++ [⟨e, h⟩]
          decoders := r.decoders.insert (D.eventName e) e } := by
  rw [onDomainEvent, Task.run_get_bind, Task.check_bind_eq_ok, checkPrimary_eq_ok,
    Task.check_bind_eq_ok, Task.ofExcept_bind_eq_ok]
  simp only [withDecoder_eq_ok, Task.set_eq_ok, and_assoc, exists_and_left, exists_eq_left]

theorem declareGroup_eq_ok {name : String} {workers : Nat} :
    (declareGroup name workers).run r = (.ok (), r') ↔
      (0 < workers ∧ workers ≤ maxWorkers) ∧ ¬r.Taken (.group name) ∧
        r' = r.updateGroup name fun g => { g with workers, declared := true } := by
  rw [declareGroup, Task.check_bind_eq_ok, checkWorkers_eq_ok,
    Task.run_bind_of_ok (Task.run_modify _ r), Task.run_get_bind, any_declared_updateGroup_id,
    updateGroup_updateGroup_id]
  split
  · rename_i hdeclared
    have htaken : r.Taken (.group name) := hdeclared
    simp only [htaken, not_true_eq_false, false_and, and_false, iff_false, not_and]
    intro _ h
    cases h
  · rename_i hfree
    rw [Task.set_eq_ok]
    exact and_congr_right fun _ => ⟨fun h => ⟨hfree, h⟩, And.right⟩

theorem onStreamEvent_eq_ok {name : String} {e : D.EventType} {h : EventHandler D σ e} :
    (onStreamEvent name e h).run r = (.ok (), r') ↔
      r.dependencies.contains (.event e) = false ∧
        SideInput.verifyAll r.dependencies .streamEvent h.inputs = .ok () ∧ r.Knows e ∧
        r' = { r.updateGroup name fun g => { g with handlers := g.handlers ++ [⟨e, h⟩] } with
          decoders := r.decoders.insert (D.eventName e) e } := by
  rw [onStreamEvent, Task.run_get_bind, Task.check_bind_eq_ok, checkPrimary_eq_ok,
    Task.check_bind_eq_ok, Task.ofExcept_bind_eq_ok]
  simp only [withDecoder_eq_ok, Task.set_eq_ok, and_assoc, exists_and_left, exists_eq_left]
  rfl

theorem onQuery_eq_ok {key : String} {h : QueryHandler D σ} :
    (onQuery key h).run r = (.ok (), r') ↔
      ¬r.Taken (.query key) ∧ r.dependencies.contains (.value h.input) = false ∧
        SideInput.verifyAll r.dependencies .query h.inputs = .ok () ∧
        r' = { r with queries := r.queries.insert key h } := by
  rw [onQuery, Task.run_get_bind]
  split
  · rename_i hkey
    simp only [Taken, hkey, not_true_eq_false, false_and, iff_false]
    intro h
    cases h
  · rename_i hkey
    rw [Task.check_bind_eq_ok, checkPrimary_eq_ok, Task.check_bind_eq_ok, Task.set_eq_ok]
    exact ⟨fun h => ⟨hkey, h⟩, And.right⟩

end

end Registry

open Registry

namespace Registration

/-! ### Single calls -/

/-- The place that a call takes. -/
def place? : Registration D σ → Option (Place D)
  | creation c _ | mutation c _ => some (.command c)
  | state h => some (.state h.aggregate h.event)
  | group name _ => some (.group name)
  | query key _ => some (.query key)
  | domainEvent _ _ | streamEvent _ _ _ => none

/-- The type of the primary input of the handler. -/
def primary? : Registration D σ → Option (TypeId D)
  | creation c _ | mutation c _ => some (.command c)
  | domainEvent e _ | streamEvent _ e _ => some (.event e)
  | query _ h => some (.value h.input)
  | state _ | group _ _ => none

/-- What a call asks of the shared values, and of its own numbers. -/
@[mk_iff]
structure Admissible (d : Dependencies D) (call : Registration D σ) : Prop where
  primary : ∀ t, call.primary? = some t → d.contains t = false
  verified : SideInput.verifyAll d call.scope call.inputs = .ok ()
  workers : ∀ name workers, call = group name workers → 0 < workers ∧ workers ≤ maxWorkers

/-- What a call asks of the calls before it. -/
@[mk_iff]
structure Fits (r : Registry D σ) (call : Registration D σ) : Prop where
  free : ∀ place, call.place? = some place → ¬r.Taken place
  known : ∀ e ∈ call.events, r.Knows e

/-- The table with what a call adds. -/
def add (r : Registry D σ) : Registration D σ → Registry D σ
  | creation c h => { r with commands := r.commands ++ [⟨c, .creation h⟩] }
  | mutation c h => { r with commands := r.commands ++ [⟨c, .mutation h⟩] }
  | state h =>
    { r with
      states := r.states ++ [h]
      decoders := r.decoders.insert (D.eventName h.event) h.event }
  | domainEvent e h =>
    { r with
      domainHandlers := r.domainHandlers ++ [⟨e, h⟩]
      decoders := r.decoders.insert (D.eventName e) e }
  | group name workers => r.updateGroup name fun g => { g with workers, declared := true }
  | streamEvent name e h =>
    { r.updateGroup name fun g => { g with handlers := g.handlers ++ [⟨e, h⟩] } with
      decoders := r.decoders.insert (D.eventName e) e }
  | query key h => { r with queries := r.queries.insert key h }

/-- A call succeeds if it is allowed to, and adds what it is for. -/
theorem perform_eq_ok {call : Registration D σ} {r r' : Registry D σ} :
    call.perform.run r = (.ok (), r') ↔
      call.Admissible r.dependencies ∧ call.Fits r ∧ r' = call.add r := by
  simp only [admissible_iff, fits_iff]
  cases call with
  | creation c h =>
    rw [perform, onCreation, addCommand_eq_ok]
    simp only [place?, primary?, events, Option.some.injEq, forall_eq', reduceCtorEq,
      false_implies, implies_true, and_true, List.not_mem_nil]
    constructor
    · rintro ⟨⟨hfree, hprimary⟩, hverified, hr'⟩
      exact ⟨⟨hprimary, hverified⟩, hfree, hr'⟩
    · rintro ⟨⟨hprimary, hverified⟩, hfree, hr'⟩
      exact ⟨⟨hfree, hprimary⟩, hverified, hr'⟩
  | mutation c h =>
    rw [perform, onMutation, addCommand_eq_ok]
    simp only [place?, primary?, events, Option.some.injEq, forall_eq', reduceCtorEq,
      false_implies, implies_true, and_true, List.not_mem_nil]
    constructor
    · rintro ⟨⟨hfree, hprimary⟩, hverified, hr'⟩
      exact ⟨⟨hprimary, hverified⟩, hfree, hr'⟩
    · rintro ⟨⟨hprimary, hverified⟩, hfree, hr'⟩
      exact ⟨⟨hfree, hprimary⟩, hverified, hr'⟩
  | state h =>
    rw [perform, onState_eq_ok]
    simp [place?, primary?, events, inputs, add, SideInput.verifyAll, and_assoc]
  | domainEvent e h =>
    rw [perform, onDomainEvent_eq_ok]
    simp [place?, primary?, events, scope, inputs, add, and_assoc]
  | group name workers =>
    rw [perform, declareGroup_eq_ok]
    simp [place?, primary?, events, inputs, add, SideInput.verifyAll, and_assoc]
  | streamEvent name e h =>
    rw [perform, onStreamEvent_eq_ok]
    simp [place?, primary?, events, scope, inputs, add, and_assoc]
  | query key h =>
    rw [perform, onQuery_eq_ok]
    simp only [place?, primary?, events, Option.some.injEq, forall_eq', reduceCtorEq,
      false_implies, implies_true, and_true, List.not_mem_nil]
    constructor
    · rintro ⟨hfree, hprimary, hverified, hr'⟩
      exact ⟨⟨hprimary, hverified⟩, hfree, hr'⟩
    · rintro ⟨⟨hprimary, hverified⟩, hfree, hr'⟩
      exact ⟨hfree, hprimary, hverified, hr'⟩

/-- A call that is refused leaves the table as it was. -/
theorem eq_of_perform_error {call : Registration D σ} {r r' : Registry D σ} {e : Error}
    (h : call.perform.run r = (.error e, r')) : r' = r := by
  rcases perform_cases call r with ⟨e', h'⟩ | ⟨r'', h', -⟩
  · rw [h'] at h
    exact (Prod.mk.inj h).2.symm
  · rw [h'] at h
    cases h

/-- A call that is not allowed is refused. -/
theorem perform_eq_error {call : Registration D σ} {r : Registry D σ}
    (h : ¬(call.Admissible r.dependencies ∧ call.Fits r)) :
    ∃ e, call.perform.run r = (.error e, r) := by
  rcases perform_cases call r with hrefused | ⟨r', hrun, -⟩
  · exact hrefused
  · obtain ⟨hadmissible, hfits, -⟩ := perform_eq_ok.1 hrun
    exact absurd ⟨hadmissible, hfits⟩ h

/-! ### Sequences of calls -/

/-- The answers to calls that are made in order. -/
def answersFrom (r : Registry D σ) : List (Registration D σ) → List (Except Error Unit)
  | [] => []
  | call :: calls => (call.perform.run r).1 :: answersFrom (call.perform.run r).2 calls

theorem answersFrom_append (r : Registry D σ) (calls later : List (Registration D σ)) :
    answersFrom r (calls ++ later) = answersFrom r calls ++
      answersFrom (calls.foldl (fun r call => (call.perform.run r).2) r) later := by
  induction calls generalizing r with
  | nil => rfl
  | cons call calls ih =>
    rw [List.cons_append, answersFrom, ih]
    rfl

theorem acceptedFrom_append (r : Registry D σ) (calls later : List (Registration D σ)) :
    acceptedFrom r (calls ++ later) = acceptedFrom r calls ++
      acceptedFrom (calls.foldl (fun r call => (call.perform.run r).2) r) later := by
  induction calls generalizing r with
  | nil => rfl
  | cons call calls ih =>
    rw [List.cons_append, acceptedFrom, acceptedFrom, List.foldl_cons]
    rcases call.perform.run r with ⟨e | _, r'⟩
    · exact ih r'
    · exact congrArg (call :: ·) (ih r')

/-- The calls that succeed, made alone, all succeed and build the same table. -/
theorem acceptedFrom_alone (r : Registry D σ) (calls : List (Registration D σ)) :
    (acceptedFrom r calls).foldl (fun r call => (call.perform.run r).2) r =
        calls.foldl (fun r call => (call.perform.run r).2) r ∧
      ∀ answer ∈ answersFrom r (acceptedFrom r calls), answer = .ok () := by
  induction calls generalizing r with
  | nil => exact ⟨rfl, fun _ h => absurd h List.not_mem_nil⟩
  | cons call calls ih =>
    rw [acceptedFrom, List.foldl_cons]
    rcases hrun : call.perform.run r with ⟨e | _, r'⟩
    · -- a refused call is not among them, and has changed nothing
      have hr' := eq_of_perform_error hrun
      subst hr'
      exact ih r'
    · simp only [List.foldl_cons, answersFrom, hrun, List.forall_mem_cons, true_and]
      exact ih r'

theorem build_append (d : Dependencies D) (calls later : List (Registration D σ)) :
    build d (calls ++ later) =
      later.foldl (fun r call => (call.perform.run r).2) (build d calls) :=
  List.foldl_append

/-- The calls that succeed build the same table alone. -/
theorem build_accepted (d : Dependencies D) (calls : List (Registration D σ)) :
    build d (accepted d calls) = build d calls :=
  (acceptedFrom_alone (Registry.empty d) calls).1

/-- **Refusals leave no trace.**  Take a table built by any calls, some of which may
have failed, and one more call.  It succeeds if it is allowed to, by the shared
values and by what is there, and otherwise it is refused and leaves the table
exactly as it was, whatever the reason.  So the table is the one that the successful
calls build alone, all of which succeed then too, and all later answers and tables
are those after the successful calls. -/
theorem refusals_leave_no_trace (d : Dependencies D) (calls : List (Registration D σ)) :
    let r := build d calls
    (∀ (call : Registration D σ) e r', call.perform.run r = (.error e, r') → r' = r) ∧
    (∀ call : Registration D σ,
      (call.Admissible d ∧ call.Fits r → call.perform.run r = (.ok (), call.add r)) ∧
      (¬(call.Admissible d ∧ call.Fits r) → ∃ e, call.perform.run r = (.error e, r))) ∧
    build d (accepted d calls) = r ∧
    (∀ answer ∈ answersFrom (Registry.empty d) (accepted d calls), answer = .ok ()) ∧
    ∀ later, build d (calls ++ later) = build d (accepted d calls ++ later) ∧
      answersFrom (Registry.empty d) (calls ++ later) =
        answersFrom (Registry.empty d) calls ++
          answersFrom (build d (accepted d calls)) later := by
  intro r
  have hd : r.dependencies = d := (holds_build d calls).dependencies
  refine ⟨fun call e r' => eq_of_perform_error, fun call => ⟨?_, ?_⟩, build_accepted d calls,
    (acceptedFrom_alone (Registry.empty d) calls).2, fun later => ⟨?_, ?_⟩⟩
  · rintro ⟨hadmissible, hfits⟩
    exact perform_eq_ok.2 ⟨hd ▸ hadmissible, hfits, rfl⟩
  · intro hrefused
    exact perform_eq_error (hd.symm ▸ hrefused)
  · rw [build_append, build_append, build_accepted]
  · rw [answersFrom_append, build_accepted]
    rfl

end Registration

end Chronicle
