/-
Chronicle/Proofs/Registry/Built.lean

What is in a table of handlers that was built by calls.

A call that fails leaves the table as it was, and one that succeeds adds its
handlers behind those that are there (`Registration.perform_cases`, which is all
that the rest needs to know of single calls).  So a built table holds the
handlers of the calls that succeeded, in their order, and nothing else
(`Registration.holds_build`).  In particular every handler comes from one of the
calls, and the name of every event with a handler is decoded as that very event,
because a second event of the name is refused.
-/
import Chronicle.Proofs.Gateway.Inside

namespace Chronicle

variable {D : Domain} {σ α β : Type}

/-! ### Groups -/

/-- The stream event handlers of a group, for events of all names. -/
def Registry.groupHandlers (r : Registry D σ) (group : String) :
    List (Σ e : D.EventType, EventHandler D σ e) :=
  match r.groups.get? group with
  | some g => g.handlers
  | none => []

theorem Registry.streamHandlers_eq (r : Registry D σ) (group typeName : String) :
    r.streamHandlers group typeName =
      (r.groupHandlers group).filter fun h => D.eventName h.1 == typeName := by
  unfold Registry.streamHandlers Registry.groupHandlers
  rcases r.groups.get? group with _ | g <;> rfl

theorem Registry.mem_streamHandlers {r : Registry D σ} {group typeName : String}
    {h : Σ e : D.EventType, EventHandler D σ e} :
    h ∈ r.streamHandlers group typeName ↔
      h ∈ r.groupHandlers group ∧ D.eventName h.1 = typeName := by
  rw [Registry.streamHandlers_eq, List.mem_filter, beq_iff_eq]

/-- A group handles the names for which it has handlers. -/
theorem Registry.handles_iff {r : Registry D σ} {group typeName : String} :
    r.handles group typeName = true ↔ ∃ h, h ∈ r.streamHandlers group typeName := by
  simp only [Registry.mem_streamHandlers]
  unfold Registry.handles Registry.groupHandlers
  rcases r.groups.get? group with _ | g
  · simp
  · simp [ProcessingGroup.handles]

/-- A change that adds handlers to a group adds none to the others. -/
theorem Registry.groupHandlers_updateGroup (r : Registry D σ) (name group : String)
    {f : ProcessingGroup D σ → ProcessingGroup D σ}
    {added : List (Σ e : D.EventType, EventHandler D σ e)}
    (hf : ∀ g, (f g).handlers = g.handlers ++ added) :
    (r.updateGroup name f).groupHandlers group =
      r.groupHandlers group ++ if name = group then added else [] := by
  unfold Registry.groupHandlers Registry.updateGroup Dictionary.update
  rw [Dictionary.get?_insert]
  by_cases hgroup : name = group
  · subst hgroup
    rw [if_pos rfl, if_pos rfl]
    show (f _).handlers = _
    rw [hf]
    -- a group that was not there starts without handlers
    rcases r.groups.get? name with _ | g <;> rfl
  · rw [if_neg (Ne.symm hgroup), if_neg hgroup, List.append_nil]

/-- To look up a group that is there changes nothing. -/
theorem Registry.updateGroup_id {r : Registry D σ} {name : String} {g : ProcessingGroup D σ}
    (hg : r.groups.get? name = some g) : r.updateGroup name id = r := by
  unfold Registry.updateGroup Dictionary.update
  rw [hg]
  show { r with groups := r.groups.insert name g } = r
  rw [Dictionary.insert_self hg]

/-- The handlers of events agree with the decoders: the name of an event with a
handler is decoded as that very event. -/
structure Registry.Coherent (r : Registry D σ) : Prop where
  states : ∀ h ∈ r.states, r.decoders.get? (D.eventName h.event) = some h.event
  domainHandlers : ∀ h ∈ r.domainHandlers, r.decoders.get? (D.eventName h.1) = some h.1
  groupHandlers : ∀ group, ∀ h ∈ r.groupHandlers group,
    r.decoders.get? (D.eventName h.1) = some h.1
  names : ∀ name t, r.decoders.get? name = some t → D.eventName t = name

namespace Registration

/-! ### Single calls -/

/-- The kind of handlers that a call adds. -/
def scope : Registration D σ → Scope
  | creation _ _ | mutation _ _ => .command
  | state _ | domainEvent _ _ => .domainEvent
  | group _ _ | streamEvent _ _ _ => .streamEvent
  | query _ _ => .query

/-- The side inputs that the handler of a call asks for. -/
def inputs : Registration D σ → List (SideInput D)
  | creation _ h => h.inputs
  | mutation _ h => h.inputs
  | domainEvent _ h => h.inputs
  | streamEvent _ _ h => h.inputs
  | query _ h => h.inputs
  | _ => []

/-- The handlers of commands that a call adds. -/
def commands : Registration D σ → List (Σ c : D.CommandType, CommandHandler D σ c)
  | creation c h => [⟨c, .creation h⟩]
  | mutation c h => [⟨c, .mutation h⟩]
  | _ => []

/-- The state handlers that a call adds. -/
def states : Registration D σ → List (StateHandler D)
  | state h => [h]
  | _ => []

/-- The domain event handlers that a call adds. -/
def domainHandlers : Registration D σ → List (Σ e : D.EventType, EventHandler D σ e)
  | domainEvent e h => [⟨e, h⟩]
  | _ => []

/-- The stream event handlers that a call adds to a group. -/
def groupHandlers (group : String) :
    Registration D σ → List (Σ e : D.EventType, EventHandler D σ e)
  | streamEvent name e h => if name = group then [⟨e, h⟩] else []
  | _ => []

/-- The types of events that can be decoded after a call. -/
def events : Registration D σ → List D.EventType
  | state h => [h.event]
  | domainEvent e _ => [e]
  | streamEvent _ e _ => [e]
  | _ => []

/-- All that a call does to the table when it succeeds. -/
structure Accepted (call : Registration D σ) (r r' : Registry D σ) : Prop where
  verified : SideInput.verifyAll r.dependencies call.scope call.inputs = .ok ()
  dependencies : r'.dependencies = r.dependencies
  commands : r'.commands = r.commands ++ call.commands
  states : r'.states = r.states ++ call.states
  domainHandlers : r'.domainHandlers = r.domainHandlers ++ call.domainHandlers
  groupHandlers : ∀ group,
    r'.groupHandlers group = r.groupHandlers group ++ call.groupHandlers group
  queries : ∀ key h, r'.queries.get? key = some h →
    r.queries.get? key = some h ∨ call = .query key h
  decoders : ∀ name e, r'.decoders.get? name = some e ↔
    r.decoders.get? name = some e ∨ D.eventName e = name ∧ e ∈ call.events

/-- A task leaves the table when it fails, and adds what a call adds when it
succeeds. -/
def Settles (call : Registration D σ) (r : Registry D σ) (t : Task (Registry D σ) Unit) : Prop :=
  (∃ e, t.run r = (.error e, r)) ∨ ∃ r', t.run r = (.ok (), r') ∧ call.Accepted r r'

section

variable {call : Registration D σ} {r : Registry D σ}

theorem settles_throw (e : Error) : call.Settles r (throw e) := .inl ⟨e, rfl⟩

theorem settles_set {r' : Registry D σ} (h : call.Accepted r r') : call.Settles r (set r') :=
  .inr ⟨r', rfl, h⟩

theorem settles_get {f : Registry D σ → Task (Registry D σ) Unit} (h : call.Settles r (f r)) :
    call.Settles r (get >>= f) := h

/-- A check that fails ends the call. -/
theorem settles_check {x : Except Error α} {f : α → Task (Registry D σ) Unit}
    (h : ∀ a, x = .ok a → call.Settles r (f a)) :
    call.Settles r (MonadExcept.ofExcept x >>= f) := by
  unfold Settles
  rw [Task.run_ofExcept_bind]
  rcases x with e | a
  · exact .inl ⟨e, rfl⟩
  · exact h a rfl

end

/-- A decoder is found or added, and all others stay. -/
theorem withDecoder_eq_ok {r r' : Registry D σ} {e : D.EventType} (h : r.withDecoder e = .ok r') :
    ∃ decoders, r' = { r with decoders } ∧ ∀ name e', decoders.get? name = some e' ↔
      r.decoders.get? name = some e' ∨ D.eventName e' = name ∧ e' ∈ [e] := by
  unfold Registry.withDecoder at h
  split at h
  · rename_i e' he'
    split at h
    · -- the name has the decoder already
      rename_i heq
      cases h
      refine ⟨r.decoders, rfl, fun name e₀ => ⟨.inl, ?_⟩⟩
      rintro (h | ⟨hname, hmem⟩)
      · exact h
      · rw [List.mem_singleton.1 hmem] at hname ⊢
        rw [← hname, he', heq]
    · cases h
  · rename_i hnone
    cases h
    refine ⟨_, rfl, fun name e₀ => ?_⟩
    rw [Dictionary.get?_insert, List.mem_singleton]
    constructor
    · intro h
      split at h
      · rename_i hname
        cases h
        exact .inr ⟨hname.symm, rfl⟩
      · exact .inl h
    · rintro (h | ⟨hname, rfl⟩)
      · rw [if_neg (fun hname => by rw [hname, hnone] at h; cases h)]
        exact h
      · rw [if_pos hname.symm]

/-- A call that adds the handler of a command adds nothing else. -/
theorem addCommand_settles (r : Registry D σ) {c : D.CommandType} {h : CommandHandler D σ c}
    {call : Registration D σ} (hscope : call.scope = .command)
    (hcommands : call.commands = [⟨c, h⟩]) (hstates : call.states = [])
    (hdomain : call.domainHandlers = []) (hgroup : ∀ group, call.groupHandlers group = [])
    (hevents : call.events = []) : call.Settles r (Registry.addCommand c call.inputs h) := by
  apply settles_get
  apply settles_check
  intro _ _
  apply settles_check
  intro _ hverified
  exact settles_set {
    verified := hscope ▸ hverified
    dependencies := rfl
    commands := hcommands ▸ rfl
    states := by rw [hstates, List.append_nil]
    domainHandlers := by rw [hdomain, List.append_nil]
    groupHandlers := fun group => by rw [hgroup, List.append_nil]; rfl
    queries := fun _ _ h => .inl h
    decoders := fun _ _ => by rw [hevents]; simp }

theorem onState_settles (r : Registry D σ) (h : StateHandler D) :
    (state h : Registration D σ).Settles r (Registry.onState h) := by
  apply settles_get
  split
  · exact settles_throw _
  · apply settles_check
    intro r' hr'
    obtain ⟨decoders, rfl, hdecoders⟩ := withDecoder_eq_ok hr'
    exact settles_set {
      verified := rfl
      dependencies := rfl
      commands := (List.append_nil _).symm
      states := rfl
      domainHandlers := (List.append_nil _).symm
      groupHandlers := fun _ => (List.append_nil _).symm
      queries := fun _ _ h => .inl h
      decoders := hdecoders }

theorem onDomainEvent_settles (r : Registry D σ) (e : D.EventType) (h : EventHandler D σ e) :
    (domainEvent e h).Settles r (Registry.onDomainEvent e h) := by
  apply settles_get
  apply settles_check
  intro _ _
  apply settles_check
  intro _ hverified
  apply settles_check
  intro r' hr'
  obtain ⟨decoders, rfl, hdecoders⟩ := withDecoder_eq_ok hr'
  exact settles_set {
    verified := hverified
    dependencies := rfl
    commands := (List.append_nil _).symm
    states := (List.append_nil _).symm
    domainHandlers := rfl
    groupHandlers := fun _ => (List.append_nil _).symm
    queries := fun _ _ h => .inl h
    decoders := hdecoders }

theorem onStreamEvent_settles (r : Registry D σ) (name : String) (e : D.EventType)
    (h : EventHandler D σ e) :
    (streamEvent name e h).Settles r (Registry.onStreamEvent name e h) := by
  apply settles_get
  apply settles_check
  intro _ _
  apply settles_check
  intro _ hverified
  apply settles_check
  intro r' hr'
  obtain ⟨decoders, rfl, hdecoders⟩ := withDecoder_eq_ok hr'
  exact settles_set {
    verified := hverified
    dependencies := rfl
    commands := (List.append_nil _).symm
    states := (List.append_nil _).symm
    domainHandlers := (List.append_nil _).symm
    groupHandlers := fun group => Registry.groupHandlers_updateGroup _ name group fun _ => rfl
    queries := fun _ _ h => .inl h
    decoders := hdecoders }

theorem declareGroup_settles (r : Registry D σ) (name : String) (workers : Nat) :
    (group name workers : Registration D σ).Settles r (Registry.declareGroup name workers) := by
  apply settles_check
  intro _ _
  -- the group is looked up, and is there from now on
  show Settles _ r ((modify fun r => r.updateGroup name id) >>= fun _ => _)
  unfold Settles
  rw [Task.run_bind_of_ok (Task.run_modify _ r), Task.run_get_bind]
  split
  · -- a group that was declared before was there before
    rename_i hdeclared
    have hget : (r.updateGroup name id).groups.get? name =
        some ((r.groups.get? name).getD (.undeclared name)) := by
      show (r.groups.insert name _).get? name = _
      rw [Dictionary.get?_insert, if_pos rfl]
      rfl
    rw [hget] at hdeclared
    rcases hg : r.groups.get? name with _ | g
    · rw [hg] at hdeclared
      cases hdeclared
    · rw [Registry.updateGroup_id hg]
      exact .inl ⟨_, rfl⟩
  · exact .inr ⟨_, rfl, {
      verified := rfl
      dependencies := rfl
      commands := (List.append_nil _).symm
      states := (List.append_nil _).symm
      domainHandlers := (List.append_nil _).symm
      groupHandlers := fun group => by
        have hnil (g : ProcessingGroup D σ) : g.handlers = g.handlers ++ [] :=
          (List.append_nil _).symm
        rw [Registry.groupHandlers_updateGroup _ name group
            (f := fun g => { g with workers, declared := true }) hnil,
          Registry.groupHandlers_updateGroup r name group (f := id) hnil, ite_self,
          List.append_nil]
        rfl
      queries := fun _ _ h => .inl h
      decoders := fun _ _ => by simp [events, Registry.updateGroup] }⟩

theorem onQuery_settles (r : Registry D σ) (key : String) (h : QueryHandler D σ) :
    (query key h).Settles r (Registry.onQuery key h) := by
  apply settles_get
  split
  · exact settles_throw _
  · apply settles_check
    intro _ _
    apply settles_check
    intro _ hverified
    apply settles_set
    refine {
      verified := hverified
      dependencies := rfl
      commands := (List.append_nil _).symm
      states := (List.append_nil _).symm
      domainHandlers := (List.append_nil _).symm
      groupHandlers := fun _ => (List.append_nil _).symm
      queries := fun key' h' hget => ?_
      decoders := fun _ _ => by simp [events] }
    change (r.queries.insert key h).get? key' = some h' at hget
    rw [Dictionary.get?_insert] at hget
    split at hget
    · rename_i hkey
      cases hget
      exact .inr (hkey ▸ rfl)
    · exact .inl hget

/-- A call that fails leaves the table as it was, and one that succeeds adds its
handlers. -/
theorem perform_cases (call : Registration D σ) (r : Registry D σ) :
    call.Settles r call.perform := by
  cases call with
  | creation c h => exact addCommand_settles r rfl rfl rfl rfl (fun _ => rfl) rfl
  | mutation c h => exact addCommand_settles r rfl rfl rfl rfl (fun _ => rfl) rfl
  | state h => exact onState_settles r h
  | domainEvent e h => exact onDomainEvent_settles r e h
  | group name workers => exact declareGroup_settles r name workers
  | streamEvent name e h => exact onStreamEvent_settles r name e h
  | query key h => exact onQuery_settles r key h

/-! ### Built tables -/

/-- The calls that succeed when all are made in order. -/
def acceptedFrom (r : Registry D σ) : List (Registration D σ) → List (Registration D σ)
  | [] => []
  | call :: calls =>
    match call.perform.run r with
    | (.ok (), r') => call :: acceptedFrom r' calls
    | (.error _, r') => acceptedFrom r' calls

/-- The calls that succeed when a table is built. -/
def accepted (d : Dependencies D) (calls : List (Registration D σ)) : List (Registration D σ) :=
  acceptedFrom (Registry.empty d) calls

/-- A table holds what calls added to it, and nothing else. -/
structure Holds (d : Dependencies D) (accepted : List (Registration D σ)) (r : Registry D σ) :
    Prop where
  verified : ∀ call ∈ accepted, SideInput.verifyAll d call.scope call.inputs = .ok ()
  dependencies : r.dependencies = d
  commands : r.commands = accepted.flatMap commands
  states : r.states = accepted.flatMap states
  domainHandlers : r.domainHandlers = accepted.flatMap domainHandlers
  groupHandlers : ∀ group, r.groupHandlers group = accepted.flatMap (groupHandlers group)
  queries : ∀ key h, r.queries.get? key = some h → .query key h ∈ accepted
  decoders : ∀ name e, r.decoders.get? name = some e ↔
    D.eventName e = name ∧ ∃ call ∈ accepted, e ∈ call.events

theorem holds_empty (d : Dependencies D) : Holds d [] (Registry.empty d : Registry D σ) where
  verified _ h := absurd h List.not_mem_nil
  dependencies := rfl
  commands := rfl
  states := rfl
  domainHandlers := rfl
  groupHandlers _ := rfl
  queries _ _ h := by cases h
  decoders name e := by
    constructor
    · intro h
      cases h
    · rintro ⟨-, call, hcall, -⟩
      cases hcall

theorem Holds.snoc {d : Dependencies D} {before : List (Registration D σ)}
    {call : Registration D σ} {r r' : Registry D σ} (h : Holds d before r)
    (haccepted : call.Accepted r r') : Holds d (before ++ [call]) r' where
  verified call' hcall' := by
    rcases List.mem_append.1 hcall' with hcall' | hcall'
    · exact h.verified call' hcall'
    · rw [List.mem_singleton.1 hcall', ← h.dependencies]
      exact haccepted.verified
  dependencies := haccepted.dependencies.trans h.dependencies
  commands := by rw [haccepted.commands, h.commands, List.flatMap_append, List.flatMap_singleton]
  states := by rw [haccepted.states, h.states, List.flatMap_append, List.flatMap_singleton]
  domainHandlers := by
    rw [haccepted.domainHandlers, h.domainHandlers, List.flatMap_append, List.flatMap_singleton]
  groupHandlers group := by
    rw [haccepted.groupHandlers, h.groupHandlers, List.flatMap_append, List.flatMap_singleton]
  queries key q hq := by
    rcases haccepted.queries key q hq with hq | rfl
    · exact List.mem_append_left _ (h.queries key q hq)
    · exact List.mem_append_right _ List.mem_cons_self
  decoders name e := by
    rw [haccepted.decoders, h.decoders]
    simp only [List.mem_append, List.mem_singleton, or_and_right, exists_or, exists_eq_left,
      and_or_left]

/-- A table built further holds also what the calls since then added. -/
theorem Holds.foldl {d : Dependencies D} {before : List (Registration D σ)} {r : Registry D σ}
    (h : Holds d before r) (calls : List (Registration D σ)) :
    Holds d (before ++ acceptedFrom r calls)
      (calls.foldl (fun r call => (call.perform.run r).2) r) := by
  induction calls generalizing before r with
  | nil =>
    rw [acceptedFrom, List.append_nil]
    exact h
  | cons call calls ih =>
    rw [List.foldl_cons]
    rcases perform_cases call r with ⟨e, hrun⟩ | ⟨r', hrun, haccepted⟩
    · rw [acceptedFrom, hrun]
      exact ih h
    · rw [acceptedFrom, hrun]
      show Holds d (before ++ call :: acceptedFrom r' calls) _
      rw [List.append_cons]
      exact ih (h.snoc haccepted)

/-- A built table holds what the calls that succeeded added to it. -/
theorem holds_build (d : Dependencies D) (calls : List (Registration D σ)) :
    Holds d (accepted d calls) (build d calls) :=
  (holds_empty d).foldl calls

theorem acceptedFrom_sublist (r : Registry D σ) (calls : List (Registration D σ)) :
    (acceptedFrom r calls).Sublist calls := by
  induction calls generalizing r with
  | nil => exact .slnil
  | cons call calls ih =>
    rw [acceptedFrom]
    split
    · exact (ih _).cons_cons call
    · exact (ih _).cons call

/-- A call that succeeded is one of the calls. -/
theorem mem_of_mem_accepted {d : Dependencies D} {calls : List (Registration D σ)}
    {call : Registration D σ} (h : call ∈ accepted d calls) : call ∈ calls :=
  (acceptedFrom_sublist _ calls).mem h

/-! ### Where handlers come from -/

theorem eq_of_mem_states {call : Registration D σ} {h : StateHandler D} (hmem : h ∈ call.states) :
    call = .state h := by
  cases call with
  | state h' => rw [List.mem_singleton.1 hmem]
  | _ => cases hmem

theorem eq_of_mem_domainHandlers {call : Registration D σ} {e : D.EventType}
    {h : EventHandler D σ e} (hmem : ⟨e, h⟩ ∈ call.domainHandlers) : call = .domainEvent e h := by
  cases call with
  | domainEvent e' h' =>
    cases List.mem_singleton.1 hmem
    rfl
  | _ => cases hmem

theorem eq_of_mem_groupHandlers {call : Registration D σ} {group : String} {e : D.EventType}
    {h : EventHandler D σ e} (hmem : ⟨e, h⟩ ∈ call.groupHandlers group) :
    call = .streamEvent group e h := by
  cases call with
  | streamEvent name e' h' =>
    rw [groupHandlers] at hmem
    split at hmem
    · rename_i hname
      cases List.mem_singleton.1 hmem
      rw [hname]
    · cases hmem
  | _ => cases hmem

section

variable {d : Dependencies D} {calls : List (Registration D σ)}

/-- Creation handlers were registered as such. -/
theorem creation_mem_accepted {c : D.CommandType} {h : CreationHandler D σ c}
    (hmem : ⟨c, .creation h⟩ ∈ (build d calls).commands) : .creation c h ∈ accepted d calls := by
  rw [(holds_build d calls).commands] at hmem
  obtain ⟨call, hcall, hmem⟩ := List.mem_flatMap.1 hmem
  cases call with
  | creation c' h' =>
    cases List.mem_singleton.1 hmem
    exact hcall
  | mutation c' h' => cases List.mem_singleton.1 hmem
  | _ => cases hmem

/-- All other handlers of commands were registered for an existing aggregate. -/
theorem mutation_mem_accepted {c : D.CommandType} {h : MutationHandler D σ c}
    (hmem : ⟨c, .mutation h⟩ ∈ (build d calls).commands) : .mutation c h ∈ accepted d calls := by
  rw [(holds_build d calls).commands] at hmem
  obtain ⟨call, hcall, hmem⟩ := List.mem_flatMap.1 hmem
  cases call with
  | mutation c' h' =>
    cases List.mem_singleton.1 hmem
    exact hcall
  | creation c' h' => cases List.mem_singleton.1 hmem
  | _ => cases hmem

theorem state_mem_accepted {h : StateHandler D} (hmem : h ∈ (build d calls).states) :
    .state h ∈ accepted d calls := by
  rw [(holds_build d calls).states] at hmem
  obtain ⟨call, hcall, hmem⟩ := List.mem_flatMap.1 hmem
  rw [eq_of_mem_states hmem] at hcall
  exact hcall

theorem domainEvent_mem_accepted {e : D.EventType} {h : EventHandler D σ e}
    (hmem : ⟨e, h⟩ ∈ (build d calls).domainHandlers) : .domainEvent e h ∈ accepted d calls := by
  rw [(holds_build d calls).domainHandlers] at hmem
  obtain ⟨call, hcall, hmem⟩ := List.mem_flatMap.1 hmem
  rw [eq_of_mem_domainHandlers hmem] at hcall
  exact hcall

theorem streamEvent_mem_accepted {group typeName : String} {e : D.EventType}
    {h : EventHandler D σ e} (hmem : ⟨e, h⟩ ∈ (build d calls).streamHandlers group typeName) :
    .streamEvent group e h ∈ accepted d calls := by
  have hmem := (Registry.mem_streamHandlers.1 hmem).1
  rw [(holds_build d calls).groupHandlers] at hmem
  obtain ⟨call, hcall, hmem⟩ := List.mem_flatMap.1 hmem
  rw [eq_of_mem_groupHandlers hmem] at hcall
  exact hcall

/-- The name of an event that a call makes known is decoded as that event. -/
theorem decoder_build {call : Registration D σ} (hcall : call ∈ accepted d calls)
    {e : D.EventType} (he : e ∈ call.events) :
    (build d calls).decoders.get? (D.eventName e) = some e :=
  ((holds_build d calls).decoders _ e).2 ⟨rfl, call, hcall, he⟩

end

/-- The name under which an event is found among the handlers is decoded as that
event. -/
theorem coherent_build (d : Dependencies D) (calls : List (Registration D σ)) :
    (build d calls).Coherent where
  states _ hh := decoder_build (state_mem_accepted hh) List.mem_cons_self
  domainHandlers _ hh := decoder_build (domainEvent_mem_accepted hh) List.mem_cons_self
  groupHandlers group h hh := by
    rw [(holds_build d calls).groupHandlers] at hh
    obtain ⟨call, hcall, hmem⟩ := List.mem_flatMap.1 hh
    rw [eq_of_mem_groupHandlers hmem] at hcall
    exact decoder_build hcall List.mem_cons_self
  names name t ht := (((holds_build d calls).decoders name t).1 ht).1

/-! ### What the handlers of calls respect -/

/-- The handler of a call goes from every state to a related one: by `Q` if it is for
commands, and by `Q'` if it is for domain events. -/
def Respects (Q Q' : σ → σ → Prop) : Registration D σ → Prop
  | creation _ h => ∀ values command, (h.run values command).Respects Q
  | mutation _ h => ∀ values state command, (h.run values state command).Respects Q
  | domainEvent _ h => ∀ values event, (h.run values event).Respects Q'
  | _ => True

/-- So do those of a table that is built by such calls. -/
theorem respects_build {Q Q' : σ → σ → Prop} {d : Dependencies D}
    {calls : List (Registration D σ)} (h : ∀ call ∈ calls, call.Respects Q Q') :
    (build d calls).Respects Q Q' where
  creation _ _ hf := h _ (mem_of_mem_accepted (creation_mem_accepted hf))
  mutation _ _ hf := h _ (mem_of_mem_accepted (mutation_mem_accepted hf))
  domainEvent _ _ hf := h _ (mem_of_mem_accepted (domainEvent_mem_accepted hf))

/-- The handler of a call answers, and does nothing else. -/
def Pure : Registration D σ → Prop
  | creation _ h => ∀ values command, ∃ answer, h.run values command = pure answer
  | mutation _ h => ∀ values state command, ∃ answer, h.run values state command = pure answer
  | domainEvent _ h => ∀ values event, h.run values event = pure ()
  | _ => True

/-- Such a handler leaves every state as it is. -/
theorem Pure.respects {call : Registration D σ} (h : call.Pure) {Q Q' : σ → σ → Prop}
    (hQ : ∀ s, Q s s) (hQ' : ∀ s, Q' s s) : call.Respects Q Q' := by
  cases call with
  | creation c f =>
    intro values command
    obtain ⟨answer, hanswer⟩ := h values command
    rw [hanswer]
    exact Work.respects_pure hQ _
  | mutation c f =>
    intro values state command
    obtain ⟨answer, hanswer⟩ := h values state command
    rw [hanswer]
    exact Work.respects_pure hQ _
  | domainEvent e f =>
    intro values event
    rw [h values event]
    exact Work.respects_pure hQ' _
  | _ => trivial

variable {R W : Type} {ρ δ : Database R → Database R → Prop}

/-- The handler of a call keeps to the unit of work of its command. -/
def Confined (ρ δ : Database R → Database R → Prop) : Registration D (Session R W) → Prop
  | creation _ h => ∀ values command, (h.run values command).Respects (Session.Inside ρ)
  | mutation _ h => ∀ values state command, (h.run values state command).Respects (Session.Inside ρ)
  | domainEvent _ h => ∀ values event, (h.run values event).Respects (Session.Inside δ)
  | _ => True

theorem Confined.respects {call : Registration D (Session R W)} (h : call.Confined ρ δ) :
    call.Respects (Session.Inside ρ) (Session.Inside δ) := by
  cases call <;> exact h

theorem Pure.confined {call : Registration D (Session R W)} (h : call.Pure) (hρ : ∀ db, ρ db db)
    (hδ : ∀ db, δ db db) : call.Confined ρ δ := by
  have hrespects := h.respects (Session.Inside.refl hρ) (Session.Inside.refl hδ)
  cases call <;> exact hrespects

/-- A table built by calls with confined handlers is confined. -/
theorem confined_build {d : Dependencies D} {calls : List (Registration D (Session R W))}
    (h : ∀ call ∈ calls, call.Confined ρ δ) : (build d calls).Confined ρ δ := by
  have hrespects := respects_build (d := d) fun call hcall => (h call hcall).respects
  exact ⟨hrespects.creation, hrespects.mutation, hrespects.domainEvent⟩

end Registration

end Chronicle
