/-
Chronicle/Proofs/Registry/Lookup.lean

Where the handlers of successful calls are found, and with which state they are called.

The calls that succeed are compatible, also when others between them are refused
(`Registration.compatible_accepted`).  So a handler that has its place alone is the
one that is found there, and calls that all succeed after some others and before
more stand together among the successful ones (`Registration.accepted_among`).
-/
import Chronicle.Proofs.Registry.Order

namespace Chronicle

variable {D : Domain} {σ : Type}

namespace Registry

section

variable {r : Registry D σ} {c : D.CommandType} {state : Option (D.State (D.aggregateOf c))}
  {command : D.Command c} {ctx : HandlerContext D}
  {result : D.State (D.aggregateOf c) × EventBuffer D} {s s' : σ}

theorem dispatchCommand_creation {h : CreationHandler D σ c}
    (hfind : Tagged.find? c r.commands = some (.creation h))
    (hrun : (r.dispatchCommand c state command ctx).run s = (.ok result, s')) :
    state = none ∧ (h.call ctx command).run s = (.ok result, s') := by
  rcases dispatchCommand_cases hrun with ⟨h', hfind', hstate, hcall⟩ | ⟨h', d, hfind', -, -⟩
  · rw [hfind] at hfind'
    cases hfind'
    exact ⟨hstate, hcall⟩
  · rw [hfind] at hfind'
    cases hfind'

theorem dispatchCommand_mutation {h : MutationHandler D σ c}
    (hfind : Tagged.find? c r.commands = some (.mutation h))
    (hrun : (r.dispatchCommand c state command ctx).run s = (.ok result, s')) :
    ∃ d, state = some d ∧ (h.call ctx d command).run s = (.ok result, s') := by
  rcases dispatchCommand_cases hrun with ⟨h', hfind', -, -⟩ | ⟨h', d, hfind', hstate, hcall⟩
  · rw [hfind] at hfind'
    cases hfind'
  · rw [hfind] at hfind'
    cases hfind'
    exact ⟨d, hstate, hcall⟩

/-- A command for an aggregate that was found is what its handler does. -/
theorem dispatchCommand_eq_call {h : MutationHandler D σ c}
    (hfind : Tagged.find? c r.commands = some (.mutation h)) {id : Uuid}
    (htarget : D.target command = some id) (d : D.State (D.aggregateOf c)) :
    r.dispatchCommand c (some d) command ctx = h.call ctx d command := by
  simp only [dispatchCommand, hfind, htarget]

/-- A query with the types of its handler is answered by the handler. -/
theorem dispatchQuery_eq {key : String} {h : QueryHandler D σ} (hget : r.queries.get? key = some h)
    (value : D.Value h.input) (ctx : HandlerContext D) :
    r.dispatchQuery key h.input h.output value ctx =
      callWith ctx h.inputs fun values => h.run values value := by
  simp only [dispatchQuery, hget, dif_pos]

end

end Registry

namespace Registration

open Registry

section

variable {d : Dependencies D} {calls : List (Registration D σ)}

/-- The calls that succeed get along. -/
theorem compatible_accepted (d : Dependencies D) (calls : List (Registration D σ)) :
    Compatible d (accepted d calls) :=
  succeed_iff.1 (acceptedFrom_alone (Registry.empty d) calls).2

/-- A group is kept under its own name, with the number of workers that it was declared with,
or with one worker if it was not declared. -/
theorem group_build {name : String} {g : ProcessingGroup D σ}
    (h : (build d calls).groups.get? name = some g) :
    g.name = name ∧ (.group name g.workers ∈ accepted d calls ∨
      (∀ n, .group name n ∉ accepted d calls) ∧ g.workers = 1) := by
  rw [← build_accepted, (build_compatible (compatible_accepted d calls)).2, groups_filled] at h
  split at h
  · cases h
    refine ⟨rfl, ?_⟩
    rcases hlast : ((accepted d calls).filterMap (workersOf? name)).getLast? with _ | n
    · have hnil := List.getLast?_eq_none_iff.1 hlast
      refine .inr ⟨fun n hcall => ?_, by rw [groupOf, hlast]; rfl⟩
      have hmem : n ∈ (accepted d calls).filterMap (workersOf? name) :=
        List.mem_filterMap.2 ⟨_, hcall, if_pos rfl⟩
      rw [hnil] at hmem
      cases hmem
    · obtain ⟨call, hcall, hn⟩ := List.mem_filterMap.1 (List.mem_of_getLast? hlast)
      rw [eq_of_workersOf? hn] at hcall
      have hworkers : (groupOf name (accepted d calls)).workers = n := by rw [groupOf, hlast]; rfl
      exact .inl (hworkers ▸ hcall)
  · cases h

/-- What a handler does is not looked at. -/
theorem Compatible.replace_creation {c : D.CommandType} {h h' : CreationHandler D σ c}
    (hcalls : Compatible d (creation c h :: calls)) (hinputs : h'.inputs = h.inputs) :
    Compatible d (creation c h' :: calls) := by
  obtain ⟨hadmissible, hothers⟩ := List.forall_mem_cons.1 hcalls.admissible
  obtain ⟨hapart, hpairwise⟩ := List.pairwise_cons.1 hcalls.apart
  have hverified : SideInput.verifyAll d .command h'.inputs = .ok () :=
    hinputs ▸ hadmissible.verified
  exact ⟨List.forall_mem_cons.2 ⟨⟨hadmissible.primary, hverified, nofun⟩, hothers⟩,
    List.pairwise_cons.2
      ⟨fun call hcall => ⟨(hapart call hcall).places, (hapart call hcall).names⟩, hpairwise⟩⟩

/-- A command is passed to the handler that was registered for it. -/
theorem find_command {call : Registration D σ} (hcall : call ∈ accepted d calls)
    {c : D.CommandType} {h : CommandHandler D σ c} (hh : ⟨c, h⟩ ∈ call.commands) :
    Tagged.find? c (build d calls).commands = some h := by
  have hmem : ⟨c, h⟩ ∈ (accepted d calls).flatMap commands := List.mem_flatMap.2 ⟨call, hcall, hh⟩
  rw [(holds_build d calls).commands]
  rcases hfind : Tagged.find? c ((accepted d calls).flatMap commands) with _ | h'
  · have hnil : Tagged.select c ((accepted d calls).flatMap commands) = [] :=
      List.head?_eq_none_iff.1 hfind
    have hselect := Tagged.mem_select.2 hmem
    rw [hnil] at hselect
    cases hselect
  · have heq := (compatible_accepted d calls).eq_of_mem_flatMap place_of_mem_commands
      (Tagged.mem_of_find? hfind) hmem rfl
    cases heq
    rfl

/-- An event changes a state as the state handler says that was registered for both. -/
theorem dispatchState_build {h : StateHandler D} (hcall : .state h ∈ accepted d calls)
    (state : D.State h.aggregate) (event : D.Event h.event) :
    (build d calls).dispatchState h.aggregate state ⟨h.event, event⟩ =
      .ok (h.apply state event) := by
  have hmem : h ∈ (build d calls).states := by
    rw [(holds_build d calls).states]
    exact List.mem_flatMap.2 ⟨_, hcall, List.mem_cons_self⟩
  have hchange : stateChange? h.aggregate ⟨h.event, event⟩ h = some fun state =>
      h.apply state event := by
    unfold stateChange?
    rw [dif_pos rfl, AnyEvent.as?_self]
    rfl
  have hsome : ((build d calls).states.findSome?
      (stateChange? h.aggregate ⟨h.event, event⟩)).isSome :=
    List.findSome?_isSome_iff.2 ⟨h, hmem, by rw [hchange]; rfl⟩
  obtain ⟨change, hfind⟩ := Option.isSome_iff_exists.1 hsome
  -- whichever handler is found has the same place
  obtain ⟨h', hmem', hchange'⟩ := List.exists_of_findSome?_eq_some hfind
  obtain ⟨haggregate, hevent⟩ := eq_of_stateChange? hchange'
  rw [(holds_build d calls).states] at hmem hmem'
  have heq : h' = h :=
    (compatible_accepted d calls).eq_of_mem_flatMap place_of_mem_states hmem' hmem (by
      rw [haggregate, hevent])
  rw [heq, hchange] at hchange'
  rw [dispatchState, hfind, ← Option.some.inj hchange']

/-- A query is passed to the handler that was registered for its key. -/
theorem queries_build {key : String} {h : QueryHandler D σ}
    (hcall : .query key h ∈ accepted d calls) :
    (build d calls).queries.get? key = some h := by
  have hcompatible := compatible_accepted d calls
  have hbuild : build d calls = filled d (accepted d calls) := by
    rw [← build_accepted, (build_compatible hcompatible).2]
  have hmem : h ∈ (accepted d calls).filterMap (handlerOf? key) :=
    List.mem_filterMap.2 ⟨_, hcall, if_pos rfl⟩
  rcases hlast : ((accepted d calls).filterMap (handlerOf? key)).getLast? with _ | h'
  · rw [List.getLast?_eq_none_iff.1 hlast] at hmem
    cases hmem
  · have hmem' : .query key h' ∈ accepted d calls := by
      refine (holds_build d calls).queries key h' ?_
      rw [hbuild, queries_filled, hlast]
    have heq := hcompatible.eq_of_place hmem' hcall rfl rfl
    rw [hbuild, queries_filled, hlast]
    injection heq with _ heq
    rw [heq]

end

/-! ### Calls among others -/

/-- Calls that are made in order and do not fail all succeed. -/
theorem acceptedFrom_of_performAll {calls : List (Registration D σ)} {r : Registry D σ}
    (h : ((performAll calls).run r).1 = .ok ()) : acceptedFrom r calls = calls := by
  induction calls generalizing r with
  | nil => rfl
  | cons call calls ih =>
    rw [performAll] at h
    rcases hcall : call.perform.run r with ⟨e | _, r'⟩
    · rw [Task.run_bind_of_error hcall] at h
      cases h
    · rw [Task.run_bind_of_ok hcall] at h
      rw [acceptedFrom, hcall]
      exact congrArg (call :: ·) (ih h)

theorem performAll_of_answers {calls : List (Registration D σ)} {r : Registry D σ}
    (h : ∀ answer ∈ answersFrom r calls, answer = .ok ()) :
    ((performAll calls).run r).1 = .ok () := by
  induction calls generalizing r with
  | nil => rfl
  | cons call calls ih =>
    have hcall : call.perform.run r = (.ok (), (call.perform.run r).2) :=
      Prod.ext (h _ List.mem_cons_self) rfl
    rw [performAll, Task.run_bind_of_ok hcall]
    exact ih fun answer hanswer => h answer (List.mem_cons_of_mem _ hanswer)

/-- Calls that do not fail, with others before and behind them, of which some may. -/
theorem accepted_among {d : Dependencies D} {before calls : List (Registration D σ)}
    (h : ((performAll calls).run (build d before)).1 = .ok ())
    (behind : List (Registration D σ)) :
    ∃ behind', behind'.Sublist behind ∧
      accepted d (before ++ calls ++ behind) = accepted d before ++ calls ++ behind' := by
  refine ⟨acceptedFrom (build d (before ++ calls)) behind, acceptedFrom_sublist _ _, ?_⟩
  rw [accepted, acceptedFrom_append, acceptedFrom_append]
  show accepted d before ++ acceptedFrom (build d before) calls ++ _ = _
  rw [acceptedFrom_of_performAll h]
  rfl

end Registration

end Chronicle
