/-
Chronicle/Proofs/Registry/Order.lean

The order of calls does not matter.

Calls that all succeed do so because they are `Registration.Compatible`: each is
allowed by the shared values, no two take one place, and no two types of events
share a name (`Registration.succeed_iff`).  This does not depend on their order.
What they build can be looked up in the list of calls (`Registration.Filled`), and
every look-up by a key that one call at most has is the same in every order.  Only
the handlers of one event, for commands or in one group, have an order among
themselves.

Main result: `order_does_not_matter`.
-/
import Chronicle.Bench.Handlers
import Chronicle.Proofs.Driver.Confined
import Chronicle.Proofs.Registry.Acceptance
import Mathlib.Data.List.Induction
import Mathlib.Data.List.Pairwise

namespace Chronicle

variable {D : Domain} {σ α β : Type}

open Registry

/-- Values that are all equal come in one order only. -/
theorem filterMap_eq_of_perm {l l' : List α} {f : α → Option β} (h : l.Perm l')
    (hsame : ∀ a ∈ l, ∀ b ∈ l, ∀ x y, f a = some x → f b = some y → x = y) :
    l.filterMap f = l'.filterMap f := by
  have hperm := h.filterMap f
  rcases hl : l.filterMap f with _ | ⟨x, xs⟩
  · rw [hl] at hperm
    exact hperm.nil_eq
  · have hx : ∀ y ∈ l.filterMap f, y = x := by
      intro y hy
      obtain ⟨a, ha, hay⟩ := List.mem_filterMap.1 hy
      have hmem : x ∈ l.filterMap f := by
        rw [hl]
        exact List.mem_cons_self
      obtain ⟨b, hb, hbx⟩ := List.mem_filterMap.1 hmem
      exact hsame a ha b hb y x hay hbx
    rw [List.eq_replicate_of_mem hx] at hperm hl
    rw [← hl]
    exact (List.perm_replicate.1 hperm.symm).symm

/-- A search among the parts of entries can leave out the entries with none to find. -/
theorem filterMap_flatMap_filter {γ : Type} {l : List α} {parts : α → List β} {f : β → Option γ}
    {q : α → Bool} (h : ∀ a, q a = false → ∀ b ∈ parts a, f b = none) :
    (l.flatMap parts).filterMap f = ((l.filter q).flatMap parts).filterMap f := by
  induction l with
  | nil => rfl
  | cons a l ih =>
    rw [List.flatMap_cons, List.filterMap_append, ih]
    by_cases hq : q a
    · rw [List.filter_cons_of_pos hq, List.flatMap_cons, List.filterMap_append]
    · rw [List.filter_cons_of_neg hq,
        List.filterMap_eq_nil_iff.2 (h a (eq_false_of_ne_true hq)), List.nil_append]

/-- A state handler that applies is for the aggregate and the event. -/
theorem Registry.eq_of_stateChange? {a : D.AggregateType} {e : AnyEvent D} {h : StateHandler D}
    {change : D.State a → D.State a} (hchange : stateChange? a e h = some change) :
    h.aggregate = a ∧ h.event = e.type := by
  unfold stateChange? at hchange
  split at hchange
  · rename_i ha
    obtain ⟨event, hevent, -⟩ := Option.map_eq_some_iff.1 hchange
    unfold AnyEvent.as? at hevent
    split at hevent
    · rename_i he
      exact ⟨ha, he.symm⟩
    · cases hevent
  · cases hchange

/-- Two tables that nobody can tell apart by what they answer. -/
structure Registry.Alike (r r' : Registry D σ) : Prop where
  dependencies : r'.dependencies = r.dependencies
  command : ∀ c state command ctx,
    r'.dispatchCommand c state command ctx = r.dispatchCommand c state command ctx
  state : ∀ a state e, r'.dispatchState a state e = r.dispatchState a state e
  domainEvent : ∀ e ctx, r'.dispatchDomain e ctx = r.dispatchDomain e ctx
  streamEvent : ∀ group e ctx, r'.dispatchStream group e ctx = r.dispatchStream group e ctx
  query : ∀ key input output value ctx, r'.dispatchQuery key input output value ctx =
    r.dispatchQuery key input output value ctx
  decode : ∀ typeName payload, r'.decode typeName payload = r.decode typeName payload
  /-- The groups have the same names and numbers of workers. -/
  groups : ∀ name, (r'.groups.get? name).map (fun g => (g.name, g.workers)) =
    (r.groups.get? name).map fun g => (g.name, g.workers)
  handles : ∀ group typeName, r'.handles group typeName = r.handles group typeName

namespace Registration

/-! ### Calls that get along -/

/-- Two calls that do not want the same place, nor one name for two types of events. -/
structure Apart (call call' : Registration D σ) : Prop where
  places : ∀ place, call.place? = some place → call'.place? ≠ some place
  names : ∀ e ∈ call.events, ∀ e' ∈ call'.events, D.eventName e' = D.eventName e → e' = e

theorem Apart.symm {call call' : Registration D σ} (h : call.Apart call') : call'.Apart call where
  places place hplace' hplace := h.places place hplace hplace'
  names e' he' e he hname := (h.names e he e' he' hname.symm).symm

instance : Std.Symm (Apart : Registration D σ → Registration D σ → Prop) := ⟨fun _ _ => Apart.symm⟩

/-- Calls that succeed together. -/
structure Compatible (d : Dependencies D) (calls : List (Registration D σ)) : Prop where
  admissible : ∀ call ∈ calls, call.Admissible d
  apart : calls.Pairwise Apart

section

variable {d : Dependencies D} {calls calls' : List (Registration D σ)}
  {call call' : Registration D σ}

/-- In which order they are made does not matter. -/
theorem Compatible.perm (h : Compatible d calls) (hperm : calls.Perm calls') :
    Compatible d calls' where
  admissible call hcall := h.admissible call (hperm.mem_iff.2 hcall)
  apart := (hperm.pairwise_iff Apart.symm).1 h.apart

/-- Two of them that take one place are one call. -/
theorem Compatible.eq_of_place (h : Compatible d calls) (hcall : call ∈ calls)
    (hcall' : call' ∈ calls) {place : Place D} (hplace : call.place? = some place)
    (hplace' : call'.place? = some place) : call = call' := by
  by_contra hne
  exact (h.apart.forall hcall hcall' hne).places place hplace hplace'

/-- Their events are told apart by name. -/
theorem Compatible.eq_of_name (h : Compatible d calls) (hcall : call ∈ calls)
    (hcall' : call' ∈ calls) {e e' : D.EventType} (he : e ∈ call.events) (he' : e' ∈ call'.events)
    (hname : D.eventName e' = D.eventName e) : e' = e := by
  by_cases heq : call = call'
  · -- a call has one event at most
    subst heq
    cases call <;> simp_all [events]
  · exact (h.apart.forall hcall hcall' heq).names e he e' he' hname

theorem compatible_concat : Compatible d (calls ++ [call]) ↔
    Compatible d calls ∧ call.Admissible d ∧ ∀ a ∈ calls, a.Apart call := by
  constructor
  · intro h
    obtain ⟨happart, -, hlast⟩ := List.pairwise_append.1 h.apart
    refine ⟨⟨fun a ha => h.admissible a (List.mem_append_left _ ha), happart⟩, ?_, ?_⟩
    · exact h.admissible call (List.mem_append_right _ List.mem_cons_self)
    · exact fun a ha => hlast a ha call List.mem_cons_self
  · rintro ⟨h, hadmissible, hlast⟩
    constructor
    · intro a ha
      rcases List.mem_append.1 ha with ha | ha
      · exact h.admissible a ha
      · rw [List.mem_singleton.1 ha]
        exact hadmissible
    · refine List.pairwise_append.2 ⟨h.apart, List.pairwise_singleton _ _, fun a ha b hb => ?_⟩
      rw [List.mem_singleton.1 hb]
      exact hlast a ha

end

/-! ### What calls build -/

/-- The table with what all calls add. -/
def filled (d : Dependencies D) (calls : List (Registration D σ)) : Registry D σ :=
  calls.foldl (fun r call => call.add r) (Registry.empty d)

theorem filled_concat (d : Dependencies D) (calls : List (Registration D σ))
    (call : Registration D σ) : filled d (calls ++ [call]) = call.add (filled d calls) := by
  rw [filled, List.foldl_append]
  rfl

/-- The handler that a call adds for a query. -/
def handlerOf? (key : String) : Registration D σ → Option (QueryHandler D σ)
  | query k h => if k = key then some h else none
  | _ => none

/-- The number of workers that a call gives a group. -/
def workersOf? (name : String) : Registration D σ → Option Nat
  | group n workers => if n = name then some workers else none
  | _ => none

theorem eq_of_workersOf? {name : String} {call : Registration D σ} {n : Nat}
    (h : call.workersOf? name = some n) : call = .group name n := by
  cases call with
  | group name' workers =>
    rw [workersOf?] at h
    split at h
    · rename_i hname
      cases h
      rw [hname]
    · cases h
  | _ => cases h

/-- Whether a call is about a group. -/
def concerns (name : String) : Registration D σ → Bool
  | group n _ => n = name
  | streamEvent n _ _ => n = name
  | _ => false

/-- The group that calls make: the number of workers given last, and all handlers. -/
def groupOf (name : String) (calls : List (Registration D σ)) : ProcessingGroup D σ :=
  let given := (calls.filterMap (workersOf? name)).getLast?
  ⟨name, given.getD 1, given.isSome, calls.flatMap (groupHandlers name)⟩

/-- What a call makes of a group that it concerns. -/
def change (g : ProcessingGroup D σ) : Registration D σ → ProcessingGroup D σ
  | group _ workers => { g with workers, declared := true }
  | streamEvent _ e h => { g with handlers := g.handlers ++ [⟨e, h⟩] }
  | _ => g

theorem groups_add (r : Registry D σ) (call : Registration D σ) (name : String) :
    (call.add r).groups.get? name =
      if call.concerns name then some (call.change ((r.groups.get? name).getD (.undeclared name)))
      else r.groups.get? name := by
  cases call with
  | group n workers =>
    show (r.groups.insert n _).get? name = _
    rw [Dictionary.get?_insert]
    by_cases hn : n = name
    · simp [concerns, change, hn]
    · simp [concerns, hn, Ne.symm hn]
  | streamEvent n e h =>
    show (r.groups.insert n _).get? name = _
    rw [Dictionary.get?_insert]
    by_cases hn : n = name
    · simp [concerns, change, hn]
    · simp [concerns, hn, Ne.symm hn]
  | _ => rfl

theorem groupOf_concat (calls : List (Registration D σ)) (call : Registration D σ)
    (name : String) : groupOf name (calls ++ [call]) =
      if call.concerns name then call.change (groupOf name calls) else groupOf name calls := by
  unfold groupOf
  rw [List.filterMap_append, List.flatMap_append, List.flatMap_singleton]
  cases call with
  | group n workers =>
    by_cases hn : n = name
    · simp [concerns, change, workersOf?, groupHandlers, hn]
    · simp [concerns, workersOf?, groupHandlers, hn]
  | streamEvent n e h =>
    by_cases hn : n = name
    · simp [concerns, change, workersOf?, groupHandlers, hn]
    · simp [concerns, workersOf?, groupHandlers, hn]
  | _ => simp [concerns, workersOf?, groupHandlers]

/-- A group that no call concerns is as it would start. -/
theorem groupOf_eq_undeclared {calls : List (Registration D σ)} {name : String}
    (h : calls.any (concerns name) = false) : groupOf name calls = .undeclared name := by
  induction calls using List.reverseRecOn with
  | nil => rfl
  | append_singleton calls call ih =>
    rw [List.any_append, Bool.or_eq_false_iff] at h
    obtain ⟨hcalls, hcall⟩ := h
    rw [List.any_cons, List.any_nil, Bool.or_false] at hcall
    rw [groupOf_concat, hcall, ih hcalls]
    rfl

/-- The groups are those that calls concern. -/
theorem groups_filled (d : Dependencies D) (calls : List (Registration D σ)) (name : String) :
    (filled d calls).groups.get? name =
      if calls.any (concerns name) then some (groupOf name calls) else none := by
  induction calls using List.reverseRecOn with
  | nil => rfl
  | append_singleton calls call ih =>
    rw [filled_concat, groups_add, groupOf_concat, ih, List.any_append, List.any_cons, List.any_nil,
      Bool.or_false]
    by_cases hcall : call.concerns name
    · by_cases hcalls : calls.any (concerns name)
      · simp [hcall, hcalls]
      · simp [hcall, hcalls, groupOf_eq_undeclared (eq_false_of_ne_true hcalls)]
    · simp [hcall]

theorem queries_filled (d : Dependencies D) (calls : List (Registration D σ)) (key : String) :
    (filled d calls).queries.get? key = (calls.filterMap (handlerOf? key)).getLast? := by
  induction calls using List.reverseRecOn with
  | nil => rfl
  | append_singleton calls call ih =>
    rw [filled_concat, List.filterMap_append]
    cases call with
    | query k h =>
      show ((filled d calls).queries.insert k h).get? key = _
      rw [Dictionary.get?_insert]
      by_cases hk : k = key
      · simp [handlerOf?, hk]
      · simp [handlerOf?, hk, Ne.symm hk, ih]
    | _ => simpa [handlerOf?, add, updateGroup] using ih

/-- The places that are taken are those of the calls. -/
theorem taken_filled {d : Dependencies D} {calls : List (Registration D σ)}
    (h : Holds d calls (filled d calls)) {place : Place D} :
    (filled d calls).Taken place ↔ ∃ call ∈ calls, call.place? = some place := by
  cases place with
  | command c =>
    have hcall (call : Registration D σ) :
        (∃ h ∈ call.commands, h.1 = c) ↔ call.place? = some (.command c) := by
      cases call <;> simp [commands, place?]
    rw [Taken, h.commands]
    simp only [List.mem_flatMap, ← hcall]
    constructor
    · rintro ⟨x, ⟨call, hmem, hx⟩, hc⟩
      exact ⟨call, hmem, x, hx, hc⟩
    · rintro ⟨call, hmem, x, hx, hc⟩
      exact ⟨x, ⟨call, hmem, hx⟩, hc⟩
  | state a e =>
    have hcall (call : Registration D σ) :
        (∃ h ∈ call.states, h.aggregate = a ∧ h.event = e) ↔ call.place? = some (.state a e) := by
      cases call <;> simp [states, place?]
    rw [Taken, h.states]
    simp only [List.mem_flatMap, ← hcall]
    constructor
    · rintro ⟨x, ⟨call, hmem, hx⟩, hc⟩
      exact ⟨call, hmem, x, hx, hc⟩
    · rintro ⟨call, hmem, x, hx, hc⟩
      exact ⟨x, ⟨call, hmem, hx⟩, hc⟩
  | group name =>
    have hcall (call : Registration D σ) :
        (call.workersOf? name).isSome ↔ call.place? = some (.group name) := by
      cases call <;> simp [workersOf?, place?]
    have hdeclared : (if calls.any (concerns name) then some (groupOf name calls) else none).any
        (·.declared) = (groupOf name calls).declared := by
      split
      · rfl
      · rename_i hnone
        rw [groupOf_eq_undeclared (eq_false_of_ne_true hnone)]
        rfl
    rw [Taken, groups_filled, hdeclared]
    simp [groupOf, ← hcall]
  | query key =>
    have hcall (call : Registration D σ) :
        (call.handlerOf? key).isSome ↔ call.place? = some (.query key) := by
      cases call <;> simp [handlerOf?, place?]
    rw [Taken, Dictionary.contains, queries_filled]
    simp [← hcall]

theorem fits_iff_apart {d : Dependencies D} {calls : List (Registration D σ)}
    (h : Holds d calls (filled d calls)) {call : Registration D σ} :
    call.Fits (filled d calls) ↔ ∀ a ∈ calls, a.Apart call := by
  constructor
  · intro hfits a ha
    constructor
    · intro place hplace hcall
      exact hfits.free place hcall ((taken_filled h).2 ⟨a, ha, hplace⟩)
    · intro e he e' he' hname
      exact (hfits.known e' he' e ((h.decoders _ e).2 ⟨hname.symm, a, ha, he⟩)).symm
  · intro hapart
    constructor
    · intro place hcall htaken
      obtain ⟨a, ha, hplace⟩ := (taken_filled h).1 htaken
      exact (hapart a ha).places place hplace hcall
    · intro e' he' e hdecoder
      obtain ⟨hname, a, ha, he⟩ := (h.decoders _ e).1 hdecoder
      exact ((hapart a ha).names e he e' he' hname.symm).symm

/-- Compatible calls all succeed. -/
theorem build_compatible {d : Dependencies D} {calls : List (Registration D σ)}
    (h : Compatible d calls) : accepted d calls = calls ∧ build d calls = filled d calls := by
  induction calls using List.reverseRecOn with
  | nil => exact ⟨rfl, rfl⟩
  | append_singleton calls call ih =>
    obtain ⟨hcalls, hadmissible, hapart⟩ := compatible_concat.1 h
    obtain ⟨haccepted, hbuild⟩ := ih hcalls
    have hholds := holds_build d calls
    rw [haccepted, hbuild] at hholds
    have hrun : call.perform.run (filled d calls) = (.ok (), call.add (filled d calls)) :=
      perform_eq_ok.2 ⟨hholds.dependencies.symm ▸ hadmissible, (fits_iff_apart hholds).2 hapart, rfl⟩
    constructor
    · rw [accepted, acceptedFrom_append]
      show accepted d calls ++ acceptedFrom (build d calls) [call] = _
      rw [haccepted, hbuild, acceptedFrom, hrun]
      rfl
    · rw [build_append, hbuild, filled_concat, List.foldl_cons, hrun]
      rfl

/-- Calls all succeed exactly if they are compatible. -/
theorem succeed_iff {d : Dependencies D} {calls : List (Registration D σ)} :
    (∀ answer ∈ answersFrom (Registry.empty d) calls, answer = .ok ()) ↔ Compatible d calls := by
  constructor
  · intro h
    induction calls using List.reverseRecOn with
    | nil => exact ⟨fun _ h => absurd h List.not_mem_nil, .nil⟩
    | append_singleton calls call ih =>
      rw [answersFrom_append, List.forall_mem_append] at h
      have hcalls := ih h.1
      obtain ⟨haccepted, hbuild⟩ := build_compatible hcalls
      have hholds := holds_build d calls
      rw [haccepted, hbuild] at hholds
      have hok : (call.perform.run (build d calls)).1 = .ok () := h.2 _ List.mem_cons_self
      rw [hbuild] at hok
      obtain ⟨hadmissible, hfits, -⟩ := perform_eq_ok.1 (Prod.ext hok rfl :
        call.perform.run (filled d calls) = (.ok (), (call.perform.run (filled d calls)).2))
      rw [hholds.dependencies] at hadmissible
      exact compatible_concat.2 ⟨hcalls, hadmissible, (fits_iff_apart hholds).1 hfits⟩
  · intro h
    have halone := (acceptedFrom_alone (Registry.empty d) calls).2
    rw [← accepted, (build_compatible h).1] at halone
    exact halone

/-! ### Another order -/

/-- Whether a call adds a handler for events of a type, in the unit of work of their
command. -/
def addsDomainEvent (e : D.EventType) : Registration D σ → Bool
  | domainEvent e' _ => e' = e
  | _ => false

/-- Whether a call adds a handler for events of a type to a group. -/
def addsStreamEvent (name : String) (e : D.EventType) : Registration D σ → Bool
  | streamEvent n e' _ => n = name ∧ e' = e
  | _ => false

/-- The same calls, where handlers that are called one after the other keep their
order. -/
structure Reordered (calls calls' : List (Registration D σ)) : Prop where
  perm : calls.Perm calls'
  domainEvents : ∀ e, calls'.filter (addsDomainEvent e) = calls.filter (addsDomainEvent e)
  streamEvents : ∀ group e,
    calls'.filter (addsStreamEvent group e) = calls.filter (addsStreamEvent group e)

section

variable {d : Dependencies D} {calls calls' : List (Registration D σ)}

/-- The handler of a command has its place alone, and likewise below. -/
theorem place_of_mem_commands (call : Registration D σ) (x) (hx : x ∈ call.commands) :
    call.place? = some (.command x.1) ∧ call.commands = [x] := by
  cases call <;> simp_all [commands, place?]

theorem place_of_mem_states (call : Registration D σ) (x) (hx : x ∈ call.states) :
    call.place? = some (.state x.aggregate x.event) ∧ call.states = [x] := by
  cases call <;> simp_all [states, place?]

/-- Handlers that have a place alone are told apart by it. -/
theorem Compatible.eq_of_mem_flatMap (h : Compatible d calls) {parts : Registration D σ → List β}
    {place : β → Place D}
    (hparts : ∀ call, ∀ b ∈ parts call, call.place? = some (place b) ∧ parts call = [b])
    {b b' : β} (hb : b ∈ calls.flatMap parts) (hb' : b' ∈ calls.flatMap parts)
    (hplace : place b = place b') : b = b' := by
  obtain ⟨call, hcall, hmem⟩ := List.mem_flatMap.1 hb
  obtain ⟨call', hcall', hmem'⟩ := List.mem_flatMap.1 hb'
  obtain ⟨hfirst, hpart⟩ := hparts call b hmem
  obtain ⟨hsecond, hpart'⟩ := hparts call' b' hmem'
  have heq := h.eq_of_place hcall hcall' hfirst (hplace ▸ hsecond)
  rw [heq, hpart'] at hpart
  exact (List.cons.inj hpart).1.symm

variable (h : Compatible d calls)

include h

theorem Compatible.find_commands (hperm : calls.Perm calls') (c : D.CommandType) :
    Tagged.find? c (calls'.flatMap commands) = Tagged.find? c (calls.flatMap commands) := by
  have hselect : Tagged.select c (calls.flatMap commands) =
      Tagged.select c (calls'.flatMap commands) := by
    refine filterMap_eq_of_perm (hperm.flatMap_right commands) fun a ha b hb x y hx hy => ?_
    rw [Tagged.as?_eq_some] at hx hy
    subst hx hy
    cases h.eq_of_mem_flatMap place_of_mem_commands ha hb rfl
    rfl
  rw [Tagged.find?, Tagged.find?, hselect]

theorem Compatible.find_states (hperm : calls.Perm calls') (a : D.AggregateType) (e : AnyEvent D) :
    (calls'.flatMap states).findSome? (stateChange? a e) =
      (calls.flatMap states).findSome? (stateChange? a e) := by
  have hselect : (calls.flatMap states).filterMap (stateChange? a e) =
      (calls'.flatMap states).filterMap (stateChange? a e) := by
    refine filterMap_eq_of_perm (hperm.flatMap_right states) fun x hx y hy f g hf hg => ?_
    have hxy := h.eq_of_mem_flatMap place_of_mem_states hx hy (by
      obtain ⟨ha, he⟩ := eq_of_stateChange? hf
      obtain ⟨ha', he'⟩ := eq_of_stateChange? hg
      rw [ha, he, ha', he'])
    rw [hxy, hg] at hf
    exact (Option.some.inj hf).symm
  rw [← List.head?_filterMap, ← List.head?_filterMap, hselect]

omit h in
theorem Reordered.select_domainHandlers (h : Reordered calls calls') (e : D.EventType) :
    Tagged.select e (calls'.flatMap domainHandlers) =
      Tagged.select e (calls.flatMap domainHandlers) := by
  have hother (call : Registration D σ) (hcall : call.addsDomainEvent e = false) (x)
      (hx : x ∈ call.domainHandlers) : Tagged.as? e x = none := by
    cases call with
    | domainEvent e' f =>
      rw [List.mem_singleton.1 hx]
      exact Tagged.as?_of_ne f (by simpa [addsDomainEvent] using hcall)
    | _ => cases hx
  rw [Tagged.select, Tagged.select, filterMap_flatMap_filter hother, h.domainEvents,
    ← filterMap_flatMap_filter hother]

omit h in
theorem Reordered.filter_groupHandlers (h : Reordered calls calls') (group : String)
    (e : D.EventType) : ((calls'.flatMap (groupHandlers group)).filter fun x => x.1 = e) =
      (calls.flatMap (groupHandlers group)).filter fun x => x.1 = e := by
  have hother (call : Registration D σ) (hcall : call.addsStreamEvent group e = false) (x)
      (hx : x ∈ call.groupHandlers group) : Option.guard (fun x => x.1 = e) x = none := by
    rw [eq_of_mem_groupHandlers hx] at hcall
    rw [Option.guard_eq_none_iff]
    simpa [addsStreamEvent] using hcall
  rw [← List.filterMap_eq_filter, filterMap_flatMap_filter hother, h.streamEvents,
    ← filterMap_flatMap_filter hother]

/-- The handlers of a group for a name are for one type of events, whose handlers keep
their order. -/
theorem Compatible.streamHandlers (hreordered : Reordered calls calls') (group typeName : String) :
    ((calls'.flatMap (groupHandlers group)).filter fun x => D.eventName x.1 == typeName) =
      (calls.flatMap (groupHandlers group)).filter fun x => D.eventName x.1 == typeName := by
  have hevent {calls₀ : List (Registration D σ)} (hperm : calls.Perm calls₀) {x}
      (hx : x ∈ calls₀.flatMap (groupHandlers group)) : ∃ call ∈ calls, x.1 ∈ call.events := by
    obtain ⟨call, hcall, hmem⟩ := List.mem_flatMap.1 hx
    refine ⟨call, hperm.mem_iff.2 hcall, ?_⟩
    rw [eq_of_mem_groupHandlers hmem]
    exact List.mem_cons_self
  by_cases hnamed : ∃ call ∈ calls, ∃ e ∈ call.events, D.eventName e = typeName
  · obtain ⟨call, hcall, e, he, rfl⟩ := hnamed
    have htype {calls₀ : List (Registration D σ)} (hperm : calls.Perm calls₀) :
        ((calls₀.flatMap (groupHandlers group)).filter fun x => D.eventName x.1 == D.eventName e) =
          (calls₀.flatMap (groupHandlers group)).filter fun x => x.1 = e := by
      refine List.filter_congr fun x hx => ?_
      obtain ⟨call', hcall', he'⟩ := hevent hperm hx
      rw [beq_eq_decide, decide_eq_decide]
      exact ⟨h.eq_of_name hcall hcall' he he', congrArg D.eventName⟩
    rw [htype hreordered.perm, htype (.refl calls), hreordered.filter_groupHandlers]
  · -- no handler is for events of the name
    have hnone {calls₀ : List (Registration D σ)} (hperm : calls.Perm calls₀) :
        ((calls₀.flatMap (groupHandlers group)).filter fun x => D.eventName x.1 == typeName) =
          [] := by
      refine List.filter_eq_nil_iff.2 fun x hx hname => hnamed ?_
      obtain ⟨call, hcall, he⟩ := hevent hperm hx
      exact ⟨call, hcall, x.1, he, beq_iff_eq.1 hname⟩
    rw [hnone hreordered.perm, hnone (.refl calls)]

/-- A query has one handler. -/
theorem Compatible.queries (hperm : calls.Perm calls') (key : String) :
    (filled d calls').queries.get? key = (filled d calls).queries.get? key := by
  have hplace (call : Registration D σ) (q) (hq : call.handlerOf? key = some q) :
      call = .query key q := by
    cases call with
    | query k h' =>
      rw [handlerOf?] at hq
      split at hq
      · rename_i hk
        cases hq
        rw [hk]
      · cases hq
    | _ => cases hq
  have hhandlers : calls.filterMap (handlerOf? key) = calls'.filterMap (handlerOf? key) := by
    refine filterMap_eq_of_perm hperm fun a ha b hb x y hx hy => ?_
    have ha' := hplace a x hx
    have hb' := hplace b y hy
    have heq := h.eq_of_place ha hb (congrArg place? ha') (congrArg place? hb')
    rw [ha', hb'] at heq
    injection heq
  rw [queries_filled, queries_filled, hhandlers]

/-- A group is given its number of workers once. -/
theorem Compatible.groups (hperm : calls.Perm calls') (name : String) :
    ((filled d calls').groups.get? name).map (fun g => (g.name, g.workers)) =
      ((filled d calls).groups.get? name).map fun g => (g.name, g.workers) := by
  have hworkers : calls.filterMap (workersOf? name) = calls'.filterMap (workersOf? name) := by
    refine filterMap_eq_of_perm hperm fun a ha b hb x y hx hy => ?_
    have ha' := eq_of_workersOf? hx
    have hb' := eq_of_workersOf? hy
    have heq := h.eq_of_place ha hb (congrArg place? ha') (congrArg place? hb')
    rw [ha', hb'] at heq
    injection heq
  have hany : calls'.any (concerns name) = calls.any (concerns name) := by
    rw [Bool.eq_iff_iff, List.any_eq_true, List.any_eq_true]
    simp only [hperm.mem_iff]
  rw [groups_filled, groups_filled, hany]
  split
  · simp only [Option.map_some, groupOf, hworkers]
  · rfl

end

/-- The type of events of a name does not depend on the order. -/
theorem Holds.decoders_perm {d : Dependencies D} {calls calls' : List (Registration D σ)}
    {r r' : Registry D σ} (h : Holds d calls r) (h' : Holds d calls' r') (hperm : calls.Perm calls')
    (name : String) : r'.decoders.get? name = r.decoders.get? name := by
  refine Option.ext fun e => ?_
  rw [h.decoders, h'.decoders]
  simp only [hperm.mem_iff]

/-- **The order of calls does not matter.**  Take calls that all succeed, and make them
in another order, in which only the domain event handlers for one event and the stream
event handlers for one event in one group keep the order among themselves.  Then all of
them succeed as well, and nobody can tell the two tables apart: commands, states,
events and queries are dispatched alike, stored events are read alike, and there are
the same groups with the same numbers of workers for the same names. -/
theorem order_does_not_matter {d : Dependencies D} {calls calls' : List (Registration D σ)}
    (hok : ∀ answer ∈ answersFrom (Registry.empty d) calls, answer = .ok ())
    (h : Reordered calls calls') :
    (∀ answer ∈ answersFrom (Registry.empty d) calls', answer = .ok ()) ∧
      (build d calls).Alike (build d calls') := by
  have hcompatible := succeed_iff.1 hok
  have hcompatible' := hcompatible.perm h.perm
  obtain ⟨haccepted, hbuild⟩ := build_compatible hcompatible
  obtain ⟨haccepted', hbuild'⟩ := build_compatible hcompatible'
  have hholds := holds_build d calls
  have hholds' := holds_build d calls'
  rw [haccepted] at hholds
  rw [haccepted'] at hholds'
  refine ⟨succeed_iff.2 hcompatible', ?_⟩
  have hstream (group typeName : String) : (build d calls').streamHandlers group typeName =
      (build d calls).streamHandlers group typeName := by
    rw [streamHandlers_eq, streamHandlers_eq, hholds.groupHandlers, hholds'.groupHandlers,
      hcompatible.streamHandlers h]
  refine {
    dependencies := hholds'.dependencies.trans hholds.dependencies.symm
    command := fun c state command ctx => ?_
    state := fun a state e => ?_
    domainEvent := fun e ctx => ?_
    streamEvent := fun group e ctx => ?_
    query := fun key input output value ctx => ?_
    decode := fun typeName payload => ?_
    groups := fun name => ?_
    handles := fun group typeName => ?_ }
  · unfold dispatchCommand
    rw [hholds.commands, hholds'.commands, hcompatible.find_commands h.perm]
  · unfold dispatchState
    rw [hholds.states, hholds'.states, hcompatible.find_states h.perm]
  · unfold dispatchDomain
    rw [hholds.domainHandlers, hholds'.domainHandlers, h.select_domainHandlers]
  · unfold dispatchStream
    rw [hstream]
  · unfold dispatchQuery
    rw [hbuild, hbuild', hcompatible.queries h.perm]
  · unfold Registry.decode
    rw [hholds.decoders_perm hholds' h.perm]
  · rw [hbuild, hbuild', hcompatible.groups h.perm]
  · rw [Bool.eq_iff_iff, handles_iff, handles_iff, hstream]

/-- Whether all calls succeed can be computed. -/
theorem eq_ok_of_all {answers : List (Except Error Unit)}
    (h : (answers.all fun answer => answer.isOk) = true) : ∀ answer ∈ answers, answer = .ok () := by
  intro answer hanswer
  have hok := List.all_eq_true.1 h answer hanswer
  rcases answer with e | _
  · cases hok
  · rfl

/-- The calls for drivers, last to first: the group is declared after its handlers. -/
theorem driver_calls_backwards :
    let calls : List (Registration Bench.domain (Driver.Scene Unit)) :=
      Driver.registrations Driver.newYear
    let d := Dependencies.empty
    (∀ answer ∈ answersFrom (Registry.empty d) calls, answer = .ok ()) ∧
      Reordered calls calls.reverse ∧
      (∀ answer ∈ answersFrom (Registry.empty d) calls.reverse, answer = .ok ()) ∧
      (build d calls).Alike (build d calls.reverse) ∧
      ((build d calls.reverse).groups.get? Driver.groupName).map (·.workers) = some 2 := by
  intro calls d
  have hok : ∀ answer ∈ answersFrom (Registry.empty d) calls, answer = .ok () :=
    eq_ok_of_all (by decide +kernel)
  have hreordered : Reordered calls calls.reverse := {
    perm := calls.reverse_perm.symm
    -- no event has two handlers of one kind
    domainEvents := by
      rintro (_ | _ | e)
      · rfl
      · rfl
      · rfl
    streamEvents := by
      rintro group (_ | _ | e)
      · simp [calls, Driver.registrations, addsStreamEvent, List.filter_cons]
      · simp [calls, Driver.registrations, addsStreamEvent, List.filter_cons]
      · simp [calls, Driver.registrations, addsStreamEvent] }
  obtain ⟨hok', halike⟩ := order_does_not_matter hok hreordered
  exact ⟨hok, hreordered, hok', halike, by decide +kernel⟩

end Registration

end Chronicle
