/-
Chronicle/Proofs/Registry/Verification.lean

Side inputs that were verified can be resolved.

Verification knows the scope of a handler only, and resolution the context of a
call only.  What ties the two is the context that the engine makes for the calls of
each scope (`HandlerContext.forScope`): there, a single input is accepted by both
or refused by both (`SideInput.verdict`).  For a list this holds too, and the same
input is the first that is refused (`Inputs.verdict`).

The table of handlers only has what was verified (`Registration.holds_build`), so
no dispatch on a built table ends with an input missing: not in a command, not in
a query, and not in a delivery from the stream.
-/
import Chronicle.Gateway.Query
import Chronicle.Proofs.Gateway.Failure
import Chronicle.Stream.Worker

namespace Chronicle

variable {D : Domain} {R W σ α : Type}

/-! ### One input -/

/-- The context in which handlers of a scope are called. -/
def HandlerContext.forScope (d : Dependencies D) (ctx : ExecutionContext) (info : EventInfo) :
    Scope → HandlerContext D
  | .command => .forCommand d ctx
  | .domainEvent => .forDomainEvent d ctx info
  | .streamEvent => .forStreamEvent d info
  | .query => .forQuery d

section

variable (d : Dependencies D) (ctx : ExecutionContext) (info : EventInfo) (scope : Scope)

/-- An input is available in the calls of a scope, or refused for it. -/
theorem SideInput.verdict (i : SideInput D) :
    (i.verify d scope = .ok () ∧
      ∃ value, i.resolve (.forScope d ctx info scope) = .ok value) ∨
    ((∃ text, i.verify d scope = .error (.unsatisfiedDependency text)) ∧
      i.resolve (.forScope d ctx info scope) = .error (.unsatisfiedDependency i.path)) := by
  cases i with
  | dependency t =>
    -- all contexts have the shared values themselves
    have hcontains : d.contains t =
        ((dependency t).find? (.forScope d ctx info scope : HandlerContext D)).isSome := by
      cases scope <;> rfl
    have hverify : (dependency t).verify d scope =
        if d.contains t then .ok () else .error (.unsatisfiedDependency t.path) := rfl
    rw [hverify, hcontains, resolve]
    rcases (dependency t).find? (.forScope d ctx info scope : HandlerContext D) with _ | value
    · exact .inr ⟨⟨t.path, rfl⟩, rfl⟩
    · exact .inl ⟨rfl, value, rfl⟩
  | execution =>
    cases scope with
    | command => exact .inl ⟨rfl, ctx, rfl⟩
    | domainEvent => exact .inl ⟨rfl, ctx, rfl⟩
    | streamEvent => exact .inr ⟨⟨_, rfl⟩, rfl⟩
    | query => exact .inr ⟨⟨_, rfl⟩, rfl⟩
  | stateless =>
    cases scope with
    | command => exact .inr ⟨⟨_, rfl⟩, rfl⟩
    | domainEvent => exact .inr ⟨⟨_, rfl⟩, rfl⟩
    | streamEvent => exact .inl ⟨rfl, ⟨⟩, rfl⟩
    | query => exact .inl ⟨rfl, ⟨⟩, rfl⟩
  | event =>
    cases scope with
    | command => exact .inr ⟨⟨_, rfl⟩, rfl⟩
    | domainEvent => exact .inl ⟨rfl, info, rfl⟩
    | streamEvent => exact .inl ⟨rfl, info, rfl⟩
    | query => exact .inr ⟨⟨_, rfl⟩, rfl⟩

/-! ### All inputs of a handler -/

/-- What becomes of the inputs of a handler, when it is registered and when it is
called in a context: they are accepted and found, or the same one is the first
that is refused and not found, and is the cause of both errors. -/
inductive Inputs.Verdict (context : HandlerContext D) (inputs : List (SideInput D)) : Prop
  | accepted {values : Inputs inputs} :
      SideInput.verifyAll d scope inputs = .ok () →
      Inputs.resolve context inputs = .ok values → Verdict context inputs
  | refused (before : List (SideInput D)) (i : SideInput D) (after : List (SideInput D))
      {values : Inputs before} {text : String} : inputs = before ++ i :: after →
      SideInput.verifyAll d scope before = .ok () →
      Inputs.resolve context before = .ok values →
      i.verify d scope = .error (.unsatisfiedDependency text) →
      SideInput.verifyAll d scope inputs = .error (.unsatisfiedDependency text) →
      i.resolve context = .error (.unsatisfiedDependency i.path) →
      Inputs.resolve context inputs = .error (.unsatisfiedDependency i.path) →
      Verdict context inputs

theorem Inputs.resolve_cons {context : HandlerContext D} {i : SideInput D} {value : i.Carrier}
    (h : i.resolve context = .ok value) {is : List (SideInput D)} {values : Inputs is}
    (his : Inputs.resolve context is = .ok values) :
    Inputs.resolve context (i :: is) = .ok (value, values) := by
  rw [Inputs.resolve, h, his]
  rfl

theorem SideInput.verifyAll_cons {i : SideInput D} (h : i.verify d scope = .ok ())
    (is : List (SideInput D)) : verifyAll d scope (i :: is) = verifyAll d scope is := by
  rw [verifyAll, h]
  rfl

theorem Inputs.verdict (inputs : List (SideInput D)) :
    Verdict d scope (.forScope d ctx info scope) inputs := by
  induction inputs with
  | nil => exact .accepted rfl rfl
  | cons i is ih =>
    rcases i.verdict d ctx info scope with ⟨hverify, value, hresolve⟩ | ⟨⟨text, hverify⟩, hresolve⟩
    · cases ih with
      | accepted hv hr =>
        exact .accepted ((SideInput.verifyAll_cons d scope hverify is).trans hv)
          (Inputs.resolve_cons hresolve hr)
      | refused before j after heq hbefore hfound hj hv hnot hr =>
        refine .refused (i :: before) j after (heq ▸ rfl)
          ((SideInput.verifyAll_cons d scope hverify before).trans hbefore)
          (Inputs.resolve_cons hresolve hfound) hj
          ((SideInput.verifyAll_cons d scope hverify is).trans hv) hnot ?_
        rw [Inputs.resolve, hresolve]
        show (Inputs.resolve _ is >>= fun values => .ok (value, values)) = _
        rw [hr]
        rfl
    · -- the first input of all is refused
      refine .refused [] i is rfl rfl rfl hverify ?_ hresolve ?_
      · rw [SideInput.verifyAll, hverify]
        rfl
      · rw [Inputs.resolve, hresolve]
        rfl

/-- Inputs are accepted exactly if they are there in every call. -/
theorem Inputs.verifyAll_iff (inputs : List (SideInput D)) :
    SideInput.verifyAll d scope inputs = .ok () ↔
      ∃ values, Inputs.resolve (.forScope d ctx info scope) inputs = .ok values := by
  cases verdict d ctx info scope inputs with
  | accepted hv hr => exact ⟨fun _ => ⟨_, hr⟩, fun _ => hv⟩
  | refused _ _ _ _ _ _ _ hv _ hr =>
    constructor
    · intro h
      rw [hv] at h
      cases h
    · rintro ⟨values, h⟩
      rw [hr] at h
      cases h

end

/-- Verified inputs are not missing in a call. -/
theorem Inputs.resolve_of_verifyAll {d : Dependencies D} {scope : Scope}
    {inputs : List (SideInput D)} {Q : Error → Prop}
    (h : SideInput.verifyAll d scope inputs = .ok ()) (ctx : ExecutionContext) (info : EventInfo)
    (e : Error) (he : Inputs.resolve (.forScope d ctx info scope) inputs = .error e) : Q e := by
  obtain ⟨values, hvalues⟩ := (verifyAll_iff d ctx info scope inputs).1 h
  rw [hvalues] at he
  cases he

/-! ### Dispatch on a built table -/

/-- An error that is no missing side input. -/
def Error.NoUnsatisfied (e : Error) : Prop := ∀ text, e ≠ .unsatisfiedDependency text

theorem Error.NoUnsatisfied.of_isCommon (e : Error) (h : e.IsCommon) : e.NoUnsatisfied := by
  rintro text rfl
  exact h

open Chronicle.Task Error.NoUnsatisfied Registration

/-- A delivery succeeds, or fails with an error of `Q`. -/
def Delivery.FailsOnly (Q : Error → Prop) : Delivery σ → Prop
  | skip => True
  | fault e => Q e
  | deliver _ calls => ∀ call ∈ calls, ∀ s, Task.FailsOnly Q call s

/-! #### Errors of a delivery -/

theorem Codec.eq_of_deserialize_error {c : Codec α} {label text : String} {e : Error}
    (h : c.deserialize label text = .error e) : e = .serialization label .malformed := by
  unfold deserialize at h
  split at h
  · cases h
  · cases h
    rfl

/-- Bytes without an envelope are no JSON, or no change record. -/
theorem Envelope.eq_of_decode_error {bytes : ByteArray} {e : Error}
    (h : Envelope.decode bytes = .error e) : ∃ typeName fault,
      e = .serialization typeName fault ∧ (fault = .malformed ∨ fault = .noChangeRecord) := by
  unfold Envelope.decode at h
  split at h
  · cases h
    exact ⟨_, _, rfl, .inl rfl⟩
  · split at h
    · cases h
      exact ⟨_, _, rfl, .inr rfl⟩
    · cases h
      exact ⟨_, _, rfl, .inl rfl⟩
    · cases h
    · rename_i row _ _
      rcases hread : Metadata.codec.deserialize row.typeName row.metadata with e' | metadata
      · rw [hread] at h
        cases h
        exact ⟨_, _, Codec.eq_of_deserialize_error hread, .inl rfl⟩
      · rw [hread] at h
        cases h

theorem Registry.eq_of_decode_error {r : Registry D σ} {typeName payload : String} {e : Error}
    (h : r.decode typeName payload = .error e) :
    ∃ typeName, e = .serialization typeName .malformed := by
  unfold Registry.decode at h
  split at h
  · rename_i t _
    rcases hread : (D.eventCodec t).deserialize (D.eventName t) payload with e' | event
    · simp only [AnyEvent.read, hread] at h
      cases h
      exact ⟨_, Codec.eq_of_deserialize_error hread⟩
    · simp only [AnyEvent.read, hread] at h
      cases h
  · cases h

/-- A delivery fails as its calls do, with the event that was decoded. -/
theorem Registry.delivery_failsOnly {r : Registry D σ} {group : String} {Q : Error → Prop}
    (hQ : ∀ e : Error, e.IsCommon → Q e)
    (hcalls : ∀ typeName payload e, r.decode typeName payload = .ok (some e) →
      ∀ h ∈ r.streamHandlers group e.typeName, ∀ info s,
        (callStream e (.forStreamEvent r.dependencies info) h).FailsOnly Q s)
    (record : StreamRecord) : (r.delivery group record).FailsOnly Q := by
  unfold Registry.delivery
  split
  · trivial
  · split
    · rename_i he
      obtain ⟨typeName, fault, rfl, -⟩ := Envelope.eq_of_decode_error he
      exact hQ _ trivial
    · trivial
    · unfold Registry.deliver
      split
      · split
        · rename_i he
          obtain ⟨typeName, rfl⟩ := Registry.eq_of_decode_error he
          exact hQ _ trivial
        · exact hQ _ trivial
        · rename_i event hdecode
          intro call hcall s
          obtain ⟨h, hmem, rfl⟩ := List.mem_map.1 hcall
          exact hcalls _ _ event hdecode h hmem _ s
      · trivial

/-! #### Handlers of a built table -/

section

variable {d : Dependencies D} {calls : List (Registration D σ)}

/-- No input of a handler in a built table is missing when it is called. -/
theorem Registration.resolves_build (Q : Error → Prop) : (build d calls).Resolves Q where
  creation c h hmem ctx e he := by
    rw [(holds_build d calls).dependencies] at he
    have hverified := (holds_build d calls).verified _ (creation_mem_accepted hmem)
    exact Inputs.resolve_of_verifyAll hverified ctx ⟨"", 0, none, default⟩ e he
  mutation c h hmem ctx e he := by
    rw [(holds_build d calls).dependencies] at he
    have hverified := (holds_build d calls).verified _ (mutation_mem_accepted hmem)
    exact Inputs.resolve_of_verifyAll hverified ctx ⟨"", 0, none, default⟩ e he
  domainEvent t h hmem ctx info e he := by
    rw [(holds_build d calls).dependencies] at he
    have hverified := (holds_build d calls).verified _ (domainEvent_mem_accepted hmem)
    exact Inputs.resolve_of_verifyAll hverified ctx info e he

/-- Queries and their handlers have what they need. -/
theorem query_noUnsatisfied (key : String) (input output : D.ValueType) (value : D.Value input)
    (s : σ) :
    (Gateway.query (build d calls) key input output value).FailsOnly Error.NoUnsatisfied s := by
  unfold Gateway.query Registry.dispatchQuery
  split
  · exact failsOnly_throw (fun _ => nofun) s
  · rename_i h hget
    have hverified := (holds_build d calls).verified _ ((holds_build d calls).queries key h hget)
    -- a query that is known under other types fails for that reason
    split
    · split
      · refine failsOnly_callWith of_isCommon (fun e he => ?_) _ s
        rw [(holds_build d calls).dependencies] at he
        exact Inputs.resolve_of_verifyAll hverified ⟨0⟩ ⟨"", 0, none, default⟩ e he
      · exact failsOnly_throw (fun _ => nofun) s
    · exact failsOnly_throw (fun _ => nofun) s

/-- Likewise for what comes from the stream. -/
theorem delivery_noUnsatisfied (group : String) (record : StreamRecord) :
    ((build d calls).delivery group record).FailsOnly Error.NoUnsatisfied := by
  refine Registry.delivery_failsOnly of_isCommon (fun _ _ event _ h hmem info s => ?_) record
  unfold Registry.callStream
  split
  · refine failsOnly_callWith of_isCommon (fun e he => ?_) _ s
    have hverified := (holds_build d calls).verified _ (streamEvent_mem_accepted hmem)
    rw [(holds_build d calls).dependencies] at he
    exact Inputs.resolve_of_verifyAll hverified ⟨0⟩ info e he
  · exact failsOnly_throw (fun _ => nofun) s

end

/-- **Verified inputs are there.**  For any shared values, scope and list of side
inputs, verification accepts the list exactly if all of it is found in the context
that the engine makes for a call of that scope; if not, both are refused at the same
input, which is the cause of both errors.  So with a table built by any calls, no
command, no query and no delivery from the stream fails because an input is
missing. -/
theorem Registration.verified_inputs_found (d : Dependencies D)
    (calls : List (Registration D (Session R W))) :
    (∀ scope ctx info inputs,
      (SideInput.verifyAll d scope inputs = .ok () ↔
        ∃ values, Inputs.resolve (.forScope d ctx info scope) inputs = .ok values) ∧
      Inputs.Verdict d scope (.forScope d ctx info scope) inputs) ∧
    (∀ ctx metadata c command seconds s,
      (Gateway.send (build d calls) ctx metadata c command seconds).FailsOnly
        Error.NoUnsatisfied s) ∧
    (∀ key input output value s,
      (Gateway.query (build d calls) key input output value).FailsOnly Error.NoUnsatisfied s) ∧
    ∀ group record, ((build d calls).delivery group record).FailsOnly Error.NoUnsatisfied := by
  refine ⟨?_, ?_, query_noUnsatisfied, delivery_noUnsatisfied⟩
  · intro scope ctx info inputs
    exact ⟨Inputs.verifyAll_iff d ctx info scope inputs, Inputs.verdict d ctx info scope inputs⟩
  · intro ctx metadata c command seconds s
    apply Gateway.failsOnly_send of_isCommon
    intro id _
    exact Gateway.failsOnly_process of_isCommon (fun _ _ _ => nofun) (resolves_build _) id c command _

end Chronicle
