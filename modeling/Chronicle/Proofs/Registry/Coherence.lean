/-
Chronicle/Proofs/Registry/Coherence.lean

Events that are read from the store suit the handlers that they are passed to.

State and domain event handlers are found by the type of an event, but stream
event handlers and decoders by its name, and two types may share a name.  A table
built by calls is coherent (`Registration.coherent_build`), because a call that
would bring a second type under a name is refused.  So for an event that was
decoded, to search by name and to search by type is the same.

Handlers are called here with a check of the type (`Registry.callStream`) wherever
they come from.  The check never fails for a decoded event, and a name that some
group handles always has a decoder.
-/
import Chronicle.Bench.Handlers
import Chronicle.Proofs.Json.RoundTrip
import Chronicle.Proofs.Registry.Verification

namespace Chronicle

variable {D : Domain} {σ : Type}

open Chronicle.Task

/-- An error that is no definition error. -/
def Error.NoDefinition (e : Error) : Prop := ∀ text, e ≠ .definition text

theorem Error.NoDefinition.of_isCommon (e : Error) (h : e.IsCommon) : e.NoDefinition := by
  rintro text rfl
  exact h

namespace Registry

variable {r : Registry D σ}

/-! ### Decoded events -/

/-- A decoded event is of the type of its decoder. -/
theorem decode_eq_ok {typeName payload : String} {e : AnyEvent D}
    (h : r.decode typeName payload = .ok (some e)) : r.decoders.get? typeName = some e.type := by
  unfold decode at h
  split at h
  · rename_i t ht
    unfold AnyEvent.read at h
    rcases hread : (D.eventCodec t).deserialize (D.eventName t) payload with e' | event
    · rw [hread] at h
      cases h
    · rw [hread] at h
      cases h
      exact ht
  · cases h

/-- An event is of the type of all handlers for its name. -/
structure Suits (r : Registry D σ) (e : AnyEvent D) : Prop where
  states : ∀ h ∈ r.states, D.eventName h.event = e.typeName → h.event = e.type
  domainHandlers : ∀ h ∈ r.domainHandlers, D.eventName h.1 = e.typeName → h.1 = e.type
  groupHandlers : ∀ group, ∀ h ∈ r.groupHandlers group,
    D.eventName h.1 = e.typeName → h.1 = e.type

theorem Coherent.suits (hr : r.Coherent) {e : AnyEvent D}
    (he : r.decoders.get? e.typeName = some e.type) : r.Suits e where
  states h hh hname := by
    have hdecoder := hr.states h hh
    rw [hname, he] at hdecoder
    exact (Option.some.inj hdecoder).symm
  domainHandlers h hh hname := by
    have hdecoder := hr.domainHandlers h hh
    rw [hname, he] at hdecoder
    exact (Option.some.inj hdecoder).symm
  groupHandlers group h hh hname := by
    have hdecoder := hr.groupHandlers group h hh
    rw [hname, he] at hdecoder
    exact (Option.some.inj hdecoder).symm

theorem Coherent.suits_decoded (hr : r.Coherent) {typeName payload : String} {e : AnyEvent D}
    (h : r.decode typeName payload = .ok (some e)) : e.typeName = typeName ∧ r.Suits e := by
  have hdecoder := decode_eq_ok h
  have hname : e.typeName = typeName := hr.names typeName e.type hdecoder
  rw [← hname] at hdecoder
  exact ⟨hname, hr.suits hdecoder⟩

/-- The name of a handler of a group has a decoder. -/
theorem Coherent.decoder_of_handles (hr : r.Coherent) {group typeName : String}
    (h : r.handles group typeName = true) : ∃ t, r.decoders.get? typeName = some t := by
  obtain ⟨x, hx⟩ := handles_iff.1 h
  obtain ⟨hmem, hname⟩ := mem_streamHandlers.1 hx
  exact ⟨x.1, hname ▸ hr.groupHandlers group x hmem⟩

/-! ### Checked calls -/

theorem callStream_of_type {t : D.EventType} {event : D.Event t} {h : EventHandler D σ t}
    (ctx : HandlerContext D) : callStream ⟨t, event⟩ ctx ⟨t, h⟩ = h.call ctx event := by
  unfold callStream
  rw [AnyEvent.as?_self]

/-- The check of a handler for the event's own type succeeds. -/
theorem failsOnly_callStream {e : AnyEvent D} {h : Σ t : D.EventType, EventHandler D σ t}
    (ht : h.1 = e.type) (ctx : HandlerContext D) (s : σ) :
    (callStream e ctx h).FailsOnly Error.NoDefinition s := by
  obtain ⟨t, event⟩ := e
  obtain ⟨t', h⟩ := h
  cases ht
  rw [callStream_of_type]
  refine failsOnly_callWith Error.NoDefinition.of_isCommon (fun e he => ?_) _ s
  obtain ⟨i, -, rfl⟩ := Inputs.eq_of_resolve_error he
  exact nofun

/-- Handlers are called one after the other. -/
theorem callAll_eq_forM {t : D.EventType} (event : D.Event t) (ctx : HandlerContext D)
    (hs : List (EventHandler D σ t)) :
    callAll event ctx hs = (hs.map fun h => h.call ctx event).forM fun call => call := by
  induction hs with
  | nil => rfl
  | cons h hs ih =>
    show (h.call ctx event >>= fun _ => callAll event ctx hs) = _
    rw [ih]
    rfl

/-- The calls of all handlers of a type are checked calls. -/
theorem map_call_select (e : AnyEvent D) (ctx : HandlerContext D)
    (hs : List (Σ t : D.EventType, EventHandler D σ t)) :
    (Tagged.select e.type hs).map (fun h => h.call ctx e.event) =
      (hs.filter fun h => h.1 = e.type).map (callStream e ctx) := by
  obtain ⟨t, event⟩ := e
  induction hs with
  | nil => rfl
  | cons h hs ih =>
    obtain ⟨t', h⟩ := h
    unfold Tagged.select at ih ⊢
    by_cases ht : t' = t
    · subst ht
      rw [List.filter_cons_of_pos (by simp), List.filterMap_cons_some (Tagged.as?_self t' h),
        List.map_cons, List.map_cons, callStream_of_type, ih]
    · rw [List.filter_cons_of_neg (by simpa using ht),
        List.filterMap_cons_none (Tagged.as?_of_ne h ht), ih]

theorem callAll_select (e : AnyEvent D) (ctx : HandlerContext D)
    (hs : List (Σ t : D.EventType, EventHandler D σ t)) :
    callAll e.event ctx (Tagged.select e.type hs) =
      (hs.filter fun h => h.1 = e.type).forM (callStream e ctx) := by
  rw [callAll_eq_forM, map_call_select]
  exact List.forM_map

/-- Handlers that an event suits are found by its name and by its type alike. -/
theorem filter_typeName {e : AnyEvent D} {hs : List (Σ t : D.EventType, EventHandler D σ t)}
    (h : ∀ x ∈ hs, D.eventName x.1 = e.typeName → x.1 = e.type) :
    (hs.filter fun x => D.eventName x.1 == e.typeName) = hs.filter fun x => x.1 = e.type := by
  apply List.filter_congr
  intro x hx
  rw [Bool.eq_iff_iff, decide_eq_true_iff, beq_iff_eq]
  constructor
  · exact h x hx
  · intro ht
    rw [ht]
    rfl

/-! ### Dispatch of events that suit the handlers -/

section

variable {e : AnyEvent D} (he : r.Suits e)

include he

/-- The stream event handlers of a group can be found by type as well. -/
theorem Suits.map_callStream (group : String) (ctx : HandlerContext D) :
    (r.streamHandlers group e.typeName).map (callStream e ctx) =
      (Tagged.select e.type (r.groupHandlers group)).map fun h => h.call ctx e.event := by
  rw [map_call_select, streamHandlers_eq, filter_typeName (he.groupHandlers group)]

theorem Suits.dispatchStream_noDefinition (group : String) (ctx : HandlerContext D) (s : σ) :
    (r.dispatchStream group e ctx).FailsOnly Error.NoDefinition s := by
  refine failsOnly_forM (fun h hh s => ?_) s
  obtain ⟨hmem, hname⟩ := mem_streamHandlers.1 hh
  exact failsOnly_callStream (he.groupHandlers group h hmem hname) ctx s

/-- Domain event handlers can be found by name as well. -/
theorem Suits.dispatchDomain_eq (ctx : HandlerContext D) :
    r.dispatchDomain e ctx =
      (r.domainHandlers.filter fun h => D.eventName h.1 == e.typeName).forM (callStream e ctx) := by
  rw [dispatchDomain, callAll_select, filter_typeName he.domainHandlers]

theorem Suits.dispatchDomain_noDefinition (ctx : HandlerContext D) (s : σ) :
    (r.dispatchDomain e ctx).FailsOnly Error.NoDefinition s := by
  rw [he.dispatchDomain_eq]
  refine failsOnly_forM (fun h hh s => ?_) s
  obtain ⟨hmem, hname⟩ := List.mem_filter.1 hh
  exact failsOnly_callStream (he.domainHandlers h hmem (beq_iff_eq.1 hname)) ctx s

/-- A state handler for the aggregate and the name can be applied. -/
theorem Suits.dispatchState_eq_ok {a : D.AggregateType} {h : StateHandler D} (hh : h ∈ r.states)
    (ha : h.aggregate = a) (hname : D.eventName h.event = e.typeName) (state : D.State a) :
    ∃ state', r.dispatchState a state e = .ok state' := by
  have ht : h.event = e.type := he.states h hh hname
  -- an earlier handler may fit as well, so this is only to show that some handler does
  have hchange : (stateChange? a e h).isSome = true := by
    obtain ⟨t, event⟩ := e
    obtain ⟨a', t', apply⟩ := h
    cases ha
    cases ht
    unfold stateChange?
    rw [dif_pos rfl, AnyEvent.as?_self]
    rfl
  have hfound : (r.states.findSome? (stateChange? a e)).isSome = true :=
    List.findSome?_isSome_iff.2 ⟨h, hh, hchange⟩
  obtain ⟨change, hfound⟩ := Option.isSome_iff_exists.1 hfound
  refine ⟨change state, ?_⟩
  rw [dispatchState, hfound]

end

/-- Any error in the dispatch of a state is that no handler was found. -/
theorem dispatchState_noDefinition {a : D.AggregateType} {state : D.State a} {event : AnyEvent D}
    {e : Error} (h : r.dispatchState a state event = .error e) : e.NoDefinition :=
  dispatchState_failsOnly Error.NoDefinition.of_isCommon h

/-! ### Deliveries -/

section

variable (hr : r.Coherent)

include hr

theorem Coherent.delivery_noDefinition (group : String) (record : StreamRecord) :
    (r.delivery group record).FailsOnly Error.NoDefinition := by
  apply delivery_failsOnly Error.NoDefinition.of_isCommon
  intro typeName payload e hdecode h hh info s
  obtain ⟨hmem, hname⟩ := mem_streamHandlers.1 hh
  have ht := (hr.suits_decoded hdecode).2.groupHandlers group h hmem hname
  exact failsOnly_callStream ht _ s

/-- A record for a group never lacks a decoder. -/
theorem Coherent.delivery_ne_noDecoder (group : String) (record : StreamRecord)
    (typeName : String) :
    r.delivery group record ≠ .fault (.serialization typeName .noDecoder) := by
  unfold delivery
  split
  · exact nofun
  · split
    · rename_i hdecode
      obtain ⟨_, fault, rfl, hfault⟩ := Envelope.eq_of_decode_error hdecode
      rintro ⟨⟩
      rcases hfault with hfault | hfault <;> cases hfault
    · exact nofun
    · rename_i env _
      unfold deliver
      split
      · rename_i hhandles
        obtain ⟨t, ht⟩ := hr.decoder_of_handles hhandles
        split
        · rename_i hdecode
          obtain ⟨_, rfl⟩ := eq_of_decode_error hdecode
          exact nofun
        · -- without a decoder the group would not handle the name
          rename_i hdecode
          unfold decode at hdecode
          rw [ht] at hdecode
          rcases hread : AnyEvent.read t env.payload with e' | event
          · simp only [hread] at hdecode
            cases hdecode
          · simp only [hread] at hdecode
            cases hdecode
        · exact nofun
      · exact nofun

end

end Registry

/-- **Coherence.**  Take a table built by any calls, some of which may have failed.
Every name that a group handles has a decoder.  An event that is decoded has the
name that was asked for, and it is of the type of every state, domain event and
stream event handler for that name.  So no dispatch of it ends in a definition
error: the checked calls of stream handlers do not, those of domain event handlers,
found by type or by name, do not, and a state handler for its name can be applied.
And no record is refused by a group because a decoder is missing. -/
theorem Registration.decoded_events_suit (d : Dependencies D) (calls : List (Registration D σ))
    (r : Registry D σ) (hr : r = build d calls) :
    (∀ group typeName, r.handles group typeName = true →
      ∃ t, r.decoders.get? typeName = some t) ∧
    (∀ typeName payload e, r.decode typeName payload = .ok (some e) →
      e.typeName = typeName ∧
      (∀ h ∈ r.states, D.eventName h.event = typeName → h.event = e.type) ∧
      (∀ h ∈ r.domainHandlers, D.eventName h.1 = typeName → h.1 = e.type) ∧
      (∀ group, ∀ h ∈ r.streamHandlers group typeName, h.1 = e.type) ∧
      (∀ group ctx s, (r.dispatchStream group e ctx).FailsOnly Error.NoDefinition s) ∧
      (∀ ctx s, (r.dispatchDomain e ctx).FailsOnly Error.NoDefinition s ∧
        r.dispatchDomain e ctx =
          (r.domainHandlers.filter fun h => D.eventName h.1 == typeName).forM
            (Registry.callStream e ctx)) ∧
      ∀ a state, (∀ e', r.dispatchState a state e = .error e' → e'.NoDefinition) ∧
        ∀ h ∈ r.states, h.aggregate = a → D.eventName h.event = typeName →
          ∃ state', r.dispatchState a state e = .ok state') ∧
    ∀ group record, (r.delivery group record).FailsOnly Error.NoDefinition ∧
      ∀ typeName, r.delivery group record ≠ .fault (.serialization typeName .noDecoder) := by
  have hcoherent : r.Coherent := hr ▸ coherent_build d calls
  refine ⟨fun group typeName => hcoherent.decoder_of_handles, ?_, fun group record =>
    ⟨hcoherent.delivery_noDefinition group record, hcoherent.delivery_ne_noDecoder group record⟩⟩
  intro typeName payload e hdecode
  obtain ⟨rfl, hsuits⟩ := hcoherent.suits_decoded hdecode
  refine ⟨rfl, hsuits.states, hsuits.domainHandlers, ?_, hsuits.dispatchStream_noDefinition, ?_, ?_⟩
  · intro group h hh
    obtain ⟨hmem, hname⟩ := Registry.mem_streamHandlers.1 hh
    exact hsuits.groupHandlers group h hmem hname
  · intro ctx s
    exact ⟨hsuits.dispatchDomain_noDefinition ctx s, hsuits.dispatchDomain_eq ctx⟩
  · intro a state
    exact ⟨fun _ => Registry.dispatchState_noDefinition, fun h hh ha hname =>
      hsuits.dispatchState_eq_ok hh ha hname state⟩

/-! ### Two types of one name -/

/-- The state handler for amounts that are added to a counter. -/
def Bench.addedState : StateHandler Bench.domain :=
  Bench.counterState .added fun c (e : Bench.Added) => { c with value := c.value + e.amount }

/-- Calls that would bring two types under the name `Added`. -/
def Bench.twinCalls : List (Registration Bench.domain (Driver.Scene Unit)) :=
  [.streamEvent "audit" (.other .added) (Driver.noteEvent _),
   .domainEvent (.other .twin) (Driver.noteEvent _),
   .streamEvent "audit" (.other .twin) (Driver.noteEvent _),
   .domainEvent (.other .added) (Driver.noteEvent _),
   .state Bench.addedState]

/-- The table that these calls build. -/
def Bench.twinTable : Registry Bench.domain (Driver.Scene Unit) :=
  Registration.build Dependencies.empty Bench.twinCalls

/-- The second type is refused, and an event of the name is of the first one. -/
theorem Registration.decoded_addition_suits :
    (Bench.twinTable.handles "audit" "Added" = true ∧
      ∃ t, Bench.twinTable.decoders.get? "Added" = some t) ∧
    ∃ e : AnyEvent Bench.domain,
      Bench.twinTable.decode "Added" "\x7b\"amount\":7\x7d" = .ok (some e) ∧
      e.typeName = "Added" ∧
      (⟨.other .added, Driver.noteEvent _⟩ ∈ Bench.twinTable.streamHandlers "audit" "Added" ∧
        .other .added = e.type) ∧
      (⟨.other .added, Driver.noteEvent _⟩ ∈ Bench.twinTable.domainHandlers ∧
        .other .added = e.type) ∧
      (Bench.twinTable.dispatchStream "audit" e (.bare Dependencies.empty)).FailsOnly
        Error.NoDefinition (Session.start (Database.blank none) ()) ∧
      (Bench.addedState ∈ Bench.twinTable.states ∧ .other .added = e.type ∧
        ∃ state, Bench.twinTable.dispatchState (.other .counter) Bench.Counter.zero e =
          .ok state) := by
  obtain ⟨hhandles, hdecoded, -⟩ :=
    decoded_events_suit Dependencies.empty Bench.twinCalls Bench.twinTable rfl
  have hdecode : Bench.twinTable.decode "Added" "\x7b\"amount\":7\x7d" =
      .ok (some (Bench.event .added (Bench.Added.mk 7))) := by
    have hknown : Bench.twinTable.decoders.get? "Added" = some (.other .added) := rfl
    have htext : "\x7b\"amount\":7\x7d" = (Json.Tree.ofMembers [("amount", .int 7)]).render := by
      decide +kernel
    unfold Registry.decode
    rw [hknown, htext]
    dsimp only
    unfold AnyEvent.read
    rw [Codec.deserialize_render]
    rfl
  obtain ⟨hname, hstates, hdomain, hstream, hdispatch, -, hstate⟩ := hdecoded _ _ _ hdecode
  have haudit : Bench.twinTable.streamHandlers "audit" "Added" =
      [⟨.other .added, Driver.noteEvent _⟩] := rfl
  have hmem : ⟨.other .added, Driver.noteEvent _⟩ ∈
      Bench.twinTable.streamHandlers "audit" "Added" := haudit ▸ List.mem_cons_self
  have honly : Bench.twinTable.domainHandlers = [⟨.other .added, Driver.noteEvent _⟩] := rfl
  have hmem' : ⟨.other .added, Driver.noteEvent _⟩ ∈ Bench.twinTable.domainHandlers :=
    honly ▸ List.mem_cons_self
  have hadds : Bench.twinTable.states = [Bench.addedState] := rfl
  have hmem'' : Bench.addedState ∈ Bench.twinTable.states := hadds ▸ List.mem_cons_self
  have hadded : Bench.twinTable.handles "audit" "Added" = true := rfl
  refine ⟨⟨hadded, hhandles _ _ hadded⟩, _, hdecode, hname, ⟨hmem, hstream _ _ hmem⟩,
    ⟨hmem', hdomain _ hmem' rfl⟩, hdispatch _ _ _, hmem'', hstates _ hmem'' rfl, ?_⟩
  exact (hstate (.other .counter) Bench.Counter.zero).2 _ hmem'' rfl rfl

end Chronicle
