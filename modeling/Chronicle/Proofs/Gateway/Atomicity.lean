/-
Chronicle/Proofs/Gateway/Atomicity.lean

A command stores everything or nothing.

Main result: when a command fails, or emits no event, the store is exactly what
it was, with all tables and the numbers they give next, whatever its handlers
wrote before; whoever has a unit of work open keeps it, and the critical sections
are occupied as before (`send_all_or_nothing`).
-/
import Chronicle.Bench.Vocabulary
import Chronicle.Proofs.Driver.Confined
import Chronicle.Proofs.Gateway.Outcome

namespace Chronicle.Gateway

variable {D : Domain} {R W : Type}

open Session

/-! ### Receipts -/

variable {r : Registry D (Session R W)} {ctx : ExecutionContext} {metadata : Metadata}

/-- Every event that was applied is in the list of those appended, in order. -/
theorem names_applyEvents {globalId : Int} {a : D.AggregateType} {events : List (AnyEvent D)}
    {state state' : D.State a} {appended : List (String × Int)} {s s' : Session R W}
    (h : (applyEvents r ctx metadata globalId state events).run s = (.ok (state', appended), s')) :
    appended.map Prod.fst = events.map AnyEvent.typeName := by
  induction events generalizing state appended s with
  | nil =>
    cases h
    rfl
  | cons e es ih =>
    obtain ⟨⟨next, sequence⟩, s₁, -, h⟩ := Task.bind_eq_ok.1 h
    obtain ⟨⟨last, rest⟩, s₂, hrest, h⟩ := Task.bind_eq_ok.1 h
    cases h
    rw [List.map_cons, List.map_cons, ih hrest]

/-- The receipt of stored events names all of them. -/
theorem names_store {a : D.AggregateType} {snapshot : Snapshot D a} {state : D.State a}
    {events : List (AnyEvent D)} {receipt : Receipt} {s s' : Session R W}
    (h : (store r ctx metadata snapshot state events).run s = (.ok receipt, s')) :
    receipt.events.map Prod.fst = events.map AnyEvent.typeName := by
  obtain ⟨globalId, s₁, -, h⟩ := Task.bind_eq_ok.1 h
  obtain ⟨⟨final, appended⟩, s₂, happlied, h⟩ := Task.bind_eq_ok.1 h
  obtain ⟨_, s₃, -, h⟩ := Task.bind_eq_ok.1 h
  cases h
  exact names_applyEvents happlied

/-- Work that emits no event has written nothing, if command handlers do not. -/
theorem process_of_events_nil (hr : r.Confined Eq fun _ _ => True) {id : Uuid}
    {c : D.CommandType} {command : D.Command c} {receipt : Receipt} {s s' : Session R W}
    (h : (process r ctx metadata id c command).run s = (.ok receipt, s'))
    (hnone : receipt.events = []) : s.Inside Eq s' := by
  have htrans : ∀ ⦃a b c : Database R⦄, a = b → b = c → a = c := fun _ _ _ => Eq.trans
  obtain ⟨snapshot, s₁, hload, h⟩ := Task.bind_eq_ok.1 h
  obtain ⟨⟨state, buffer⟩, s₂, hcommand, h⟩ := Task.bind_eq_ok.1 h
  have hloaded : s.Inside Eq s₁ := (loadOrFresh_inside Eq.refl htrans ctx _ id).run hload
  have hcalled : s₁.Inside Eq s₂ :=
    (r.dispatchCommand_inside hr Eq.refl htrans c snapshot.state command _).run hcommand
  dsimp only at h
  split at h
  · cases h
    exact hloaded.trans htrans hcalled
  · rename_i hsome
    have hnames := names_store h
    rw [hnone] at hnames
    have hempty : buffer.events = [] := List.map_eq_nil_iff.1 hnames.symm
    rw [EventBuffer.isEmpty, hempty] at hsome
    exact absurd rfl hsome

/-! ### All or nothing -/

/-- **All or nothing.**  Let command handlers leave the database as it is, and
domain event handlers keep to the unit of work they find.  Then a command that
fails, or succeeds without an event, leaves the store as it was.  It does not
leave a unit of work open, nor take part in one that is, and leaves the critical
sections as they were. -/
theorem send_all_or_nothing (r : Registry D (Session R W)) (hr : r.Confined Eq fun _ _ => True)
    (ctx : ExecutionContext) (metadata : Metadata) (c : D.CommandType) (command : D.Command c)
    (seconds : Float) (s : Session R W) (hs : s.sections.Reachable) :
    let answer := ((send r ctx metadata c command seconds).run s).1
    let s' := ((send r ctx metadata c command seconds).run s).2
    ((∀ receipt, answer = .ok receipt → receipt.events = []) → s'.store = s.store) ∧
      (s.store.isActive ctx → answer = .error .unitOfWorkActive ∧ s'.store = s.store) ∧
      s'.store.unit = s.store.unit ∧ s.sections.SameOccupants s'.sections := by
  have hany : r.Confined (fun _ _ => True) fun _ _ => True :=
    hr.mono (fun _ _ _ => trivial) fun _ _ h => h
  have hsections :=
    sections_send Database.admits_true hany ctx metadata c command seconds hs.wellFormed
  have hend := send_ending Database.admits_true hany ctx metadata c command seconds s
  rcases hsend : (send r ctx metadata c command seconds).run s with ⟨answer, s'⟩
  rw [hsend] at hsections hend
  dsimp only at hsections hend ⊢
  generalize hstore : s'.store = store' at hend ⊢
  cases hend with
  | active hunit => exact ⟨fun _ => rfl, fun _ => ⟨rfl, rfl⟩, rfl, hsections⟩
  | failed e hactive =>
    refine ⟨fun _ => rfl, fun h => ?_, rfl, hsections⟩
    rw [hactive] at h
    cases h
  | @committed id receipt s₁ db hunit htarget hrun hs₁ hdb =>
    refine ⟨fun hnone => ?_, fun h => ?_, hunit.symm, hsections⟩
    · -- what is committed is what the work was given
      have hinside := process_of_events_nil hr hrun (hnone receipt rfl)
      obtain ⟨db', hdb', hs₁'⟩ := hinside.store ctx s.store.committed rfl
      rw [hs₁] at hs₁'
      cases hs₁'
      rw [← hdb']
      show (⟨s.store.committed, none⟩ : Store R) = s.store
      rw [← hunit]
    · obtain ⟨db', hdb'⟩ := Store.isActive_iff.1 h
      rw [hunit] at hdb'
      cases hdb'

/-- A driver whose view is there already cannot be registered: the view is refused
when the empty snapshot has been inserted, and all is as it was. -/
theorem send_register_twice :
    let r : Registry Bench.domain (Driver.Scene Unit) := Driver.registry Driver.newYear
    let s := Driver.sessionOf [⟨Uuid.zero, "Ada", Driver.newYear⟩]
    let result := (send r ⟨0⟩ Dictionary.empty .register Driver.registerAda 0).run s
    result.1.toOption = none ∧ result.2.store = s.store := by
  intro r s result
  have hr : r.Confined Eq fun _ _ => True :=
    (Driver.confined_registry Driver.newYear).mono (fun _ _ h => h) fun _ _ _ => trivial
  have hanswer : result.1.toOption = none := rfl
  have hstore := (send_all_or_nothing r hr ⟨0⟩ Dictionary.empty .register Driver.registerAda 0 s
    .empty).1
  refine ⟨hanswer, hstore fun receipt hok => ?_⟩
  rw [show result.1 = .ok receipt from hok] at hanswer
  cases hanswer

end Chronicle.Gateway
