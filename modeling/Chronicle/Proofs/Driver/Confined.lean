/-
Chronicle/Proofs/Driver/Confined.lean

The handlers of drivers keep to the unit of work of their command: those of
commands write nothing at all, and those of domain events write the read model.
Those of stream events do nothing.  None of them knows more of a session than the
store.
-/
import Chronicle.Driver.Handlers
import Chronicle.Proofs.Gateway.Local

namespace Chronicle.Driver

variable {O : Domain} {W : Type}

open Session Database

/-- A rule is checked without a look at the state. -/
theorem ofRule_respects {α : Type} (answer : Except Fault α) :
    (ofRule answer : Work (Scene W) α).Respects (Inside Eq) := by
  rcases answer with fault | a
  · exact Work.respects_throw (.refl Eq.refl) _
  · exact Work.respects_pure (.refl Eq.refl) _

/-- The tables of the engine are not part of the read model. -/
theorem ReadModel.sameTables_insert {view : DriverView} {db db' : Database ReadModel}
    {a : Unit} (h : ReadModel.insert view db = .ok (a, db')) : db.SameTables db' := by
  unfold ReadModel.insert at h
  rcases htable : ReadModel.table db with fault | t
  · rw [htable] at h
    cases h
  · rw [htable] at h
    simp only [bind, Except.bind] at h
    split at h
    · cases h
    · cases h
      exact ⟨rfl, rfl⟩

theorem ReadModel.sameTables_amend {id : Uuid} {name : String} {db db' : Database ReadModel}
    {changed : Nat} (h : ReadModel.amend id name db = .ok (changed, db')) : db.SameTables db' := by
  unfold ReadModel.amend at h
  rcases htable : ReadModel.table db with fault | t
  · rw [htable] at h
    cases h
  · rw [htable] at h
    cases h
    exact ⟨rfl, rfl⟩

/-- The handlers of drivers are confined. -/
theorem confined_registrations (today : Date) :
    ∀ call ∈ (registrations today : List (Registration (beside O) (Scene W))),
      call.Confined Eq SameTables := by
  have htrans : ∀ {a b c : Scene W}, a.Inside Eq b → b.Inside Eq c → a.Inside Eq c :=
    Inside.trans (ρ := Eq) fun _ _ _ => Eq.trans
  have htrans' : ∀ {a b c : Scene W},
      a.Inside SameTables b → b.Inside SameTables c → a.Inside SameTables c :=
    Inside.trans (ρ := SameTables) fun _ _ _ => SameTables.trans
  intro call hcall
  simp only [registrations, List.mem_cons, List.not_mem_nil, or_false] at hcall
  rcases hcall with rfl | rfl | rfl | rfl | rfl | rfl | rfl | rfl | rfl | rfl
  · intro _ command
    exact (ofRule_respects (register today command)).bind @htrans fun _ =>
      Work.respects_pure (.refl Eq.refl) _
  · intro _ d command
    exact (ofRule_respects (amendName d command)).bind @htrans fun _ =>
      Work.respects_pure (.refl Eq.refl) _
  · trivial
  · trivial
  · rintro ⟨ctx, _⟩ e
    exact write_respects SameTables.refl ctx fun _ _ _ => ReadModel.sameTables_insert
  · rintro ⟨ctx, _⟩ e
    refine (write_respects SameTables.refl ctx fun _ _ _ => ReadModel.sameTables_amend).bind
      @htrans' fun changed => ?_
    split
    · exact Work.respects_throw (.refl SameTables.refl) _
    · exact Work.respects_pure (.refl SameTables.refl) _
  · trivial
  · trivial
  · trivial
  · trivial

/-- The table of all handlers of drivers. -/
def registry (today : Date) : Registry (beside O) (Scene W) :=
  Registration.build Dependencies.empty (registrations today)

theorem confined_registry (today : Date) :
    (registry today : Registry (beside O) (Scene W)).Confined Eq SameTables :=
  Registration.confined_build (confined_registrations today)

theorem local_ofRule {α : Type} (answer : Except Fault α) :
    Local (ofRule answer : Work (Scene W) α).run := by
  rcases answer with fault | a
  · exact local_pure _
  · exact local_pure _

/-- The handlers of drivers are local. -/
theorem local_registry (today : Date) :
    (registry today : Registry (beside O) (Scene W)).Local := by
  refine Registration.local_build fun call hcall => ?_
  simp only [registrations, List.mem_cons, List.not_mem_nil, or_false] at hcall
  rcases hcall with rfl | rfl | rfl | rfl | rfl | rfl | rfl | rfl | rfl | rfl
  · intro _ command
    exact local_seq (local_ofRule (register today command)) fun _ => local_pure _
  · intro _ d command
    exact local_seq (local_ofRule (amendName d command)) fun _ => local_pure _
  · trivial
  · trivial
  · rintro ⟨ctx, _⟩ e
    exact local_write ctx _
  · rintro ⟨ctx, _⟩ e
    refine local_seq (local_write ctx _) fun changed => ?_
    split
    · exact local_pure _
    · exact local_pure _
  · trivial
  · trivial
  · trivial
  · trivial

/-- The stream handlers of drivers leave everything as it is, and no other group has any. -/
theorem groupHandlers_respect (today : Date) {Q : Scene W → Scene W → Prop}
    (hrefl : ∀ s, Q s s) (group typeName : String) :
    ∀ h ∈ (registry today : Registry (beside O) (Scene W)).streamHandlers group typeName,
      ∀ values event, (h.2.run values event).Respects Q := by
  rintro ⟨e, h⟩ hmem values event
  have hcall := Registration.mem_of_mem_accepted (Registration.streamEvent_mem_accepted hmem)
  simp only [registrations, List.mem_cons, List.not_mem_nil, or_false] at hcall
  rcases hcall with h | h | h | h | h | h | h | h | h | h
  -- only the last two calls add stream handlers
  all_goals cases h
  · exact Work.respects_pure hrefl _
  · exact Work.respects_pure hrefl _

theorem streamHandlers_respect (today : Date) {Q : Scene W → Scene W → Prop}
    (hrefl : ∀ s, Q s s) (typeName : String) :
    ∀ h ∈ (registry today : Registry (beside O) (Scene W)).streamHandlers groupName typeName,
      ∀ values event, (h.2.run values event).Respects Q :=
  groupHandlers_respect today hrefl groupName typeName

theorem streamHandlers_keep_world (today : Date) (typeName : String) :
    ∀ h ∈ (registry today : Registry (beside O) (Scene W)).streamHandlers groupName typeName,
      ∀ values event, (h.2.run values event).Respects fun s s' => s'.world = s.world :=
  streamHandlers_respect today (Q := fun s s' => s'.world = s.world) (fun _ => rfl) typeName

/-! ### A registration -/

/-- The first day of the year 2000. -/
def newYear : Date := ⟨2000, 1, 1, by decide, by decide, by decide⟩

/-- The command to register a driver who is born on that day. -/
def registerAda : RegisterDriver := ⟨Uuid.zero, "Ada", newYear⟩

/-- A session of drivers with given views. -/
def sessionOf (views : List DriverView) : Scene Unit :=
  Session.start ⟨some Table.empty, some Table.empty, some (views.foldl Table.insert Table.empty)⟩ ()

end Chronicle.Driver
