/-
Chronicle/Proofs/Gateway/Conflict.lean

A command that has the store to itself does not conflict.

A save conflicts in two cases: the row of its snapshot has another sequence than
when it was loaded, or a row for a fresh snapshot is there already.  Inside a unit
of work that the handlers leave the engine's tables of, neither can happen: what
was loaded at its begin is still there at its end (`Snapshot.UpToDate`).

No other part of a command has conflicts of its own, as `Error.IsCommon` does not
cover them, so that the two saves are all there is to look at.

Main result: `Gateway.send_undisputed`.
-/
import Chronicle.Proofs.Gateway.Effect
import Chronicle.Proofs.Gateway.Failure

namespace Chronicle

variable {D : Domain} {R W σ α : Type}

open Session Database

/-! ### Runs without a conflict -/

/-- The run of a task from a state does not end in a conflict. -/
def Task.Undisputed (t : Task σ α) (s : σ) : Prop :=
  ∀ id expected, (t.run s).1 ≠ .error (.conflict id expected)

/-- An error that is no conflict. -/
def Error.NoConflict (e : Error) : Prop := ∀ id expected, e ≠ .conflict id expected

theorem Error.NoConflict.of_isCommon (e : Error) (h : e.IsCommon) : e.NoConflict := by
  rintro id expected rfl
  exact h

open Chronicle.Task Error.NoConflict

theorem Registry.resolves_noConflict (r : Registry D σ) : r.Resolves Error.NoConflict :=
  r.resolves_of_unsatisfied fun _ => nofun

/-! ### Saves -/

/-- What a snapshot says about its row is true: the row has the sequence that was
loaded, or there is no row yet. -/
inductive Snapshot.UpToDate (db : Database R) {a : D.AggregateType} (s : Snapshot D a) : Prop
  | stored {globalId : Int} {row : AggregateRow} : s.globalId = some globalId →
      (globalId, row) ∈ db.snapshots.rows → row.sequence = s.initialSequence → s.UpToDate db
  | absent : s.globalId = none → (∀ r ∈ db.snapshots.rows, r.2.identifier ≠ s.businessId) →
      s.UpToDate db

/-- A save of a snapshot that is up to date does not conflict. -/
theorem Store.save_noConflict {ctx : ExecutionContext} {a : D.AggregateType}
    {snapshot : Snapshot D a} {s : Store R}
    (h : ∀ db, s.unit = some ⟨ctx, db⟩ → snapshot.UpToDate db) :
    (save ctx snapshot).FailsOnly Error.NoConflict s := by
  refine (failsOnly_ofExcept (fun _ => Codec.serialize_failsOnly of_isCommon) s).bind
    fun text s' htext => ?_
  rw [Task.run_ofExcept] at htext
  obtain ⟨-, rfl⟩ := Prod.mk.inj htext
  split
  · rename_i globalId hid
    refine (failsOnly_statement of_isCommon ctx _ s).bind fun swapped s' hstatement => ?_
    obtain ⟨db, db', hu, hswap, rfl⟩ := statement_eq_ok.1 hstatement
    obtain ⟨t, ht, hswapped, -⟩ := swapAggregate_eq_ok.1 hswap
    -- the row is there with the sequence that the save expects
    have hmet : swapped = true := by
      cases h db hu with
      | stored hid' hrow hsequence =>
        rw [hid] at hid'
        cases hid'
        rw [snapshots_of_some ht] at hrow
        exact hswapped.2 ⟨_, hrow, hsequence⟩
      | absent hid' =>
        rw [hid] at hid'
        cases hid'
    rw [if_pos hmet]
    exact failsOnly_pure _ _
  · rename_i hid
    refine (failsOnly_current of_isCommon ctx s).bind fun db s' hcurrent => ?_
    obtain ⟨hu, rfl⟩ := current_eq_ok.1 hcurrent
    split
    · exact nofun
    · -- no row has the id, so that none can be inserted twice
      rename_i column hinsert
      rcases ht : db.aggregates with _ | t
      · simp [insertAggregate, aggregateTable, ht, bind, Except.bind] at hinsert
      · simp only [insertAggregate, aggregateTable, ht, bind, Except.bind] at hinsert
        split at hinsert
        · rename_i hsome
          cases h db hu with
          | stored hid' =>
            rw [hid] at hid'
            cases hid'
          | absent _ habsent =>
            rw [snapshots_of_some ht] at habsent
            have htaken : ∃ r ∈ t.rows, r.2.identifier = snapshot.businessId := by
              simpa [Table.find?] using hsome
            obtain ⟨r, hr, hrId⟩ := htaken
            exact absurd hrId (habsent r hr)
        · cases hinsert
    · exact failsOnly_throw (of_isCommon (.database _) trivial) s'

/-! ### Commands -/

namespace Gateway

variable {r : Registry D (Session R W)} {ctx : ExecutionContext} {metadata : Metadata}

/-- What is loaded is up to date until it is saved. -/
theorem store_noConflict {ρ : Database R → Database R → Prop} (hr : r.Confined ρ SameTables)
    {a : D.AggregateType} {id : Uuid} {snapshot : Snapshot D a} {s : Session R W}
    {db : Database R} (hu : s.store.unit = some ⟨ctx, db⟩) (hdb : db.Sound)
    (hloaded : Loaded db a id snapshot) (state : D.State a) (events : List (AnyEvent D)) :
    (store r ctx metadata snapshot state events).FailsOnly Error.NoConflict s := by
  have hensure : (ensureRow ctx snapshot).FailsOnly Error.NoConflict s := by
    unfold ensureRow
    split
    · exact failsOnly_pure _ s
    · rename_i hid
      refine (Store.save_noConflict fun db' hu' => ?_).onStore
      rw [hu] at hu'
      cases hu'
      obtain ⟨rfl, habsent⟩ := hloaded.absent hid
      exact .absent rfl habsent
  refine hensure.bind fun globalId s₁ hrow => ?_
  obtain ⟨db₁, hu₁, -, -, -, ⟨row, hmem, -, -, hsequence⟩, -⟩ := ensureRow_eq_ok hu hdb hloaded hrow
  refine (failsOnly_applyEvents of_isCommon r.resolves_noConflict globalId state events s₁).bind
    fun result s₂ hevents => ?_
  obtain ⟨-, rows, db₂, -, -, hu₂, hsnapshots, -⟩ := applyEvents_eq_ok hr hu₁ hevents
  have hsave : (Store.save ctx (((snapshot.savedAs globalId).withState (some result.1)).advanceTo
      (lastSequence snapshot.sequence result.2))).FailsOnly Error.NoConflict s₂.store := by
    refine Store.save_noConflict fun db' hu' => ?_
    rw [hu₂] at hu'
    cases hu'
    exact .stored rfl (hsnapshots ▸ hmem) hsequence
  exact hsave.onStore.bind fun _ s₃ _ => failsOnly_pure _ s₃

variable (hr : r.Confined SameTables SameTables)

include hr

theorem process_noConflict {id : Uuid} {c : D.CommandType} {command : D.Command c}
    {s : Session R W} {db : Database R} (hu : s.store.unit = some ⟨ctx, db⟩) (hdb : db.Sound) :
    (process r ctx metadata id c command).FailsOnly Error.NoConflict s := by
  refine (failsOnly_loadOrFresh of_isCommon ctx _ id s).bind fun snapshot s₁ hload => ?_
  obtain ⟨rfl, db₀, hu₀, hloaded⟩ := loadOrFresh_eq_ok hload
  rw [hu] at hu₀
  cases hu₀
  refine (Registry.failsOnly_dispatchCommand of_isCommon r.resolves_noConflict c snapshot.state
    command ctx s₁).bind fun result s₂ hcommand => ?_
  have hinside : s₁.Inside SameTables s₂ :=
    (r.dispatchCommand_inside hr SameTables.refl (fun _ _ _ => SameTables.trans) c snapshot.state
      command _).run hcommand
  obtain ⟨db₁, hsame, hu₁⟩ := hinside.unit hu
  dsimp only
  split
  · exact failsOnly_pure _ s₂
  · exact store_noConflict hr hu₁ (hsame.sound hdb) (hloaded.congr hsame) _ _

/-- **No conflict.**  Let the handlers of commands and domain events leave the
tables of the engine alone.  Then a command that has the store to itself, as its
unit of work gives it, is never told that somebody else has changed its aggregate. -/
theorem send_undisputed {c : D.CommandType} {command : D.Command c} {seconds : Float}
    {s : Session R W} (hs : s.store.committed.Sound) :
    (send r ctx metadata c command seconds).Undisputed s := by
  intro id expected he
  have hsend : (send r ctx metadata c command seconds).FailsOnly Error.NoConflict s :=
    failsOnly_send of_isCommon fun id _ => process_noConflict hr (s := begun s id ctx) rfl hs
  exact hsend _ he id expected rfl

end Gateway

end Chronicle
