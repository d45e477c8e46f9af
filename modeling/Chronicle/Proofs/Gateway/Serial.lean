/-
Chronicle/Proofs/Gateway/Serial.lean

Commands for one id come one after the other.

Commands for one aggregate are sent at the same time.  Each has to hold the
section of the id from the begin of its unit of work to the end, so that no two of
them are in units of work at once.  `Crowd.Serial` is what this means for a crowd
at any moment: as long as nobody is in the section, store and world are what the
commands that have been in it make of them one after the other, and whoever is in
the section will make that of them with what it has left to do.

The work of commands must not depend on the sections and the metrics, which the
others go on to change (`Registry.Local`).

Main result: `Crowd.one_after_the_other`.
-/
import Chronicle.Bench.Vocabulary
import Chronicle.Proofs.CriticalSection.Visitors
import Chronicle.Proofs.Gateway.Conflict
import Chronicle.Proofs.Gateway.Crowd

namespace Chronicle.Gateway

variable {D : Domain} {R W : Type} {ι : Type}

open Session Database

/-! ### One after the other -/

/-- The answers of commands that are sent one after the other. -/
def answers (r : Registry D (Session R W)) (s : Session R W) :
    List (Sending D) → List (Except Error Receipt)
  | [] => []
  | x :: xs =>
    let (answer, s) := (send r x.ctx x.metadata x.type x.command x.seconds).run s
    answer :: answers r s xs

section

variable {r : Registry D (Session R W)} {s : Session R W}

theorem after_concat (xs : List (Sending D)) (x : Sending D) :
    after r s (xs ++ [x]) =
      ((send r x.ctx x.metadata x.type x.command x.seconds).run (after r s xs)).2 := by
  rw [after, List.foldl_append]
  rfl

theorem answers_concat (xs : List (Sending D)) (x : Sending D) :
    answers r s (xs ++ [x]) = answers r s xs ++
      [((send r x.ctx x.metadata x.type x.command x.seconds).run (after r s xs)).1] := by
  induction xs generalizing s with
  | nil => rfl
  | cons y ys ih => exact congrArg (_ :: ·) ih

theorem length_answers (xs : List (Sending D)) : (answers r s xs).length = xs.length := by
  induction xs generalizing s with
  | nil => rfl
  | cons x xs ih => exact congrArg (· + 1) ih

/-- Commands leave no unit of work open. -/
theorem unit_after {ρ δ : Database R → Database R → Prop} (hr : r.Confined ρ δ)
    (hs : s.store.unit = none) (xs : List (Sending D)) : (after r s xs).store.unit = none := by
  have hany : r.Confined (fun _ _ => True) fun _ _ => True :=
    hr.mono (fun _ _ _ => trivial) fun _ _ _ => trivial
  induction xs using List.reverseRecOn with
  | nil => exact hs
  | append_singleton xs x ih =>
    rw [after_concat]
    have hend := send_ending admits_true hany x.ctx x.metadata x.type x.command x.seconds
      (after r s xs)
    generalize ((send r x.ctx x.metadata x.type x.command x.seconds).run (after r s xs)).1 =
      answer at hend
    generalize ((send r x.ctx x.metadata x.type x.command x.seconds).run (after r s xs)).2.store =
      store at hend ⊢
    cases hend with
    | active => exact ih
    | failed => exact ih
    | committed => rfl

variable (hr : r.Confined SameTables SameTables)

include hr

theorem sound_after (hs : s.store.committed.Sound) (xs : List (Sending D)) :
    (after r s xs).store.committed.Sound := by
  induction xs using List.reverseRecOn with
  | nil => exact hs
  | append_singleton xs x ih =>
    rw [after_concat]
    rcases hsend : (send r x.ctx x.metadata x.type x.command x.seconds).run (after r s xs) with
      ⟨e | receipt, s'⟩
    · rw [store_of_error hr hsend]
      exact ih
    · exact (send_effect hr ih hsend).2.2.1

/-- None of them conflicts. -/
theorem answers_undisputed (hs : s.store.committed.Sound) (xs : List (Sending D)) :
    ∀ answer ∈ answers r s xs, ∀ id expected, answer ≠ .error (.conflict id expected) := by
  induction xs using List.reverseRecOn with
  | nil => nofun
  | append_singleton xs x ih =>
    intro answer hanswer
    rw [answers_concat] at hanswer
    rcases List.mem_append.1 hanswer with hanswer | hanswer
    · exact ih answer hanswer
    · rw [List.mem_singleton.1 hanswer]
      exact send_undisputed hr (sound_after hr hs xs)

end

/-! ### What stages say -/

namespace Stage

variable {a : D.AggregateType}

/-- The id of the section, as far as the stage needs to know it. -/
def id? : Stage D a → Option Uuid
  | registering id | queueing id _ | waiting id _ | opening id _ | working id _ _ => some id
  | _ => none

/-- Key and phase of the ticket of a command. -/
def place? : Stage D a → Option (Nat × Phase)
  | checking | registering _ | counting _ | finished _ => none
  | queueing _ key => some (key, .registered)
  | waiting _ key => some (key, .queued)
  | opening _ key | working _ key _ | closed key _ => some (key, .holding)
  | leaving key _ => some (key, .released)

/-- What a command in the section has left to do in it. -/
def inSection? (r : Registry D (Session R W)) (x : Sending D) :
    Stage D (D.aggregateOf x.type) → Option (StateM (Session R W) (Except Error Receipt))
  | opening id _ => some (unitOfWork x.ctx (process r x.ctx x.metadata id x.type x.command)).run
  | working id _ p => some ((p.rest r x id).run >>= settle x.ctx)
  | closed _ answer => some (pure answer)
  | _ => none

/-- Whether a command has a unit of work. -/
def isWorking : Stage D a → Bool
  | working _ _ _ => true
  | _ => false

/-- The answer of a command that has left the section. -/
def answer? : Stage D a → Option (Except Error Receipt)
  | leaving _ answer | counting answer | finished answer => some answer
  | _ => none

section

variable {r : Registry D (Session R W)} {x : Sending D} {stage : Stage D (D.aggregateOf x.type)}
  {t : StateM (Session R W) (Except Error Receipt)}

theorem place?_of_inSection? (h : stage.inSection? r x = some t) :
    ∃ key, stage.place? = some (key, .holding) := by
  cases stage with
  | opening id key => exact ⟨key, rfl⟩
  | working id key p => exact ⟨key, rfl⟩
  | closed key answer => exact ⟨key, rfl⟩
  | _ => cases h

theorem answer?_of_inSection? (h : stage.inSection? r x = some t) : stage.answer? = none := by
  cases stage with
  | opening id key => rfl
  | working id key p => rfl
  | closed key answer => rfl
  | _ => cases h

theorem isWorking_of_outside (h : stage.inSection? r x = none) : stage.isWorking = false := by
  cases stage with
  | working id key p => cases h
  | _ => rfl

/-- What is left to do in the section is local. -/
theorem local_inSection? (hr : r.Local) (h : stage.inSection? r x = some t) : Local t := by
  cases stage with
  | opening id key =>
    cases h
    exact local_unitOfWork x.ctx (local_process hr x.ctx x.metadata id x.type x.command)
  | working id key p =>
    cases h
    exact (Progress.local_rest hr p).bind fun answer => local_settle x.ctx answer
  | closed key answer =>
    cases h
    exact local_pure answer
  | _ => cases h

end

end Stage

/-! ### The invariant -/

/-- The commands that have been in the section, in their order, with the answers
that they get when they are sent one after the other. -/
def answered (r : Registry D (Session R W)) (s₀ : Session R W) (xs : ι → Sending D)
    (order : List ι) : List (ι × Except Error Receipt) :=
  order.zip (answers r s₀ (order.map xs))

/-- The next command gets its answer after those before it. -/
theorem answered_concat (r : Registry D (Session R W)) (s₀ : Session R W) (xs : ι → Sending D)
    (order : List ι) (i : ι) :
    answered r s₀ xs (order ++ [i]) = answered r s₀ xs order ++
      [(i, ((send r (xs i).ctx (xs i).metadata (xs i).type (xs i).command (xs i).seconds).run
        (after r s₀ (order.map xs))).1)] := by
  rw [answered, List.map_append, List.map_singleton, answers_concat, List.zip_append]
  · rfl
  · rw [length_answers, List.length_map]

/-- What the stage of one command says is true. -/
structure Stands (r : Registry D (Session R W)) (id : Uuid) (s₀ : Session R W)
    {xs : ι → Sending D} (order : List ι) (s : Session R W) (i : ι)
    (stage : Stage D (D.aggregateOf (xs i).type)) : Prop where
  id : ∀ id', stage.id? = some id' → id' = id
  mem_order : i ∈ order ↔ (stage.inSection? r (xs i)).isSome ∨ stage.answer?.isSome
  /-- What a command in the section has left to do brings about the answer and the
  view that sending the commands one after the other does. -/
  inside : ∀ t, stage.inSection? r (xs i) = some t →
    (i, (t s).1) ∈ answered r s₀ xs order ∧ (t s).2.view = (after r s₀ (order.map xs)).view
  left : ∀ answer, stage.answer? = some answer → (i, answer) ∈ answered r s₀ xs order

section

variable {r : Registry D (Session R W)} {id : Uuid} {s₀ s s' : Session R W} {xs : ι → Sending D}
  {order : List ι} {i : ι} {stage : Stage D (D.aggregateOf (xs i).type)}

/-- Commands outside of the section do not depend on what is done in it. -/
theorem Stands.of_outside (h : Stands r id s₀ order s i stage)
    (hnone : stage.inSection? r (xs i) = none) : Stands r id s₀ order s' i stage where
  id := h.id
  mem_order := h.mem_order
  inside t ht := by
    rw [hnone] at ht
    cases ht
  left := h.left

/-- Commands do not depend on what is not in the view. -/
theorem Stands.of_view (h : Stands r id s₀ order s i stage) (hr : r.Local)
    (hview : s'.view = s.view) : Stands r id s₀ order s' i stage where
  id := h.id
  mem_order := h.mem_order
  inside t ht := by
    obtain ⟨hsame, hsameView⟩ := (Stage.local_inSection? hr ht).congr hview
    rw [hsame, hsameView]
    exact h.inside t ht
  left := h.left

/-- Commands that have been in the section are not affected by the next one. -/
theorem Stands.concat (h : Stands r id s₀ order s i stage)
    (hnone : stage.inSection? r (xs i) = none) {j : ι} (hij : i ≠ j) :
    Stands r id s₀ (order ++ [j]) s' i stage where
  id := h.id
  mem_order := by
    rw [← h.mem_order, List.mem_append, List.mem_singleton]
    exact or_iff_left hij
  inside t ht := by
    rw [hnone] at ht
    cases ht
  left answer ha := by
    rw [answered_concat]
    exact List.mem_append_left _ (h.left answer ha)

end

namespace Crowd

variable {r : Registry D (Session R W)} {xs : ι → Sending D} {id : Uuid} {s₀ : Session R W}

/-- The commands of a crowd come one after the other. -/
structure Serial (r : Registry D (Session R W)) (id : Uuid) (s₀ : Session R W)
    (c : Crowd R W xs) : Prop where
  visited : c.session.sections.Visited id fun i => (c.stage i).place?
  stands : ∀ i, Stands r id s₀ c.order c.session i (c.stage i)
  nodup : c.order.Nodup
  active : ∀ ctx, c.session.store.isActive ctx = true ↔
    ∃ i, (c.stage i).isWorking = true ∧ (xs i).ctx = ctx
  outside : (∀ i, (c.stage i).inSection? r (xs i) = none) →
    c.session.view = (after r s₀ (c.order.map xs)).view

namespace Serial

variable {c : Crowd R W xs} (h : c.Serial r id s₀) {i j : ι}

include h

/-- One command at most is in the section. -/
theorem inSection_unique {t t' : StateM (Session R W) (Except Error Receipt)}
    (hi : (c.stage i).inSection? r (xs i) = some t)
    (hj : (c.stage j).inSection? r (xs j) = some t') : i = j := by
  obtain ⟨key, hkey⟩ := Stage.place?_of_inSection? hi
  obtain ⟨key', hkey'⟩ := Stage.place?_of_inSection? hj
  exact h.visited.holding_unique hkey hkey'

theorem inSection?_eq_none {t : StateM (Session R W) (Except Error Receipt)}
    (hi : (c.stage i).inSection? r (xs i) = some t) (hji : j ≠ i) :
    (c.stage j).inSection? r (xs j) = none := by
  rcases hj : (c.stage j).inSection? r (xs j) with _ | t'
  · rfl
  · exact absurd (h.inSection_unique hj hi) hji

variable [DecidableEq ι]

omit h in
theorem exists_working_update {next : Stage D (D.aggregateOf (xs i).type)}
    (ctx : ExecutionContext) :
    (∃ j, (Function.update c.stage i next j).isWorking = true ∧ (xs j).ctx = ctx) ↔
      (next.isWorking = true ∧ (xs i).ctx = ctx) ∨
        ∃ j, j ≠ i ∧ (c.stage j).isWorking = true ∧ (xs j).ctx = ctx :=
  Function.exists_update_iff c.stage fun j stage => stage.isWorking = true ∧ (xs j).ctx = ctx

/-- The units of work are the same after a step of a command that has none. -/
theorem active_update {next : Stage D (D.aggregateOf (xs i).type)}
    (hbefore : (c.stage i).isWorking = false) (hafter : next.isWorking = false)
    (ctx : ExecutionContext) :
    c.session.store.isActive ctx = true ↔
      ∃ j, (Function.update c.stage i next j).isWorking = true ∧ (xs j).ctx = ctx := by
  rw [h.active, exists_working_update, hafter]
  constructor
  · rintro ⟨j, hj, hctx⟩
    refine .inr ⟨j, ?_, hj, hctx⟩
    rintro rfl
    rw [hbefore] at hj
    cases hj
  · rintro (⟨hi, -⟩ | ⟨j, -, hj⟩)
    · cases hi
    · exact ⟨j, hj⟩

/-- A step of a command that is not in the section. -/
theorem step_outside (hr : r.Local) {next : Stage D (D.aggregateOf (xs i).type)}
    {s' : Session R W}
    (hvisited : s'.sections.Visited id
      (Function.update (fun j => (c.stage j).place?) i next.place?))
    (hid : ∀ id', next.id? = some id' → id' = id) (hview : s'.view = c.session.view)
    (hbefore : (c.stage i).inSection? r (xs i) = none)
    (hafter : next.inSection? r (xs i) = none) (hanswer : next.answer? = (c.stage i).answer?) :
    Serial r id s₀ ⟨s', Function.update c.stage i next, c.order⟩ where
  visited := by
    rw [comp_update (fun _ stage => stage.place?)]
    exact hvisited
  stands := by
    refine (Function.forall_update_iff c.stage fun j stage =>
      Stands r id s₀ c.order s' j stage).2 ⟨?_, fun j _ => (h.stands j).of_view hr hview⟩
    refine ⟨hid, ?_, fun t ht => ?_, hanswer ▸ (h.stands i).left⟩
    · rw [(h.stands i).mem_order, hbefore, hafter, hanswer]
    · rw [hafter] at ht
      cases ht
  nodup := h.nodup
  active ctx := by
    have hstore : s'.store = c.session.store := congrArg Prod.fst hview
    show s'.store.isActive ctx = true ↔ _
    rw [hstore]
    exact h.active_update (Stage.isWorking_of_outside hbefore) (Stage.isWorking_of_outside hafter) ctx
  outside hnone := by
    refine hview.trans (h.outside fun j => ?_)
    by_cases hji : j = i
    · rw [hji, hbefore]
    · exact ((Function.forall_update_iff c.stage fun j stage =>
        stage.inSection? r (xs j) = none).1 hnone).2 j hji

/-- A step of the command in the section, which leaves it with the rest of what it
had to do. -/
theorem step_inside {next : Stage D (D.aggregateOf (xs i).type)} {s' : Session R W}
    {t t' : StateM (Session R W) (Except Error Receipt)}
    (hbefore : (c.stage i).inSection? r (xs i) = some t)
    (hafter : next.inSection? r (xs i) = some t') (hrest : t' s' = t c.session)
    (hsections : s'.sections = c.session.sections) (hplace : next.place? = (c.stage i).place?)
    (hid : ∀ id', next.id? = some id' → id' = id)
    (hactive : ∀ ctx, s'.store.isActive ctx = true ↔ next.isWorking = true ∧ (xs i).ctx = ctx) :
    Serial r id s₀ ⟨s', Function.update c.stage i next, c.order⟩ where
  visited := by
    rw [comp_update (fun _ stage => stage.place?), hplace, Function.update_eq_self]
    exact hsections ▸ h.visited
  stands := by
    refine (Function.forall_update_iff c.stage fun j stage =>
      Stands r id s₀ c.order s' j stage).2
        ⟨?_, fun j hji => (h.stands j).of_outside (h.inSection?_eq_none hbefore hji)⟩
    refine ⟨hid, ?_, fun u hu => ?_, fun answer ha => ?_⟩
    · have hmem := (h.stands i).mem_order.2 (.inl (by rw [hbefore]; rfl))
      exact iff_of_true hmem (.inl (by rw [hafter]; rfl))
    · rw [hafter] at hu
      cases hu
      rw [hrest]
      exact (h.stands i).inside t hbefore
    · rw [Stage.answer?_of_inSection? hafter] at ha
      cases ha
  nodup := h.nodup
  active ctx := by
    show s'.store.isActive ctx = true ↔ _
    rw [hactive, exists_working_update]
    refine ⟨.inl, ?_⟩
    rintro (hi | ⟨j, hji, hj, -⟩)
    · exact hi
    · -- nobody else is in the section
      rw [Stage.isWorking_of_outside (h.inSection?_eq_none hbefore hji)] at hj
      cases hj
  outside hnone := by
    have hi := ((Function.forall_update_iff c.stage fun j stage =>
      stage.inSection? r (xs j) = none).1 hnone).1
    rw [hafter] at hi
    cases hi

/-- Nobody has a unit of work when the command in the section begins its own. -/
theorem unit_eq_none {id' : Uuid} {key : Nat} (hopening : c.stage i = .opening id' key) :
    c.session.store.unit = none := by
  rcases hunit : c.session.store.unit with _ | ⟨owner, db⟩
  · rfl
  · obtain ⟨j, hj, -⟩ := (h.active owner).1 (Store.isActive_iff.2 ⟨db, hunit⟩)
    have hsection : ((c.stage i).inSection? r (xs i)).isSome := by
      rw [hopening]
      rfl
    obtain ⟨t, ht⟩ := Option.isSome_iff_exists.1 hsection
    by_cases hji : j = i
    · rw [hji, hopening] at hj
      cases hj
    · rw [Stage.isWorking_of_outside (h.inSection?_eq_none ht hji)] at hj
      cases hj

theorem step_acquire {id' : Uuid} {key : Nat} {s' : Session R W}
    (hopening : c.stage i = .opening id' key)
    (hacquire : (onStore (Store.acquire (xs i).ctx) : Task (Session R W) Unit).run c.session =
      (.ok (), s')) :
    Serial r id s₀ ⟨s', Function.update c.stage i (.working id' key .loading), c.order⟩ := by
  have hs' : s' = c.session.opened (xs i).ctx := by
    rw [run_onStore, Store.run_acquire _ (h.unit_eq_none hopening)] at hacquire
    exact (Prod.mk.inj hacquire).2.symm
  refine h.step_inside (by rw [hopening]; rfl) rfl ?_ (by rw [hs']; rfl) (by rw [hopening]; rfl)
    ?_ fun ctx => ?_
  · rw [Stage.run_unitOfWork, hacquire]
    rfl
  · rintro _ ⟨⟩
    exact (h.stands i).id id' (by rw [hopening]; rfl)
  · rw [hs', Store.isActive_iff]
    constructor
    · rintro ⟨db, hdb⟩
      exact ⟨rfl, congrArg UnitOfWork.owner (Option.some.inj hdb)⟩
    · rintro ⟨-, rfl⟩
      exact ⟨_, rfl⟩

theorem acquire_ne_error {id' : Uuid} {key : Nat} {e : Error} {s' : Session R W}
    (hopening : c.stage i = .opening id' key) :
    (onStore (Store.acquire (xs i).ctx) : Task (Session R W) Unit).run c.session ≠
      (.error e, s') := by
  rw [run_onStore, Store.run_acquire _ (h.unit_eq_none hopening)]
  intro herror
  cases herror

omit [DecidableEq ι] in
theorem unit_of_working {id' : Uuid} {key : Nat} {p : Progress D (D.aggregateOf (xs i).type)}
    (hworking : c.stage i = .working id' key p) :
    ∃ db, c.session.store.unit = some ⟨(xs i).ctx, db⟩ := by
  refine Store.isActive_iff.1 ((h.active _).2 ⟨i, ?_, rfl⟩)
  rw [hworking]
  rfl

theorem step_work (hr : r.Confined (fun _ _ => True) fun _ _ => True) (hlocal : r.Local)
    {id' : Uuid} {key : Nat} {p : Progress D (D.aggregateOf (xs i).type)}
    (hworking : c.stage i = .working id' key p) :
    let stepped := p.step r (xs i) id' c.session
    Serial r id s₀
      ⟨stepped.2, Function.update c.stage i (.working id' key stepped.1), c.order⟩ := by
  intro stepped
  obtain ⟨db, hunit⟩ := h.unit_of_working hworking
  have hinside : c.session.Inside (fun _ _ => True) stepped.2 :=
    Progress.inside_step admits_true hr p c.session
  -- the unit of work stays that of the command
  obtain ⟨db', -, hunit'⟩ := hinside.unit hunit
  refine h.step_inside (by rw [hworking]; rfl) rfl ?_
    ((Progress.local_step hlocal p).sections c.session) (by rw [hworking]; rfl) ?_ fun ctx => ?_
  · have hrest : (stepped.1.rest r (xs i) id').run stepped.2 =
        (p.rest r (xs i) id').run c.session := Progress.run_rest_step p c.session
    show settle (xs i).ctx ((stepped.1.rest r (xs i) id').run stepped.2).1
      ((stepped.1.rest r (xs i) id').run stepped.2).2 = _
    rw [hrest]
    rfl
  · rintro _ ⟨⟩
    exact (h.stands i).id id' (by rw [hworking]; rfl)
  · rw [Store.isActive_iff, hunit']
    constructor
    · rintro ⟨_, hdb⟩
      exact ⟨rfl, congrArg UnitOfWork.owner (Option.some.inj hdb)⟩
    · rintro ⟨-, rfl⟩
      exact ⟨db', rfl⟩

theorem step_settle {id' : Uuid} {key : Nat} {answer : Except Error Receipt}
    (hworking : c.stage i = .working id' key (.answered answer)) :
    let settled := settle (xs i).ctx answer c.session
    Serial r id s₀
      ⟨settled.2, Function.update c.stage i (.closed key settled.1), c.order⟩ := by
  intro settled
  obtain ⟨db, hunit⟩ := h.unit_of_working hworking
  obtain ⟨db', hsettled⟩ := run_settle hunit answer
  refine h.step_inside (by rw [hworking]; rfl) rfl ?_
    ((local_settle (xs i).ctx answer).sections c.session) (by rw [hworking]; rfl) nofun fun ctx => ?_
  · have hanswered : (Progress.rest r (xs i) id' (.answered answer)).run c.session =
        (answer, c.session) := Task.run_ofExcept answer c.session
    show settled = settle (xs i).ctx
      ((Progress.rest r (xs i) id' (.answered answer)).run c.session).1
      ((Progress.rest r (xs i) id' (.answered answer)).run c.session).2
    rw [hanswered]
  · have hnone : settled.2.store.unit = none := by
      rw [show settled = _ from hsettled]
    rw [Store.isActive_iff, hnone]
    constructor
    · rintro ⟨_, ⟨⟩⟩
    · rintro ⟨⟨⟩, -⟩

/-- A command that has its answer leaves the section. -/
theorem step_unlock {key : Nat} {answer : Except Error Receipt}
    {sections : CriticalSections} (hclosed : c.stage i = .closed key answer)
    (hstep : c.session.sections.step? (.unlock key) = some sections) :
    Serial r id s₀
      ⟨{ c.session with sections }, Function.update c.stage i (.leaving key answer), c.order⟩ := by
  have hbefore : (c.stage i).inSection? r (xs i) = some (pure answer) := by
    rw [hclosed]
    rfl
  have hplace : (c.stage i).place? = some (key, .holding) := by
    rw [hclosed]
    rfl
  have hworking : (c.stage i).isWorking = false := by
    rw [hclosed]
    rfl
  -- nothing is left to do, so what it brings about is there
  obtain ⟨hanswer, hview⟩ := (h.stands i).inside _ hbefore
  refine ⟨?_, ?_, h.nodup, h.active_update hworking rfl, fun _ => hview⟩
  · rw [comp_update (fun _ stage => stage.place?)]
    exact h.visited.unlock hplace hstep
  · refine (Function.forall_update_iff c.stage fun j stage =>
      Stands r id s₀ c.order _ j stage).2
        ⟨⟨nofun, ?_, nofun, ?_⟩, fun j hji =>
          (h.stands j).of_outside (h.inSection?_eq_none hbefore hji)⟩
    · exact iff_of_true ((h.stands i).mem_order.2 (.inl (by rw [hbefore]; rfl))) (.inr rfl)
    · rintro _ ⟨⟩
      exact hanswer

/-- Nobody is in the section when a command obtains it, or there would be two in it
now. -/
theorem nobody_inside {key : Nat} {sections : CriticalSections}
    (hplace : (c.stage i).place? = some (key, .queued))
    (hstep : c.session.sections.step? (.obtain key) = some sections) (j : ι) :
    (c.stage j).inSection? r (xs j) = none := by
  have hvisited := h.visited.obtain hplace hstep
  rcases hj : (c.stage j).inSection? r (xs j) with _ | t
  · rfl
  · obtain ⟨key', hkey'⟩ := Stage.place?_of_inSection? hj
    have hji : j ≠ i := by
      rintro rfl
      rw [hplace] at hkey'
      cases hkey'
    have hj' : Function.update (fun j => (c.stage j).place?) i (some (key, .holding)) j =
        some (key', .holding) := by
      rw [Function.update_of_ne hji]
      exact hkey'
    exact absurd (hvisited.holding_unique hj' (Function.update_self ..)) hji

/-- The next command comes into the section, which nobody is in. -/
theorem step_obtain {ρ δ : Database R → Database R → Prop} (hr : r.Confined ρ δ)
    (hlocal : r.Local) (htarget : D.target (xs i).command = some id)
    (hunit : s₀.store.unit = none) {id' : Uuid} {key : Nat} {sections : CriticalSections}
    {s' : Session R W} (hwaiting : c.stage i = .waiting id' key)
    (hstep : c.session.sections.step? (.obtain key) = some sections)
    (hview : s'.view = c.session.view) (hsections : s'.sections = sections) :
    Serial r id s₀ ⟨s', Function.update c.stage i (.opening id' key), c.order ++ [i]⟩ := by
  have hbefore : (c.stage i).inSection? r (xs i) = none := by
    rw [hwaiting]
    rfl
  have hplace : (c.stage i).place? = some (key, .queued) := by
    rw [hwaiting]
    rfl
  have hworking : (c.stage i).isWorking = false := by
    rw [hwaiting]
    rfl
  obtain rfl : id' = id := (h.stands i).id id' (by rw [hwaiting]; rfl)
  have hnobody := h.nobody_inside hplace hstep
  have hnew : i ∉ c.order := by
    rw [(h.stands i).mem_order, hwaiting]
    rintro (hi | hi) <;> cases hi
  -- so the command will do what it does after those before it
  have hbase := hview.trans (h.outside hnobody)
  have hactive : (after r s₀ (c.order.map xs)).store.isActive (xs i).ctx = false := by
    rw [Store.isActive, Store.pending?, unit_after hr hunit]
    rfl
  obtain ⟨hanswer, hleft⟩ := view_send hlocal (xs i).metadata htarget (xs i).seconds hbase hactive
  refine ⟨?_, ?_, ?_, fun ctx => ?_, fun hnone => ?_⟩
  · rw [comp_update (fun _ stage => stage.place?), hsections]
    exact h.visited.obtain hplace hstep
  · refine (Function.forall_update_iff c.stage fun j stage =>
      Stands r id' s₀ (c.order ++ [i]) s' j stage).2
        ⟨⟨?_, ?_, ?_, ?_⟩, fun j hji => (h.stands j).concat (hnobody j) hji⟩
    · rintro _ ⟨⟩
      rfl
    · exact iff_of_true (List.mem_append_right _ List.mem_cons_self) (.inl rfl)
    · rintro _ ⟨⟩
      rw [answered_concat, List.map_append, List.map_singleton, after_concat, hanswer, hleft]
      exact ⟨List.mem_append_right _ List.mem_cons_self, rfl⟩
    · rintro _ ⟨⟩
  · exact List.nodup_append_comm.1 (List.nodup_cons.2 ⟨hnew, h.nodup⟩)
  · have hstore : s'.store = c.session.store := congrArg Prod.fst hview
    show s'.store.isActive ctx = true ↔ _
    rw [hstore]
    exact h.active_update hworking rfl ctx
  · have hi := ((Function.forall_update_iff c.stage fun j stage =>
      stage.inSection? r (xs j) = none).1 hnone).1
    cases hi

end Serial

section

variable [DecidableEq ι] {c c' : Crowd R W xs} {i : ι}

/-- Every move keeps the commands one after the other. -/
theorem Serial.move {ρ δ : Database R → Database R → Prop} (h : c.Serial r id s₀)
    (hr : r.Confined ρ δ) (hlocal : r.Local) (htarget : ∀ i, D.target (xs i).command = some id)
    (hctx : Function.Injective fun i => (xs i).ctx) (hunit : s₀.store.unit = none)
    (hmove : c.move? r i = some c') : c'.Serial r id s₀ := by
  have hany : r.Confined (fun _ _ => True) fun _ _ => True :=
    hr.mono (fun _ _ _ => trivial) fun _ _ _ => trivial
  obtain ⟨next, s', hstep, rfl⟩ := move?_eq_some hmove
  have hstepped := Stage.stepped hstep
  have hid := (h.stands i).id
  generalize hstage : c.stage i = stage at hstepped hid
  cases hstepped with
  | active hactive =>
    -- a context has no unit of work before its command works
    obtain ⟨j, hj, heq⟩ := (h.active _).1 hactive
    obtain rfl := hctx heq
    rw [hstage] at hj
    cases hj
  | untargeted _ hnone =>
    rw [htarget i] at hnone
    cases hnone
  | @targeted id' _ hsome =>
    rw [htarget i] at hsome
    cases hsome
    refine h.step_outside hlocal ?_ ?_ rfl (by rw [hstage]; rfl) rfl (by rw [hstage]; rfl)
    · rw [show (Stage.registering id).place? = (c.stage i).place? by rw [hstage]; rfl,
        Function.update_eq_self]
      exact h.visited
    · rintro _ ⟨⟩
      rfl
  | @register id' =>
    obtain rfl := hid id' rfl
    refine h.step_outside hlocal (h.visited.register (by rw [hstage]; rfl)) ?_ rfl
      (by rw [hstage]; rfl) rfl (by rw [hstage]; rfl)
    rintro _ ⟨⟩
    rfl
  | @queue id' key sections hqueue =>
    exact h.step_outside hlocal
      (h.visited.queue (by rw [hstage]; rfl) hqueue) hid rfl
      (by rw [hstage]; rfl) rfl (by rw [hstage]; rfl)
  | obtain hobtain =>
    exact h.step_obtain hr hlocal (htarget i) hunit hstage hobtain rfl rfl
  | acquire hacquire => exact h.step_acquire hstage hacquire
  | refuse hrefuse => exact absurd hrefuse (h.acquire_ne_error hstage)
  | work => exact h.step_work hany hlocal hstage
  | settle => exact h.step_settle hstage
  | unlock hunlock => exact h.step_unlock hstage hunlock
  | @leave key answer sections hleave =>
    exact h.step_outside hlocal (h.visited.leave (by rw [hstage]; rfl) hleave) nofun rfl
      (by rw [hstage]; rfl) rfl (by rw [hstage]; rfl)
  | @count answer =>
    obtain ⟨metrics, hcounted⟩ := run_counted (xs i) answer c.session
    rw [hcounted]
    refine h.step_outside hlocal ?_ nofun rfl (by rw [hstage]; rfl) rfl (by rw [hstage]; rfl)
    rw [show (Stage.finished answer).place? = (c.stage i).place? by rw [hstage]; rfl,
      Function.update_eq_self]
    exact h.visited

/-! ### Whole runs -/

omit [DecidableEq ι] in
/-- Commands that are not begun come one after the other. -/
theorem serial_start (hunit : s₀.store.unit = none) (hsections : s₀.sections.Reachable)
    (hempty : s₀.sections.tickets = []) :
    Serial r id s₀ (⟨s₀, fun _ => .checking, []⟩ : Crowd R W xs) where
  visited := CriticalSections.visited_none hsections hempty
  stands i := ⟨nofun, iff_of_false List.not_mem_nil (by rintro (h | h) <;> cases h), nofun, nofun⟩
  nodup := .nil
  active ctx := by
    rw [Store.isActive_iff, hunit]
    constructor
    · rintro ⟨_, ⟨⟩⟩
    · rintro ⟨i, ⟨⟩, -⟩
  outside _ := rfl

theorem Reached.serial {ρ δ : Database R → Database R → Prop} (hc : Reached r xs s₀ c)
    (hr : r.Confined ρ δ) (hlocal : r.Local) (htarget : ∀ i, D.target (xs i).command = some id)
    (hctx : Function.Injective fun i => (xs i).ctx) (hunit : s₀.store.unit = none)
    (hsections : s₀.sections.Reachable) (hempty : s₀.sections.tickets = []) :
    c.Serial r id s₀ := by
  induction hc with
  | start => exact serial_start hunit hsections hempty
  | move i _ hmove ih => exact ih.move hr hlocal htarget hctx hunit hmove

/-- A command that cannot make its next step waits for the section, or is finished. -/
theorem Serial.waits_or_finished (h : c.Serial r id s₀) (hstuck : c.move? r i = none) :
    (∃ id' key, c.stage i = .waiting id' key) ∨ ∃ answer, c.stage i = .finished answer := by
  have hstep : (c.stage i).step? r (xs i) c.session = none := Option.map_eq_none_iff.1 hstuck
  generalize hstage : c.stage i = stage at hstep
  cases stage with
  | checking =>
    simp only [Stage.step?] at hstep
    split at hstep
    · cases hstep
    · split at hstep
      · cases hstep
      · cases hstep
  | registering id' => cases hstep
  | queueing id' key =>
    obtain ⟨sections, hqueue⟩ := h.visited.exists_queue (i := i) (by rw [hstage]; rfl)
    simp only [Stage.step?, Stage.moveSections?, hqueue] at hstep
    cases hstep
  | waiting id' key => exact .inl ⟨id', key, rfl⟩
  | opening id' key =>
    simp only [Stage.step?] at hstep
    split at hstep
    · cases hstep
    · cases hstep
  | working id' key p =>
    cases p with
    | _ => cases hstep
  | closed key answer =>
    obtain ⟨sections, hunlock⟩ := h.visited.exists_unlock (i := i) (by rw [hstage]; rfl)
    simp only [Stage.step?, Stage.moveSections?, hunlock] at hstep
    cases hstep
  | leaving key answer =>
    obtain ⟨sections, hleave⟩ := h.visited.exists_leave (i := i) (by rw [hstage]; rfl)
    simp only [Stage.step?, Stage.moveSections?, hleave] at hstep
    cases hstep
  | counting answer => cases hstep
  | finished answer => exact .inr ⟨answer, rfl⟩

/-- When nobody can move, all are finished: if some waited, the first in the line
could move. -/
theorem Serial.finished_of_stuck (h : c.Serial r id s₀) (hstuck : ∀ i, c.move? r i = none)
    (i : ι) : ∃ answer, c.stage i = .finished answer := by
  rcases h.waits_or_finished (hstuck i) with ⟨id', key, hwaiting⟩ | hfinished
  · have hqueued (j : ι) (key : Nat) (phase : Phase)
        (hplace : (c.stage j).place? = some (key, phase)) : phase = .queued := by
      rcases h.waits_or_finished (hstuck j) with ⟨_, _, hj⟩ | ⟨_, hj⟩
      · rw [hj] at hplace
        cases hplace
        rfl
      · rw [hj] at hplace
        cases hplace
    have hplace : (c.stage i).place? = some (key, .queued) := by
      rw [hwaiting]
      rfl
    -- the first in the line is one of the commands, which can move after all
    obtain ⟨j, key', sections, hplace, hobtain⟩ := h.visited.exists_obtain hplace hqueued
    rcases h.waits_or_finished (hstuck j) with ⟨_, _, hj⟩ | ⟨_, hj⟩
    · rw [hj] at hplace
      cases hplace
      have hstep := Option.map_eq_none_iff.1 (hstuck j)
      rw [hj] at hstep
      simp only [Stage.step?, Stage.moveSections?, hobtain] at hstep
      cases hstep
    · rw [hj] at hplace
      cases hplace
  · exact hfinished

/-- **One after the other.**  Send commands for one id at the same time, each from
a context of its own, in a session in which nobody is in a section or has a unit
of work.  Let handlers know the store and the world only, and leave the tables of
the engine alone.  Then, in whichever order the commands make their steps:

* The commands come to an end.  They do not move for ever, and when none of them
  can move, all are finished.
* At no moment are two of them between the begin and the end of a unit of work,
  where commands load and call their handlers.
* Every command gets the answer that it gets when the commands are sent one after
  the other, in the order in which they obtained the section.  That is never a
  conflict.
* When all are finished, store and world are what sending the commands in that
  order makes of them, and nobody is left in the table of sections. -/
theorem one_after_the_other [Finite ι] (r : Registry D (Session R W))
    (hr : r.Confined SameTables SameTables) (hlocal : r.Local) (id : Uuid) (xs : ι → Sending D)
    (htarget : ∀ i, D.target (xs i).command = some id)
    (hctx : Function.Injective fun i => (xs i).ctx) (s : Session R W)
    (hdb : s.store.committed.Reachable) (hunit : s.store.unit = none)
    (hsections : s.sections.Reachable) (hempty : s.sections.tickets = []) :
    WellFounded (fun c' c : Crowd R W xs => ∃ i, c.move? r i = some c') ∧
    ∀ c : Crowd R W xs, Reached r xs s c →
      ((∀ i, c.move? r i = none) → ∀ i, ∃ answer, c.stage i = .finished answer) ∧
      (∀ i j, (c.stage i).isWorking = true → (c.stage j).isWorking = true → i = j) ∧
      (∀ i answer, c.stage i = .finished answer →
        (i, answer) ∈ c.order.zip (answers r s (c.order.map xs)) ∧
          ∀ id expected, answer ≠ .error (.conflict id expected)) ∧
      ((∀ i, ∃ answer, c.stage i = .finished answer) →
        c.order.Nodup ∧ (∀ i, i ∈ c.order) ∧
        c.session.store = (after r s (c.order.map xs)).store ∧
        c.session.world = (after r s (c.order.map xs)).world ∧
        c.session.sections.table = []) := by
  refine ⟨wellFounded_move r, fun c hc => ?_⟩
  have h := hc.serial hr hlocal htarget hctx hunit hsections hempty
  refine ⟨h.finished_of_stuck, fun i j hi hj => ?_, fun i answer hfinished => ?_, fun hall => ?_⟩
  · -- whoever has a unit of work is in the section
    rcases hti : (c.stage i).inSection? r (xs i) with _ | t
    · rw [Stage.isWorking_of_outside hti] at hi
      cases hi
    rcases htj : (c.stage j).inSection? r (xs j) with _ | t'
    · rw [Stage.isWorking_of_outside htj] at hj
      cases hj
    exact h.inSection_unique hti htj
  · have hmem := (h.stands i).left answer (by rw [hfinished]; rfl)
    exact ⟨hmem, answers_undisputed hr hdb.sound _ answer (List.of_mem_zip hmem).2⟩
  · -- all have left the section
    have hview := h.outside fun i => by
      obtain ⟨answer, hfinished⟩ := hall i
      rw [hfinished]
      rfl
    refine ⟨h.nodup, fun i => ?_, congrArg Prod.fst hview, congrArg Prod.snd hview,
      h.visited.table_eq_nil fun i => ?_⟩
    · obtain ⟨answer, hfinished⟩ := hall i
      rw [(h.stands i).mem_order, hfinished]
      exact .inr rfl
    · obtain ⟨answer, hfinished⟩ := hall i
      rw [hfinished]
      rfl

end

/-- Two registrations of one driver.  The second comes to the section while the first
is on its way into it, and is finished before the first has left the table of
sections.  It finds the driver, as it does when it is sent after the first. -/
theorem second_registration :
    let r : Registry Bench.domain (Driver.Scene Unit) := Driver.registry Driver.newYear
    let xs (second : Bool) : Sending Bench.domain :=
      ⟨⟨second.toNat⟩, Dictionary.empty, .register, Driver.registerAda, 0⟩
    let s := Driver.sessionOf []
    ∃ c : Crowd Driver.ReadModel Unit xs, Reached r xs s c ∧ c.order = [false, true] ∧
      c.stage true = .finished (.error (.aggregateAlreadyExists Uuid.zero)) ∧
      (true, .error (.aggregateAlreadyExists Uuid.zero)) ∈
        [false, true].zip (answers r s [xs false, xs true]) ∧
      c.session.store = (after r s [xs false, xs true]).store ∧
      c.session.sections.table = [] := by
  intro r xs s
  have hr : r.Confined SameTables SameTables :=
    (Driver.confined_registry Driver.newYear).mono (fun _ _ h => h ▸ .refl _) fun _ _ h => h
  obtain ⟨-, hreached⟩ := one_after_the_other r hr (Driver.local_registry _) Uuid.zero xs
    (fun _ => rfl) (Bool.injective_iff.2 nofun) s
    (.readModel _ (.migrate (.blank none))) rfl .empty rfl
  -- both stand in line, then the first works, then the second, then the first leaves
  let turns : List Bool := [false, false, true, true, false, true, false] ++
    List.replicate 10 false ++ List.replicate 8 true ++ [false, false]
  have hturns : (moves? r (⟨s, fun _ => .checking, []⟩ : Crowd Driver.ReadModel Unit xs) turns).map
      (fun c => (c.order, (c.stage true).answer?, (c.move? r false).isNone,
        (c.move? r true).isNone)) =
      some ([false, true], some (.error (.aggregateAlreadyExists Uuid.zero)), true, true) := by
    decide +kernel
  obtain ⟨c, hmoves, heq⟩ := Option.map_eq_some_iff.1 hturns
  simp only [Prod.mk.injEq, Option.isNone_iff_eq_none] at heq
  obtain ⟨horder, hanswer, hfalse, htrue⟩ := heq
  have hc := Reached.start.moves hmoves
  obtain ⟨hstuck, -, hanswers, hfinal⟩ := hreached c hc
  have hall := hstuck (Bool.forall_bool.2 ⟨hfalse, htrue⟩)
  obtain ⟨answer, hfinished⟩ := hall true
  rw [hfinished] at hanswer
  cases hanswer
  obtain ⟨-, -, hstore, -, htable⟩ := hfinal hall
  have hmem := (hanswers true _ hfinished).1
  rw [horder] at hstore hmem
  exact ⟨c, hc, horder, hfinished, hmem, hstore, htable⟩

end Crowd

end Chronicle.Gateway
