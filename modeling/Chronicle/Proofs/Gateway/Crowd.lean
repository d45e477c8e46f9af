/-
Chronicle/Proofs/Gateway/Crowd.lean

Commands that are sent at the same time.

A `Crowd` is a family of commands, each at a stage of its own, in one session.  In
a move one of them makes its next step; which one it is, is not determined, so that
the reachable crowds are those of all interleavings.  The order in which commands
obtain their sections is kept.

Main result: moves come to an end (`Crowd.wellFounded_move`).  Every step of a
command lowers its rank: it goes from one stage to a later one, and inside the unit
of work from event to event and from handler to handler.
-/
import Chronicle.Proofs.Gateway.Stages
import Mathlib.Data.DFinsupp.WellFounded
import Mathlib.Data.Prod.Lex

namespace Chronicle.Gateway

variable {D : Domain} {R W : Type} {ι : Type} [DecidableEq ι]

open Session

/-! ### Ranks -/

/-- How far a place in the work of a command is from its answer: the part of the
work, the events that are left, and the handlers of the event that are left. -/
def Progress.rank {a : D.AggregateType} (r : Registry D (Session R W)) :
    Progress D a → ℕ ×ₗ ℕ ×ₗ ℕ
  | loading => toLex (8, toLex (0, 0))
  | dispatching _ => toLex (7, toLex (0, 0))
  | inserting _ _ _ => toLex (6, toLex (0, 0))
  | applying b => toLex (5, toLex (b.events.length, 0))
  | publishing b e called =>
    let handlers := (Tagged.select e.type r.domainHandlers).drop called
    toLex (5, toLex (b.events.length, handlers.length + 1))
  | answered _ => toLex (4, toLex (0, 0))

/-- How far a stage is from the last one. -/
def Stage.rank {a : D.AggregateType} (r : Registry D (Session R W)) : Stage D a → ℕ ×ₗ ℕ ×ₗ ℕ
  | checking => toLex (13, toLex (0, 0))
  | registering _ => toLex (12, toLex (0, 0))
  | queueing _ _ => toLex (11, toLex (0, 0))
  | waiting _ _ => toLex (10, toLex (0, 0))
  | opening _ _ => toLex (9, toLex (0, 0))
  | working _ _ p => p.rank r
  | closed _ _ => toLex (3, toLex (0, 0))
  | leaving _ _ => toLex (2, toLex (0, 0))
  | counting _ => toLex (1, toLex (0, 0))
  | finished _ => toLex (0, toLex (0, 0))

/-- A smaller part comes first, whatever the rest. -/
theorem rank_lt_of_part {part part' : ℕ} (h : part.blt part' = true) (rest rest' : ℕ ×ₗ ℕ) :
    (toLex (part, rest) : ℕ ×ₗ ℕ ×ₗ ℕ) < toLex (part', rest') :=
  Prod.Lex.toLex_lt_toLex.2 (.inl (Nat.le_of_ble_eq_true h))

namespace Progress

variable {r : Registry D (Session R W)} {x : Sending D} {id : Uuid} {α : Type}

/-- A failure is behind all other places. -/
theorem rank_proceed {t : Task (Session R W) α}
    {next : α → Progress D (D.aggregateOf x.type)} {bound : ℕ ×ₗ ℕ ×ₗ ℕ}
    (hanswered : (toLex (4, toLex (0, 0)) : ℕ ×ₗ ℕ ×ₗ ℕ) < bound)
    (hnext : ∀ result, (next result).rank r < bound) (s : Session R W) :
    (proceed t next s).1.rank r < bound := by
  rcases hrun : t.run s with ⟨e | result, s'⟩
  · simp only [proceed, bind_apply, hrun, pure_apply]
    exact hanswered
  · simp only [proceed, bind_apply, hrun, pure_apply]
    exact hnext result

theorem rank_step {p : Progress D (D.aggregateOf x.type)} (hp : ∀ answer, p ≠ .answered answer)
    (s : Session R W) : (p.step r x id s).1.rank r < p.rank r := by
  cases p with
  | loading =>
    exact rank_proceed (rank_lt_of_part rfl _ _)
      (fun _ => rank_lt_of_part rfl _ _) s
  | dispatching snapshot =>
    refine rank_proceed (rank_lt_of_part rfl _ _) (fun result => ?_) s
    dsimp only
    split
    · exact rank_lt_of_part rfl _ _
    · exact rank_lt_of_part rfl _ _
  | inserting snapshot state events =>
    exact rank_proceed (rank_lt_of_part rfl _ _)
      (fun _ => rank_lt_of_part rfl _ _) s
  | applying b =>
    rcases hevents : b.events with _ | ⟨e, es⟩
    · simp only [step, hevents]
      exact rank_proceed (rank_lt_of_part rfl _ _)
        (fun _ => rank_lt_of_part rfl _ _) s
    · -- one event less is left
      simp only [step, hevents]
      refine rank_proceed (rank_lt_of_part rfl _ _) (fun _ => ?_) s
      refine Prod.Lex.toLex_lt_toLex.2 (.inr ⟨rfl, Prod.Lex.toLex_lt_toLex.2 (.inl ?_)⟩)
      rw [hevents]
      exact Nat.lt_succ_self es.length
  | publishing b e called =>
    rcases hhandlers : (Tagged.select e.type r.domainHandlers).drop called with _ | ⟨h, hs⟩
    · simp only [step, hhandlers]
      refine rank_proceed (rank_lt_of_part rfl _ _) (fun _ => ?_) s
      refine Prod.Lex.toLex_lt_toLex.2 (.inr ⟨rfl, Prod.Lex.toLex_lt_toLex.2 (.inr ⟨rfl, ?_⟩)⟩)
      exact Nat.succ_pos _
    · -- one handler less is left
      simp only [step, hhandlers]
      refine rank_proceed (rank_lt_of_part rfl _ _) (fun _ => ?_) s
      refine Prod.Lex.toLex_lt_toLex.2 (.inr ⟨rfl, Prod.Lex.toLex_lt_toLex.2 (.inr ⟨rfl, ?_⟩)⟩)
      have htail : (Tagged.select e.type r.domainHandlers).drop (called + 1) = hs := by
        rw [← List.tail_drop, hhandlers, List.tail_cons]
      rw [htail, hhandlers]
      exact Nat.lt_succ_self _
  | answered answer => exact absurd rfl (hp answer)

end Progress

/-- Every step of a command lowers its rank. -/
theorem Stage.rank_step? {r : Registry D (Session R W)} {x : Sending D} {s s' : Session R W}
    {stage stage' : Stage D (D.aggregateOf x.type)}
    (h : stage.step? r x s = some (stage', s')) : stage'.rank r < stage.rank r := by
  cases stepped h with
  | work hp => exact Progress.rank_step hp s
  | _ => exact rank_lt_of_part rfl _ _

/-! ### Crowds -/

/-- Commands at their stages, in a session, and the order in which they obtained
their sections so far. -/
structure Crowd (R W : Type) (xs : ι → Sending D) where
  session : Session R W
  stage : ∀ i, Stage D (D.aggregateOf (xs i).type)
  order : List ι

/-- Whether a command waits for its section. -/
def Stage.isWaiting {a : D.AggregateType} : Stage D a → Bool
  | waiting _ _ => true
  | _ => false

namespace Crowd

variable {xs : ι → Sending D}

/-- One of the commands makes its next step, if it can. -/
def move? (r : Registry D (Session R W)) (c : Crowd R W xs) (i : ι) : Option (Crowd R W xs) :=
  ((c.stage i).step? r (xs i) c.session).map fun (stage, session) =>
    ⟨session, Function.update c.stage i stage,
      if (c.stage i).isWaiting then c.order ++ [i] else c.order⟩

/-- The crowds that come from sending all commands in a session. -/
inductive Reached (r : Registry D (Session R W)) (xs : ι → Sending D) (s : Session R W) :
    Crowd R W xs → Prop
  | start : Reached r xs s ⟨s, fun _ => .checking, []⟩
  | move {c c' : Crowd R W xs} (i : ι) : Reached r xs s c → c.move? r i = some c' →
      Reached r xs s c'

theorem move?_eq_some {r : Registry D (Session R W)} {c c' : Crowd R W xs} {i : ι}
    (h : c.move? r i = some c') :
    ∃ stage session, (c.stage i).step? r (xs i) c.session = some (stage, session) ∧
      c' = ⟨session, Function.update c.stage i stage,
        if (c.stage i).isWaiting then c.order ++ [i] else c.order⟩ := by
  obtain ⟨⟨stage, session⟩, hstep, rfl⟩ := Option.map_eq_some_iff.1 h
  exact ⟨stage, session, hstep, rfl⟩

/-- Moves of the commands in a list, one after the other. -/
def moves? (r : Registry D (Session R W)) : Crowd R W xs → List ι → Option (Crowd R W xs) :=
  List.foldlM (move? r)

theorem Reached.moves {r : Registry D (Session R W)} {s : Session R W} {c c' : Crowd R W xs}
    {is : List ι} (hc : Reached r xs s c) (h : c.moves? r is = some c') : Reached r xs s c' := by
  induction is generalizing c with
  | nil =>
    cases h
    exact hc
  | cons i is ih =>
    obtain ⟨next, hmove, hrest⟩ := Option.bind_eq_some_iff.1 h
    exact ih (hc.move i hmove) hrest

/-- A function of the stages after one of them has changed. -/
theorem comp_update {α : Type} (f : ∀ i, Stage D (D.aggregateOf (xs i).type) → α)
    (stage : ∀ i, Stage D (D.aggregateOf (xs i).type)) (i : ι)
    (next : Stage D (D.aggregateOf (xs i).type)) :
    (fun j => f j (Function.update stage i next j)) =
      Function.update (fun j => f j (stage j)) i (f i next) := by
  funext j
  by_cases h : j = i
  · subst h
    rw [Function.update_self, Function.update_self]
  · rw [Function.update_of_ne h, Function.update_of_ne h]

/-- A crowd cannot move for ever. -/
theorem wellFounded_move [Finite ι] (r : Registry D (Session R W)) :
    WellFounded fun c' c : Crowd R W xs => ∃ i, c.move? r i = some c' := by
  let ranks (c : Crowd R W xs) (i : ι) : ℕ ×ₗ ℕ ×ₗ ℕ := (c.stage i).rank r
  refine (InvImage.wf ranks wellFounded_lt).mono ?_
  rintro c' c ⟨i, hmove⟩
  obtain ⟨stage, session, hstep, rfl⟩ := move?_eq_some hmove
  show ranks _ < ranks c
  rw [show ranks _ = Function.update (ranks c) i (stage.rank r) from
    comp_update (fun _ stage => stage.rank r) c.stage i stage]
  exact update_lt_self_iff.2 (Stage.rank_step? hstep)

end Crowd

end Chronicle.Gateway
