/-
Chronicle/Proofs/Stream/Ledger.lean

What a world has on record of the connections to a broker, and what a worker adds to it.

A `Ledger` lists every attempt to connect a worker, and every close of a consumer, which is
known by the number of the attempt that it came of.  A worker whose consumer has a number
(`Ledger.Owns`) puts on record that this one is closed, and nothing else, and it does so in
the step in which it becomes closed itself (`Worker.Stepped.adds`).

Main statement: once it is signalled, a worker closes its consumer, unless it has done so
before (`Worker.finish_closes`).
-/
import Chronicle.Proofs.Stream.Shutdown
import Chronicle.Stream.EventStream

namespace Chronicle

variable {D : Domain} {R W : Type}

/-! ### The record of connections -/

/-- What a world has on record: the groups and ids for which a connection was tried, and
the numbers of the consumers that were closed, oldest first. -/
structure Ledger (W : Type) where
  attempts : W → List (String × Nat)
  closes : W → List Nat

namespace Ledger

/-- Only consumers of earlier attempts were closed. -/
def Consistent (l : Ledger W) (s : Session R W) : Prop :=
  ∀ k ∈ l.closes s.world, k < (l.attempts s.world).length

variable {l : Ledger W} {s s' s'' : Session R W} {tried tried' : List (String × Nat)}
  {closed closed' : List Nat}

/-- What is added to the record. -/
structure Adds (l : Ledger W) (s s' : Session R W) (tried : List (String × Nat))
    (closed : List Nat) : Prop where
  attempts : l.attempts s'.world = l.attempts s.world ++ tried
  closes : l.closes s'.world = l.closes s.world ++ closed

/-- Nothing is added. -/
def Keeps (l : Ledger W) (s s' : Session R W) : Prop := l.Adds s s' [] []

theorem Keeps.of_world (h : s'.world = s.world) : l.Keeps s s' :=
  ⟨by rw [h, List.append_nil], by rw [h, List.append_nil]⟩

theorem Adds.trans (h : l.Adds s s' tried closed) (h' : l.Adds s' s'' tried' closed') :
    l.Adds s s'' (tried ++ tried') (closed ++ closed') :=
  ⟨by rw [h'.attempts, h.attempts, List.append_assoc],
    by rw [h'.closes, h.closes, List.append_assoc]⟩

theorem Keeps.trans (h : l.Keeps s s') (h' : l.Keeps s' s'') : l.Keeps s s'' := Adds.trans h h'

/-- Since some state, only consumers with some numbers were closed. -/
structure Since (l : Ledger W) (s s' : Session R W) (numbers : List Nat) : Prop where
  attempts : l.attempts s.world <+: l.attempts s'.world
  others : ∀ k, k ∉ numbers → (l.closes s'.world).count k = (l.closes s.world).count k

theorem Since.adds {numbers : List Nat} (h : l.Since s s' numbers)
    (hadds : l.Adds s' s'' tried closed) (hclosed : ∀ k ∈ closed, k ∈ numbers) :
    l.Since s s'' numbers where
  attempts := hadds.attempts ▸ h.attempts.trans (List.prefix_append _ _)
  others k hk := by
    have hnone : k ∉ closed := fun hmem => hk (hclosed k hmem)
    rw [hadds.closes, List.count_append, List.count_eq_zero_of_not_mem hnone]
    exact h.others k hk

theorem Since.mono {numbers numbers' : List Nat} (h : l.Since s s' numbers)
    (hsub : numbers ⊆ numbers') : l.Since s s' numbers' :=
  ⟨h.attempts, fun k hk => h.others k fun hmem => hk (hsub hmem)⟩

/-- A consumer that has a number: its close is put on record, and nothing else. -/
structure Owns (l : Ledger W) (c : Consumer (Session R W)) (k : Nat) : Prop where
  poll : ∀ timeout limit answer (s s' : Session R W),
    (c.poll timeout limit).run s = (answer, s') → l.Keeps s s'
  commit : ∀ offsets answer (s s' : Session R W),
    (c.commit offsets).run s = (answer, s') → l.Keeps s s'
  rewind : ∀ positions answer (s s' : Session R W),
    (c.rewind positions).run s = (answer, s') → l.Keeps s s'
  close : ∀ answer (s s' : Session R W), c.close.run s = (answer, s') → l.Adds s s' [] [k]

/-- A consumer has one number only. -/
theorem Owns.unique {c : Consumer (Session R W)} {k k' : Nat} (h : l.Owns c k) (h' : l.Owns c k')
    (s : Session R W) : k = k' := by
  have hclose := (h.close _ s _ rfl).closes
  rw [(h'.close _ s _ rfl).closes] at hclose
  exact (List.singleton_inj.1 (List.append_cancel_left hclose)).symm

end Ledger

/-! ### One worker -/

namespace Worker

variable {l : Ledger W} {w : Worker D (Session R W)} {k : Nat} {signalled : Bool}
  {phase phase' : WorkerPhase (Session R W)} {s s' : Session R W}

/-- How often a worker has closed its consumer. -/
def closings : WorkerPhase (Session R W) → Nat
  | .closed => 1
  | _ => 0

/-- The handlers that are still to be called leave the record as it is. -/
def Calm (l : Ledger W) : WorkerPhase (Session R W) → Prop
  | .handling _ _ _ _ calls => ∀ call ∈ calls, call.Respects l.Keeps
  | _ => True

/-- The handlers of the worker's group leave the record as it is. -/
def CalmHandlers (l : Ledger W) (w : Worker D (Session R W)) : Prop :=
  ∀ typeName, ∀ h ∈ w.registry.streamHandlers w.group typeName, ∀ values event,
    (h.2.run values event).Respects l.Keeps

theorem calm_wake (h : Calm l phase) : Calm l (wake phase) := by
  cases phase with
  | pausing => trivial
  | _ => exact h

theorem closings_wake (phase : WorkerPhase (Session R W)) :
    closings (wake phase) = closings phase := by
  cases phase with
  | _ => rfl

/-- What a step puts on record: the close, if it makes one. -/
theorem Stepped.adds (hstep : w.Stepped signalled phase s phase' s') (howns : l.Owns w.consumer k)
    (hhandlers : w.CalmHandlers l) (hcalm : Calm l phase) :
    Calm l phase' ∧
      ∃ n, l.Adds s s' [] (List.replicate n k) ∧ closings phase' = closings phase + n := by
  have hafter (next : AfterCommit) : Calm (R := R) l (afterCommit next) ∧
      closings (R := R) (W := W) (afterCommit next) = 0 := by
    cases next with
    | _ => exact ⟨trivial, rfl⟩
  have hsame {u : Session R W} (h : u.world = s.world) : l.Keeps s u := .of_world h
  have hcounted {u u' : Session R W} (h : l.Keeps s u) (hworld : u'.world = u.world) :
      l.Keeps s u' := h.trans (.of_world hworld)
  cases hstep with
  | signalled | waiting | abandoned | completed | interrupted | skipped | faulty | processed
  | pausing | awoken | closed => exact ⟨trivial, 0, hsame rfl, rfl⟩
  | unanswered hpoll | nothing hpoll | delivered _ hpoll =>
    exact ⟨trivial, 0, howns.poll _ _ _ _ _ hpoll, rfl⟩
  | pollFailed hpoll => exact ⟨trivial, 0, hcounted (howns.poll _ _ _ _ _ hpoll) rfl, rfl⟩
  | dispatched _ _ _ hdelivery =>
    have hcalls := Registry.delivery_respects (fun s => Ledger.Keeps.of_world (s := s) rfl)
      (fun h h' => h.trans h') hhandlers hdelivery
    exact ⟨hcalls, 0, hsame rfl, rfl⟩
  | called _ _ _ _ _ _ hrun =>
    have hkeeps := (hcalm _ List.mem_cons_self).run hrun
    exact ⟨fun call hcall => hcalm call (List.mem_cons_of_mem _ hcall), 0, hkeeps, rfl⟩
  | callFailed _ _ _ _ _ _ hrun =>
    have hkeeps := (hcalm _ List.mem_cons_self).run hrun
    exact ⟨trivial, 0, hcounted hkeeps rfl, rfl⟩
  | uncommitted _ next => exact ⟨(hafter next).1, 0, hsame rfl, (hafter next).2⟩
  | committed _ next _ hcommit =>
    have hkeeps := howns.commit _ _ _ _ hcommit
    exact ⟨(hafter next).1, 0, hcounted hkeeps rfl, (hafter next).2⟩
  | commitFailed _ next _ hcommit =>
    exact ⟨(hafter next).1, 0, howns.commit _ _ _ _ hcommit, (hafter next).2⟩
  | rewound _ hrewind =>
    have hkeeps := howns.rewind _ _ _ _ hrewind
    exact ⟨trivial, 0, hcounted hkeeps rfl, rfl⟩
  | closing _ hclose => exact ⟨trivial, 1, howns.close _ _ _ hclose, rfl⟩

/-- A number of steps of a signalled worker. -/
theorem stepSignalled_adds (howns : l.Owns w.consumer k) (hhandlers : w.CalmHandlers l)
    (hcalm : Calm l phase) (m : Nat) (hrun : (w.stepSignalled m phase).run s = (phase', s')) :
    Calm l phase' ∧ untilClosed phase' ≤ untilClosed phase - m ∧
      ∃ n, l.Adds s s' [] (List.replicate n k) ∧ closings phase' = closings phase + n := by
  induction m generalizing phase s with
  | zero =>
    cases hrun
    exact ⟨hcalm, Nat.le_refl _, 0, Ledger.Keeps.of_world rfl, rfl⟩
  | succ m ih =>
    have hstep := w.stepped true phase s
    obtain ⟨hcalm', n, hadds, hcount⟩ := hstep.adds howns hhandlers hcalm
    obtain ⟨hcalm'', hle, n', hadds', hcount'⟩ := ih hcalm' hrun
    have hnearer := hstep.untilClosed_le
    refine ⟨hcalm'', by omega, n + n', ?_, by omega⟩
    rw [← List.replicate_append_replicate]
    exact hadds.trans hadds'

/-- A worker that is signalled closes its consumer, unless it has done so before. -/
theorem finish_closes (howns : l.Owns w.consumer k) (hhandlers : w.CalmHandlers l)
    (hcalm : Calm l phase) (s : Session R W) :
    ∃ s' n, (w.finish phase).run s = (.closed, s') ∧ l.Adds s s' [] (List.replicate n k) ∧
      1 = closings phase + n := by
  rcases hrun : (w.finish phase).run s with ⟨phase', s'⟩
  obtain ⟨-, hle, n, hadds, hcount⟩ := stepSignalled_adds howns hhandlers hcalm _ hrun
  -- there are enough steps
  have henough : untilClosed phase ≤ stepsToClose phase := by
    cases phase with
    | handling => exact Nat.le_succ _
    | _ => simp [untilClosed, stepsToClose]
  have hclosed : phase' = .closed := untilClosed_eq_zero (by omega)
  subst hclosed
  exact ⟨s', n, rfl, hadds, hcount⟩

end Worker

end Chronicle
