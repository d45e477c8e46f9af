/-
Chronicle/Proofs/CriticalSection/Visitors.lean

Visitors of one critical section.

A visitor has one ticket at a time, or none: its place is the key and the phase of
that ticket.  `Visited s id place` says that the tickets of a table are exactly
those of its visitors, who are all on one id.  Every step of a visitor moves it to
another place and leaves the others where they are.

Two things follow for a section that is visited.  One visitor at most holds it
(`Visited.holding_unique`).  And if all visitors in it wait, one of them can go on
(`Visited.exists_obtain`).
-/
import Chronicle.Proofs.CriticalSection.Exclusion
import Mathlib.Logic.Function.Basic

namespace Chronicle.CriticalSections

variable {ι : Type} {s s' : CriticalSections} {id : Uuid} {place : ι → Option (Nat × Phase)}

/-- No two visitors have the same ticket. -/
def OwnTickets (place : ι → Option (Nat × Phase)) : Prop :=
  ∀ i j key phase phase', place i = some (key, phase) → place j = some (key, phase') → i = j

/-- A visitor may change its ticket to one that nobody else has. -/
theorem OwnTickets.update [DecidableEq ι] (h : OwnTickets place) {i : ι}
    {next : Option (Nat × Phase)}
    (hnext : ∀ key phase, next = some (key, phase) → ∀ j phase', j ≠ i →
      place j ≠ some (key, phase')) : OwnTickets (Function.update place i next) := by
  intro j k key phase phase' hj hk
  by_cases hji : j = i
  · by_cases hki : k = i
    · rw [hji, hki]
    · rw [hji, Function.update_self] at hj
      rw [Function.update_of_ne hki] at hk
      exact absurd hk (hnext key phase hj k phase' hki)
  · rw [Function.update_of_ne hji] at hj
    by_cases hki : k = i
    · rw [hki, Function.update_self] at hk
      exact absurd hj (hnext key phase' hk j phase hji)
    · rw [Function.update_of_ne hki] at hk
      exact h j k key phase phase' hj hk

/-- All tickets are of visitors, who are at their places. -/
structure Visited (s : CriticalSections) (id : Uuid) (place : ι → Option (Nat × Phase)) :
    Prop where
  reachable : s.Reachable
  ticket : ∀ i key phase, place i = some (key, phase) →
    ∃ t ∈ s.tickets, t.key = key ∧ t.id = id ∧ t.phase = phase
  visitor : ∀ t ∈ s.tickets, ∃ i, place i = some (t.key, t.phase)
  own : OwnTickets place

theorem visited_none (hs : s.Reachable) (h : s.tickets = []) :
    s.Visited id fun _ : ι => none where
  reachable := hs
  ticket := nofun
  visitor t ht := by
    rw [h] at ht
    cases ht
  own := nofun

/-! ### What a visitor finds -/

namespace Visited

variable (hs : s.Visited id place) {i j : ι} {key : Nat} {phase : Phase}

include hs

theorem ticket? (hi : place i = some (key, phase)) :
    ∃ t, s.ticket? key = some t ∧ t ∈ s.tickets ∧ t.key = key ∧ t.phase = phase := by
  obtain ⟨t, ht, rfl, -, hphase⟩ := hs.ticket i key phase hi
  exact ⟨t, hs.reachable.counted.ticket? ht, ht, rfl, hphase⟩

/-- One visitor at most holds the section. -/
theorem holding_unique {key' : Nat} (hi : place i = some (key, .holding))
    (hj : place j = some (key', .holding)) : i = j := by
  obtain ⟨t, ht, hkey, hid, hholds⟩ := hs.ticket i key .holding hi
  obtain ⟨u, hu, hkey', hid', hholds'⟩ := hs.ticket j key' .holding hj
  obtain rfl := hs.reachable.holding_unique ht hu (hid.trans hid'.symm) hholds hholds'
  obtain rfl : key = key' := hkey.symm.trans hkey'
  exact hs.own i j key .holding .holding hi hj

/-- If nobody visits the section, the table is empty. -/
theorem table_eq_nil (h : ∀ i, place i = none) : s.table = [] := by
  have htickets : s.tickets = [] := by
    refine List.eq_nil_iff_forall_not_mem.2 fun t ht => ?_
    obtain ⟨i, hi⟩ := hs.visitor t ht
    rw [h i] at hi
    cases hi
  have hsize := hs.reachable.size_eq
  rw [htickets] at hsize
  exact List.length_eq_zero_iff.1 hsize

/-! ### What a visitor can do -/

theorem exists_queue (hi : place i = some (key, .registered)) :
    ∃ s', s.step? (.queue key) = some s' := by
  obtain ⟨t, ht, -, -, hphase⟩ := hs.ticket? hi
  have hstep : s.step? (.queue key) = s.queue? t := by
    show (s.ticket? key).bind s.queue? = _
    rw [ht, Option.bind_some]
  exact ⟨_, hstep.trans (if_pos hphase)⟩

theorem exists_unlock (hi : place i = some (key, .holding)) :
    ∃ s', s.step? (.unlock key) = some s' := by
  obtain ⟨t, ht, -, -, hphase⟩ := hs.ticket? hi
  have hstep : s.step? (.unlock key) = s.unlock? t := by
    show (s.ticket? key).bind s.unlock? = _
    rw [ht, Option.bind_some]
  exact ⟨_, hstep.trans (if_pos hphase)⟩

theorem exists_leave (hi : place i = some (key, .released)) :
    ∃ s', s.step? (.leave key) = some s' := by
  obtain ⟨t, ht, hmem, -, hphase⟩ := hs.ticket? hi
  obtain ⟨holders, hslot⟩ := hs.reachable.counted.slot hmem
  have hstep : s.step? (.leave key) = s.leave? t := by
    show (s.ticket? key).bind s.leave? = _
    rw [ht, Option.bind_some]
  rw [hstep]
  by_cases hone : holders = 1
  · subst hone
    exact ⟨_, leave?_last hphase hslot⟩
  · exact ⟨_, leave?_more hphase hslot hone⟩

/-- When all who are in the section wait, the first in the line is granted it. -/
theorem exists_obtain (hi : place i = some (key, .queued))
    (hall : ∀ j key phase, place j = some (key, phase) → phase = .queued) :
    ∃ j key' s', place j = some (key', .queued) ∧ s.step? (.obtain key') = some s' := by
  obtain ⟨t, ht, -, -, hphase⟩ := hs.ticket i key .queued hi
  have hline := hs.reachable.lined.queued t ht (.inl hphase)
  rcases hfind : s.line.find? (fun e => e.1 == t.mutex) with _ | e
  · have hnone := List.find?_eq_none.1 hfind _ hline
    exact absurd (beq_self_eq_true t.mutex) hnone
  · -- the first in the line of the mutex is a visitor who waits
    obtain ⟨u, hu, -, rfl⟩ := hs.reachable.lined.tickets e (List.mem_of_find?_eq_some hfind)
    have hmutex : u.mutex = t.mutex := by simpa using List.find?_some hfind
    obtain ⟨j, hj⟩ := hs.visitor u hu
    have hqueued := hall j u.key u.phase hj
    rw [hqueued] at hj
    obtain ⟨v, hv, hmem, hkey, -⟩ := hs.ticket? hj
    obtain rfl := hs.reachable.counted.unique hmem hu hkey
    have hgranted : s.granted? v.mutex = some v.key := by
      rw [granted?, hmutex, hfind]
      rfl
    refine ⟨j, v.key, s.setPhase v.key .holding, hj, ?_⟩
    show (s.ticket? v.key).bind s.obtain? = _
    rw [hv, Option.bind_some, obtain?, if_pos ⟨hqueued, hgranted⟩]

/-! ### The others -/

/-- Nobody else has the ticket of a visitor. -/
theorem place_ne (hi : place i = some (key, phase)) (hji : j ≠ i) (phase' : Phase) :
    place j ≠ some (key, phase') :=
  fun hj => hji (hs.own j i key phase' phase hj hi)

theorem ticket_of_ne (hi : place i = some (key, phase)) (hji : j ≠ i) {key' : Nat}
    {phase' : Phase} (hj : place j = some (key', phase')) :
    ∃ u ∈ s.tickets, u.key ≠ key ∧ u.key = key' ∧ u.id = id ∧ u.phase = phase' := by
  obtain ⟨u, hu, rfl, h⟩ := hs.ticket j key' phase' hj
  have hne : u.key ≠ key := by
    rintro rfl
    exact hs.place_ne hi hji phase' hj
  exact ⟨u, hu, hne, rfl, h⟩

theorem visitor_of_ne (hi : place i = some (key, phase)) {u : Ticket} (hu : u ∈ s.tickets)
    (hne : u.key ≠ key) : ∃ j, j ≠ i ∧ place j = some (u.key, u.phase) := by
  obtain ⟨j, hj⟩ := hs.visitor u hu
  refine ⟨j, ?_, hj⟩
  rintro rfl
  exact hne (Prod.mk.inj (Option.some.inj (hj.symm.trans hi))).1

/-! ### Steps -/

variable [DecidableEq ι]

/-- A visitor who comes gets a new ticket. -/
theorem register (hi : place i = none) :
    (s.register id).Visited id (Function.update place i (some (s.nextTicket, .registered))) := by
  obtain ⟨slot, -, htickets⟩ := tickets_register s id
  have hreachable : (s.register id).Reachable := hs.reachable.step (.register id) rfl
  refine ⟨hreachable, fun j key phase hj => ?_, fun t ht => ?_, hs.own.update ?_⟩
  · rw [htickets]
    by_cases hij : j = i
    · rw [hij, Function.update_self] at hj
      cases hj
      exact ⟨_, List.mem_append_right _ List.mem_cons_self, rfl, rfl, rfl⟩
    · rw [Function.update_of_ne hij] at hj
      obtain ⟨t, ht, h⟩ := hs.ticket j key phase hj
      exact ⟨t, List.mem_append_left _ ht, h⟩
  · rw [htickets] at ht
    rcases List.mem_append.1 ht with ht | ht
    · obtain ⟨j, hj⟩ := hs.visitor t ht
      have hij : j ≠ i := by
        rintro rfl
        rw [hi] at hj
        cases hj
      exact ⟨j, by rw [Function.update_of_ne hij, hj]⟩
    · rw [List.mem_singleton.1 ht]
      exact ⟨i, Function.update_self ..⟩
  · -- the key was never given before
    rintro key phase ⟨⟩ j phase' - hj
    obtain ⟨t, ht, hkey, -⟩ := hs.ticket j s.nextTicket phase' hj
    exact absurd hkey (Nat.ne_of_lt (hs.reachable.wellFormed.tickets t ht))

/-- A visitor whose ticket is moved to a phase. -/
theorem move (hi : place i = some (key, phase)) {phase' : Phase} (hs' : s'.Reachable)
    (htickets : s'.tickets = (s.setPhase key phase').tickets) :
    s'.Visited id (Function.update place i (some (key, phase'))) := by
  obtain ⟨t, ht, rfl, hid, -⟩ := hs.ticket i key phase hi
  refine ⟨hs', fun j key phase hj => ?_, fun u hu => ?_, hs.own.update ?_⟩
  · rw [htickets]
    by_cases hji : j = i
    · rw [hji, Function.update_self] at hj
      cases hj
      exact ⟨_, mem_setPhase_self ht phase', rfl, hid, rfl⟩
    · rw [Function.update_of_ne hji] at hj
      obtain ⟨u, hu, hne, rfl, h⟩ := hs.ticket_of_ne hi hji hj
      exact ⟨u, mem_setPhase_of_ne hu hne phase', rfl, h⟩
  · rw [htickets] at hu
    rcases hs.reachable.counted.of_mem_setPhase ht hu with rfl | ⟨hu, hne⟩
    · exact ⟨i, Function.update_self ..⟩
    · obtain ⟨j, hji, hj⟩ := hs.visitor_of_ne hi hu hne
      exact ⟨j, by rw [Function.update_of_ne hji, hj]⟩
  · -- the key is the same as before
    rintro key phase ⟨⟩ j phase'' hji
    exact hs.place_ne hi hji phase''

theorem queue (hi : place i = some (key, phase)) (h : s.step? (.queue key) = some s') :
    s'.Visited id (Function.update place i (some (key, .queued))) := by
  cases stepped h with
  | queue => exact hs.move hi (hs.reachable.step _ h) rfl

theorem obtain (hi : place i = some (key, phase)) (h : s.step? (.obtain key) = some s') :
    s'.Visited id (Function.update place i (some (key, .holding))) := by
  cases stepped h with
  | obtain => exact hs.move hi (hs.reachable.step _ h) rfl

theorem unlock (hi : place i = some (key, phase)) (h : s.step? (.unlock key) = some s') :
    s'.Visited id (Function.update place i (some (key, .released))) := by
  cases stepped h with
  | unlock => exact hs.move hi (hs.reachable.step _ h) rfl

/-- A visitor who leaves gives its ticket back. -/
theorem leave (hi : place i = some (key, phase)) (h : s.step? (.leave key) = some s') :
    s'.Visited id (Function.update place i none) := by
  have hreachable := hs.reachable.step _ h
  cases stepped h with
  | @leave t _ ht _ hleave =>
    obtain ⟨htickets, -⟩ := leave?_eq_some hs.reachable.counted ht hleave
    refine ⟨hreachable, fun j key phase hj => ?_, fun u hu => ?_, hs.own.update nofun⟩
    · rw [htickets]
      by_cases hji : j = i
      · rw [hji, Function.update_self] at hj
        cases hj
      · rw [Function.update_of_ne hji] at hj
        obtain ⟨u, hu, hne, rfl, h⟩ := hs.ticket_of_ne hi hji hj
        exact ⟨u, List.mem_filter.2 ⟨hu, decide_eq_true hne⟩, rfl, h⟩
    · rw [htickets] at hu
      obtain ⟨hu, hne⟩ := List.mem_filter.1 hu
      obtain ⟨j, hji, hj⟩ := hs.visitor_of_ne hi hu (of_decide_eq_true hne)
      exact ⟨j, by rw [Function.update_of_ne hji, hj]⟩

end Visited

end Chronicle.CriticalSections
