/-
Chronicle/Proofs/CriticalSection/Line.lean

Places in the line of waiting and holding tickets.

A mutex serves one id only (`Reachable.id_of_mutex`), so the queue of a mutex is the
queue of an id.  In `Queued` tables every ticket stands in the line, in the order in
which the tickets came.  The mutex of an id is then granted to the ticket of that id
that came first (`Queued.granted_iff`), whoever has left the line in between.
-/
import Chronicle.Proofs.CriticalSection.Exclusion

namespace Chronicle.CriticalSections

variable {s s' : CriticalSections} {t : Ticket}

/-! ### One mutex, one id -/

/-- Mutexes are given to ids one after the other. -/
structure Keyed (s : CriticalSections) : Prop where
  given : ∀ t ∈ s.tickets, t.mutex < s.nextMutex
  id : ∀ t ∈ s.tickets, ∀ u ∈ s.tickets, t.mutex = u.mutex → t.id = u.id

theorem Keyed.congr (hs : s.Keyed) (hnext : s'.nextMutex = s.nextMutex)
    (hbadges : ∀ t ∈ s'.tickets, t.badge ∈ s.tickets.map Ticket.badge) : s'.Keyed := by
  have hold {t : Ticket} (ht : t ∈ s'.tickets) :
      ∃ u ∈ s.tickets, u.id = t.id ∧ u.mutex = t.mutex := by
    obtain ⟨u, hu, hbadge⟩ := List.mem_map.1 (hbadges t ht)
    simp only [Ticket.badge, Prod.mk.injEq] at hbadge
    exact ⟨u, hu, hbadge.2⟩
  refine ⟨fun t ht => ?_, fun t ht u hu h => ?_⟩
  · obtain ⟨v, hv, -, hmutex⟩ := hold ht
    rw [hnext, ← hmutex]
    exact hs.given v hv
  · obtain ⟨v, hv, hid, hmutex⟩ := hold ht
    obtain ⟨w, hw, hid', hmutex'⟩ := hold hu
    rw [← hid, ← hid']
    exact hs.id v hv w hw (hmutex.trans (h.trans hmutex'.symm))

theorem Keyed.register (hs : s.Keyed) (hr : s.Reachable) (id : Uuid) :
    (s.register id).Keyed := by
  rcases hslot : s.slot? id with _ | slot
  · -- the mutex of the new entry was never given before
    have hregister : s.register id = { s with
        table := s.table ++ [(id, ⟨s.nextMutex, 1⟩)]
        tickets := s.tickets ++ [⟨s.nextTicket, id, s.nextMutex, .registered⟩]
        nextMutex := s.nextMutex + 1
        nextTicket := s.nextTicket + 1 } := by
      rw [CriticalSections.register, hslot]
    rw [hregister]
    refine ⟨fun t ht => ?_, fun t ht u hu h => ?_⟩
    · rcases List.mem_append.1 ht with ht | ht
      · exact Nat.lt_succ_of_lt (hs.given t ht)
      · rw [List.mem_singleton.1 ht]
        exact Nat.lt_succ_self _
    · rcases List.mem_append.1 ht with ht | ht
      · rcases List.mem_append.1 hu with hu | hu
        · exact hs.id t ht u hu h
        · rw [List.mem_singleton.1 hu] at h
          exact absurd h (Nat.ne_of_lt (hs.given t ht))
      · rcases List.mem_append.1 hu with hu | hu
        · rw [List.mem_singleton.1 ht] at h
          exact absurd h.symm (Nat.ne_of_lt (hs.given u hu))
        · rw [List.mem_singleton.1 ht, List.mem_singleton.1 hu]
  · -- somebody on the id has the mutex already
    obtain ⟨v, hv, hid⟩ := (hr.isSome_slot?_iff id).1 (Option.isSome_iff_exists.2 ⟨slot, hslot⟩)
    have hmutex : v.mutex = slot.mutex := by
      have h := hr.counted.mutex v hv
      rw [hid, hslot] at h
      exact (Option.some.inj h).symm
    have htickets : (s.register id).tickets =
        s.tickets ++ [⟨s.nextTicket, id, slot.mutex, .registered⟩] := by
      rw [CriticalSections.register, hslot]
    have hnext : (s.register id).nextMutex = s.nextMutex := by
      rw [CriticalSections.register, hslot]
      rfl
    refine ⟨fun t ht => ?_, fun t ht u hu h => ?_⟩
    · rw [hnext]
      rw [htickets] at ht
      rcases List.mem_append.1 ht with ht | ht
      · exact hs.given t ht
      · rw [List.mem_singleton.1 ht, ← hmutex]
        exact hs.given v hv
    · rw [htickets] at ht hu
      have hlike {w : Ticket}
          (hw : w ∈ s.tickets ++ [⟨s.nextTicket, id, slot.mutex, .registered⟩]) :
          ∃ w' ∈ s.tickets, w'.id = w.id ∧ w'.mutex = w.mutex := by
        rcases List.mem_append.1 hw with hw | hw
        · exact ⟨w, hw, rfl, rfl⟩
        · rw [List.mem_singleton.1 hw]
          exact ⟨v, hv, hid, hmutex⟩
      obtain ⟨t', ht', hidt, hmutext⟩ := hlike ht
      obtain ⟨u', hu', hidu, hmutexu⟩ := hlike hu
      rw [← hidt, ← hidu]
      exact hs.id t' ht' u' hu' (hmutext.trans (h.trans hmutexu.symm))

theorem nextMutex_leave? (h : s.leave? t = some s') : s'.nextMutex = s.nextMutex := by
  unfold leave? at h
  split at h
  · split at h
    · split at h
      · cases h
        rfl
      · cases h
        rfl
    · cases h
      rfl
  · cases h

theorem Reachable.keyed (hs : s.Reachable) : s.Keyed := by
  induction hs with
  | empty => exact ⟨fun _ h => absurd h List.not_mem_nil, fun _ h => absurd h List.not_mem_nil⟩
  | @step s s' a hs h ih =>
    have hphase {key : Nat} {phase : Phase} {s' : CriticalSections}
        (htickets : s'.tickets = (s.setPhase key phase).tickets) (t : Ticket)
        (ht : t ∈ s'.tickets) : t.badge ∈ s.tickets.map Ticket.badge := by
      rw [← badges_setPhase s key phase, ← htickets]
      exact List.mem_map_of_mem ht
    cases stepped h with
    | register id => exact ih.register hs id
    | queue => exact ih.congr rfl (hphase rfl)
    | obtain => exact ih.congr rfl (hphase rfl)
    | unlock => exact ih.congr rfl (hphase rfl)
    | abandon => exact ih.congr rfl (hphase rfl)
    | leave ht _ h =>
      refine ih.congr (nextMutex_leave? h) fun u hu => ?_
      rw [(leave?_eq_some hs.counted ht h).1] at hu
      exact List.mem_map_of_mem (List.mem_filter.1 hu).1

/-- The tickets with one mutex are those on one id. -/
theorem Reachable.mutex_eq_iff (hs : s.Reachable) {u : Ticket} (ht : t ∈ s.tickets)
    (hu : u ∈ s.tickets) : t.mutex = u.mutex ↔ t.id = u.id := by
  refine ⟨hs.keyed.id t ht u hu, fun hid => ?_⟩
  have h := hs.counted.mutex t ht
  rw [hid, hs.counted.mutex u hu] at h
  exact (Option.some.inj h).symm

/-! ### Who holds -/

theorem isHeld_iff {key : Nat} :
    s.isHeld key ↔ ∃ t ∈ s.tickets, t.key = key ∧ t.phase = .holding := by
  simp [isHeld]

theorem Counted.isHeld_iff (hs : s.Counted) (ht : t ∈ s.tickets) :
    s.isHeld t.key ↔ t.phase = .holding := by
  rw [CriticalSections.isHeld_iff]
  refine ⟨?_, fun h => ⟨t, ht, rfl, h⟩⟩
  rintro ⟨u, hu, hkey, hholds⟩
  rw [← hs.unique hu ht hkey]
  exact hholds

theorem isHeld_setPhase_of_ne {key key' : Nat} (h : key' ≠ key) (phase : Phase) :
    (s.setPhase key phase).isHeld key' = s.isHeld key' := by
  rw [isHeld, isHeld, setPhase, List.any_map]
  congr 1
  funext t
  by_cases hkey : t.key = key
  · have hne : (t.key == key') = false := beq_eq_false_iff_ne.2 fun heq => h (heq.symm.trans hkey)
    simp [hkey, hkey ▸ hne]
  · simp [hkey]

/-! ### Tickets that all stand in the line -/

/-- Everybody waits or holds, and the line is in the order of the tickets. -/
structure Queued (s : CriticalSections) : Prop where
  reachable : s.Reachable
  inLine : ∀ t ∈ s.tickets, t.InLine
  line : s.line = s.tickets.map fun t => (t.mutex, t.key)

theorem queued_empty : Queued empty :=
  ⟨.empty, fun _ h => absurd h List.not_mem_nil, rfl⟩

/-- The mutex of an id is granted to the ticket that came first of those on the id. -/
theorem Queued.granted?_eq (hs : s.Queued) (ht : t ∈ s.tickets) :
    s.granted? t.mutex = (s.tickets.find? fun u => u.id == t.id).map Ticket.key := by
  have hmutex : s.tickets.find? (fun u => u.mutex == t.mutex) =
      s.tickets.find? fun u => u.id == t.id := by
    rw [← List.head?_filter, ← List.head?_filter]
    congr 1
    refine List.filter_congr fun u hu => ?_
    rw [Bool.eq_iff_iff, beq_iff_eq, beq_iff_eq, hs.reachable.mutex_eq_iff hu ht]
  rw [granted?, hs.line, List.find?_map, Option.map_map, ← hmutex]
  rfl

/-- A new ticket stands behind all others. -/
theorem Queued.join (hs : s.Queued) (id : Uuid) :
    ∃ mutex, let s' := s.perform [.register id, .queue s.nextTicket]
      s'.Queued ∧ s'.tickets = s.tickets ++ [⟨s.nextTicket, id, mutex, .queued⟩] := by
  obtain ⟨mutex, hjoined⟩ := hs.reachable.wellFormed.join id
  refine ⟨mutex, ⟨hs.reachable.perform _, fun t ht => ?_, ?_⟩, hjoined.tickets⟩
  · rw [hjoined.tickets] at ht
    rcases List.mem_append.1 ht with ht | ht
    · exact hs.inLine t ht
    · rw [List.mem_singleton.1 ht]
      exact .inl rfl
  · rw [hjoined.line, hjoined.tickets, hs.line, List.map_append]
    rfl

theorem Queued.perform_obtain (hs : s.Queued) (ht : t ∈ s.tickets) (hphase : t.phase = .queued)
    (hgranted : s.granted? t.mutex = some t.key) :
    s.perform [.obtain t.key] = s.setPhase t.key .holding ∧
      (s.setPhase t.key .holding).Queued := by
  have hperform : s.perform [.obtain t.key] = s.setPhase t.key .holding := by
    rw [CriticalSections.perform_obtain (hs.reachable.counted.ticket? ht) hphase, if_pos hgranted]
  refine ⟨hperform, hperform ▸ hs.reachable.perform _, fun u hu => ?_, ?_⟩
  · rcases hs.reachable.counted.of_mem_setPhase ht hu with rfl | ⟨hu, -⟩
    · exact .inr rfl
    · exact hs.inLine u hu
  · show s.line = _
    rw [hs.line, setPhase, List.map_map]
    refine List.map_congr_left fun u _ => ?_
    by_cases hkey : u.key = t.key <;> simp [hkey]

/-- Whoever leaves, from whatever place in the line, keeps the others in order. -/
theorem Queued.exit (hs : s.Queued) (ht : t ∈ s.tickets) :
    (s.exit t.key).Queued ∧
      (s.exit t.key).tickets = s.tickets.filter fun u => u.key ≠ t.key := by
  have hc := hs.reachable.counted
  have hfind := hc.ticket? ht
  obtain ⟨hreleased, -⟩ := mem_of_ticket? (ticket?_dropOut hfind)
  -- the registration is there to be given back
  obtain ⟨holders, hslot⟩ := hc.slot ht
  obtain ⟨s', hleave⟩ : ∃ s', (s.dropOut t).leave? { t with phase := .released } = some s' := by
    by_cases hone : holders = 1
    · subst hone
      exact ⟨_, leave?_last rfl hslot⟩
    · exact ⟨_, leave?_more rfl hslot hone⟩
  obtain ⟨htickets, hline, -, -⟩ := leave?_eq_some (hc.dropOut t) hreleased hleave
  have hexit : s.exit t.key = s' := by
    rw [exit_eq hfind (hs.inLine t ht), hleave, Option.getD_some]
  have hothers : s'.tickets = s.tickets.filter fun u => u.key ≠ t.key := by
    rw [htickets]
    show ((s.tickets.map _).filter _) = _
    rw [List.filter_map]
    have hkeys : ((fun u : Ticket => decide (u.key ≠ t.key)) ∘
        fun u => if u.key = t.key then { u with phase := .released } else u) =
        fun u => decide (u.key ≠ t.key) := by
      funext u
      by_cases hkey : u.key = t.key <;> simp [hkey]
    rw [hkeys]
    refine (List.map_congr_left fun u hu => ?_).trans (List.map_id _)
    exact if_neg (of_decide_eq_true (List.mem_filter.1 hu).2)
  rw [hexit]
  refine ⟨⟨hexit ▸ hs.reachable.perform _, fun u hu => ?_, ?_⟩, hothers⟩
  · rw [hothers] at hu
    exact hs.inLine u (List.mem_filter.1 hu).1
  · rw [hline, hothers]
    show (s.line.filter _) = _
    rw [hs.line, List.filter_map]
    rfl

end Chronicle.CriticalSections
