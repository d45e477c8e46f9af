/-
Chronicle/Proofs/CriticalSection/Occupancy.lean

Who occupies the critical sections, and that a visit leaves no trace.

`CriticalSections.WellFormed` holds of every table that single steps lead to,
whoever takes them in whatever order: ids have one entry each, no entry without
a holder is kept, and no ticket has the number that is given next.

Main result: whoever enters the section of an id and leaves it again, having it
obtained or not, leaves the table, the tickets and the queues as they were
(`Joined.exit`).
-/
import Chronicle.CriticalSection.Table
import Mathlib.Data.List.Nodup

namespace Chronicle.CriticalSections

/-! ### Reachable tables -/

/-- The tables that any interleaving of steps leads to. -/
inductive Reachable : CriticalSections → Prop
  | empty : Reachable empty
  | step {s s' : CriticalSections} (a : Step) :
      Reachable s → s.step? a = some s' → Reachable s'

/-- What holds of every reachable table. -/
structure WellFormed (s : CriticalSections) : Prop where
  ids : (s.table.map Prod.fst).Nodup
  holders : ∀ e ∈ s.table, 0 < e.2.holders
  tickets : ∀ t ∈ s.tickets, t.key < s.nextTicket
  line : ∀ e ∈ s.line, e.2 < s.nextTicket

theorem wellFormed_empty : WellFormed empty :=
  ⟨.nil, fun _ h => absurd h List.not_mem_nil, fun _ h => absurd h List.not_mem_nil,
    fun _ h => absurd h List.not_mem_nil⟩

/-! ### Entries -/

theorem mem_of_slot? {s : CriticalSections} {id : Uuid} {slot : Slot}
    (h : s.slot? id = some slot) : (id, slot) ∈ s.table := by
  obtain ⟨e, he, rfl⟩ := Option.map_eq_some_iff.1 h
  have hid : e.1 = id := by simpa using List.find?_some he
  rw [← hid]
  exact List.mem_of_find?_eq_some he

theorem slot?_eq_none_iff {s : CriticalSections} {id : Uuid} :
    s.slot? id = none ↔ ∀ e ∈ s.table, e.1 ≠ id := by
  simp [slot?]

/-- Changing the entry of an id keeps all ids. -/
theorem ids_setSlot (s : CriticalSections) (id : Uuid) (slot : Slot) :
    (s.setSlot id slot).table.map Prod.fst = s.table.map Prod.fst := by
  simp only [setSlot, List.map_map]
  apply List.map_congr_left
  intro e _
  by_cases h : e.1 = id <;> simp [h]

theorem setSlot_setSlot (s : CriticalSections) (id : Uuid) (slot slot' : Slot) :
    (s.setSlot id slot).setSlot id slot' = s.setSlot id slot' := by
  simp only [setSlot, List.map_map]
  congr 1
  apply List.map_congr_left
  intro e _
  by_cases h : e.1 = id <;> simp [h]

theorem slot?_setSlot {s : CriticalSections} {id : Uuid} {slot : Slot} (h : s.slot? id = some slot)
    (slot' : Slot) : (s.setSlot id slot').slot? id = some slot' := by
  have hmem := mem_of_slot? h
  -- the id is still there, and whatever is found for it was set
  rcases h' : (s.setSlot id slot').slot? id with _ | slot''
  · have := slot?_eq_none_iff.1 h' (id, slot')
    exact absurd rfl (this (List.mem_map.2 ⟨_, hmem, if_pos rfl⟩))
  · obtain ⟨e, _, he⟩ := List.mem_map.1 (mem_of_slot? h')
    split at he
    · cases he
      rfl
    · rename_i hne
      rw [he] at hne
      exact absurd rfl hne

theorem holders_setSlot {s : CriticalSections} {id : Uuid} {slot : Slot} (hslot : 0 < slot.holders)
    (hs : ∀ e ∈ s.table, 0 < e.2.holders) : ∀ e ∈ (s.setSlot id slot).table, 0 < e.2.holders := by
  intro e he
  obtain ⟨e', he', rfl⟩ := List.mem_map.1 he
  split
  · exact hslot
  · exact hs e' he'

/-- Setting the entry of an id to what it is changes nothing. -/
theorem WellFormed.setSlot_self {s : CriticalSections} (hs : s.WellFormed) {id : Uuid} {slot : Slot}
    (h : s.slot? id = some slot) : (s.setSlot id slot).table = s.table := by
  have hmem := mem_of_slot? h
  calc (s.setSlot id slot).table = s.table.map fun e => e := by
        apply List.map_congr_left
        intro e he
        split
        · rename_i hid
          exact (List.inj_on_of_nodup_map hs.ids he hmem hid).symm
        · rfl
    _ = s.table := List.map_id' s.table

/-! ### Steps keep tables well-formed -/

theorem WellFormed.register {s : CriticalSections} (hs : s.WellFormed) (id : Uuid) :
    (s.register id).WellFormed := by
  have htickets (m : Nat) : ∀ t ∈ s.tickets ++ [⟨s.nextTicket, id, m, .registered⟩],
      t.key < s.nextTicket + 1 := by
    intro t ht
    rcases List.mem_append.1 ht with ht | ht
    · exact Nat.lt_succ_of_lt (hs.tickets t ht)
    · rw [List.mem_singleton.1 ht]
      exact Nat.lt_succ_self _
  have hline : ∀ e ∈ s.line, e.2 < s.nextTicket + 1 :=
    fun e he => Nat.lt_succ_of_lt (hs.line e he)
  unfold CriticalSections.register
  split
  · rename_i slot _
    exact ⟨(ids_setSlot s id _).symm ▸ hs.ids,
      holders_setSlot (Nat.succ_pos slot.holders) hs.holders, htickets _, hline⟩
  · rename_i hnone
    refine ⟨?_, ?_, htickets _, hline⟩
    · -- a new entry is made for an id that has none
      have hnew : id ∉ s.table.map Prod.fst := by
        intro hid
        obtain ⟨e, he, heq⟩ := List.mem_map.1 hid
        exact slot?_eq_none_iff.1 hnone e he heq
      show ((s.table ++ [(id, _)]).map Prod.fst).Nodup
      rw [List.map_append]
      exact List.nodup_append_comm.1 (List.nodup_cons.2 ⟨hnew, hs.ids⟩)
    · intro e he
      rcases List.mem_append.1 he with he | he
      · exact hs.holders e he
      · rw [List.mem_singleton.1 he]
        exact Nat.one_pos

theorem WellFormed.setPhase {s : CriticalSections} (hs : s.WellFormed) (key : Nat)
    (phase : Phase) : (s.setPhase key phase).WellFormed := by
  refine ⟨hs.ids, hs.holders, ?_, hs.line⟩
  intro t ht
  obtain ⟨u, hu, rfl⟩ := List.mem_map.1 ht
  split
  · exact hs.tickets u hu
  · exact hs.tickets u hu

theorem WellFormed.dropOut {s : CriticalSections} (hs : s.WellFormed) (t : Ticket) :
    (s.dropOut t).WellFormed := by
  have h := hs.setPhase t.key .released
  exact ⟨h.ids, h.holders, h.tickets, fun e he => h.line e ((List.mem_filter.1 he).1)⟩

theorem WellFormed.leave {s s' : CriticalSections} (hs : s.WellFormed) {t : Ticket}
    (h : s.leave? t = some s') : s'.WellFormed := by
  have htickets : ∀ u ∈ s.tickets.filter (fun u => u.key ≠ t.key), u.key < s.nextTicket :=
    fun u hu => hs.tickets u ((List.mem_filter.1 hu).1)
  unfold leave? at h
  split at h
  · split at h
    · rename_i slot hslot
      split at h
      · cases h
        exact ⟨hs.ids.sublist (List.filter_sublist.map _),
          fun e he => hs.holders e ((List.mem_filter.1 he).1), htickets, hs.line⟩
      · -- others hold the entry still, so it has more than no holders
        rename_i hone
        cases h
        have hpos : 0 < slot.holders := hs.holders _ (mem_of_slot? hslot)
        have hpos' : 0 < slot.holders - 1 := by omega
        exact ⟨(ids_setSlot s t.id _).symm ▸ hs.ids, holders_setSlot hpos' hs.holders,
          htickets, hs.line⟩
    · cases h
      exact ⟨hs.ids, hs.holders, htickets, hs.line⟩
  · cases h

/-- A step keeps a table well-formed. -/
theorem WellFormed.step {s s' : CriticalSections} (hs : s.WellFormed) {a : Step}
    (h : s.step? a = some s') : s'.WellFormed := by
  cases a with
  | register id =>
    cases h
    exact hs.register id
  | queue key =>
    obtain ⟨t, ht, h⟩ := Option.bind_eq_some_iff.1 h
    unfold queue? at h
    split at h
    · cases h
      have hkey : t.key < s.nextTicket := hs.tickets t (List.mem_of_find?_eq_some ht)
      have hs' := hs.setPhase t.key .queued
      refine ⟨hs'.ids, hs'.holders, hs'.tickets, ?_⟩
      intro e he
      rcases List.mem_append.1 he with he | he
      · exact hs.line e he
      · rw [List.mem_singleton.1 he]
        exact hkey
    · cases h
  | obtain key =>
    obtain ⟨t, _, h⟩ := Option.bind_eq_some_iff.1 h
    unfold obtain? at h
    split at h
    · cases h
      exact hs.setPhase t.key .holding
    · cases h
  | unlock key =>
    obtain ⟨t, _, h⟩ := Option.bind_eq_some_iff.1 h
    unfold unlock? at h
    split at h
    · cases h
      exact hs.dropOut t
    · cases h
  | abandon key =>
    obtain ⟨t, _, h⟩ := Option.bind_eq_some_iff.1 h
    unfold abandon? at h
    split at h
    · cases h
      exact hs.dropOut t
    · cases h
  | leave key =>
    obtain ⟨t, _, h⟩ := Option.bind_eq_some_iff.1 h
    exact hs.leave h

/-- Every reachable table is well-formed. -/
theorem Reachable.wellFormed {s : CriticalSections} (hs : s.Reachable) : s.WellFormed := by
  induction hs with
  | empty => exact wellFormed_empty
  | step a _ h ih => exact ih.step h

/-! ### A visit -/

/-- The same table, tickets and queues.  The numbers that are given next may
differ, as those of visits in between are not given again. -/
structure SameOccupants (s s' : CriticalSections) : Prop where
  table : s'.table = s.table
  tickets : s'.tickets = s.tickets
  line : s'.line = s.line

theorem SameOccupants.refl (s : CriticalSections) : s.SameOccupants s := ⟨rfl, rfl, rfl⟩

theorem SameOccupants.trans {s s' s'' : CriticalSections} (h : s.SameOccupants s')
    (h' : s'.SameOccupants s'') : s.SameOccupants s'' :=
  ⟨h'.table.trans h.table, h'.tickets.trans h.tickets, h'.line.trans h.line⟩

/-- A table with one more ticket, which is in the queue of its mutex or holds it. -/
structure Joined (s s' : CriticalSections) (t : Ticket) : Prop where
  fresh : ∀ u ∈ s.tickets, u.key ≠ t.key
  freshInLine : ∀ e ∈ s.line, e.2 ≠ t.key
  phase : t.phase = .queued ∨ t.phase = .holding
  table : s'.table = (s.register t.id).table
  tickets : s'.tickets = s.tickets ++ [t]
  line : s'.line = s.line ++ [(t.mutex, t.key)]

theorem Joined.ticket? {s s' : CriticalSections} {t : Ticket} (h : s.Joined s' t) :
    s'.ticket? t.key = some t := by
  have hnone : (s.tickets.find? fun u => u.key == t.key) = none := by
    simpa using h.fresh
  simp [CriticalSections.ticket?, h.tickets, List.find?_append, hnone]

theorem ticket?_setPhase (s : CriticalSections) (key : Nat) (phase : Phase) :
    (s.setPhase key phase).ticket? key = (s.ticket? key).map fun t => { t with phase } := by
  have hpred : ((fun t : Ticket => t.key == key) ∘
      fun t => if t.key = key then { t with phase } else t) = fun t => t.key == key := by
    funext t
    by_cases h : t.key = key <;> simp [h]
  simp only [ticket?, setPhase, List.find?_map, hpred]
  rcases hfind : s.tickets.find? (fun t => t.key == key) with _ | t
  · rw [hfind]
    rfl
  · have hkey : t.key = key := by simpa using List.find?_some hfind
    rw [hfind]
    simp [hkey]

/-- Moving the new ticket to a phase leaves the others alone. -/
theorem map_setPhase {tickets : List Ticket} {t : Ticket} (h : ∀ u ∈ tickets, u.key ≠ t.key)
    (phase : Phase) :
    ((tickets ++ [t]).map fun u => if u.key = t.key then { u with phase } else u) =
      tickets ++ [{ t with phase }] := by
  have hold : (tickets.map fun u => if u.key = t.key then { u with phase } else u) = tickets := by
    calc _ = tickets.map id := List.map_congr_left fun u hu => if_neg (h u hu)
      _ = tickets := List.map_id tickets
  simp [hold]

/-! ### Entering -/

/-- Registering leaves the mutex in which the id's entry is. -/
theorem register_joins (s : CriticalSections) (id : Uuid) :
    ∃ mutex, (s.register id).tickets = s.tickets ++ [⟨s.nextTicket, id, mutex, .registered⟩] ∧
      (s.register id).line = s.line := by
  unfold register
  split
  · exact ⟨_, rfl, rfl⟩
  · exact ⟨_, rfl, rfl⟩

/-- Whoever registers and queues has the next ticket, behind all others. -/
theorem WellFormed.join {s : CriticalSections} (hs : s.WellFormed) (id : Uuid) :
    ∃ mutex, s.Joined (s.perform [.register id, .queue s.nextTicket])
      ⟨s.nextTicket, id, mutex, .queued⟩ := by
  obtain ⟨mutex, htickets, hline⟩ := register_joins s id
  let t : Ticket := ⟨s.nextTicket, id, mutex, .registered⟩
  let r := s.register id
  have hfresh : ∀ u ∈ s.tickets, u.key ≠ s.nextTicket := fun u hu => Nat.ne_of_lt (hs.tickets u hu)
  have hfreshLine : ∀ e ∈ s.line, e.2 ≠ s.nextTicket := fun e he => Nat.ne_of_lt (hs.line e he)
  have hfind : r.ticket? s.nextTicket = some t := by
    have hnone : (s.tickets.find? fun u => u.key == s.nextTicket) = none := by
      simpa using hfresh
    simp [r, CriticalSections.ticket?, htickets, List.find?_append, hnone, t]
  have hqueue : s.perform [.register id, .queue s.nextTicket] =
      { r.setPhase s.nextTicket .queued with line := r.line ++ [(mutex, s.nextTicket)] } := by
    show ((r.ticket? s.nextTicket).bind r.queue?).getD r = _
    rw [hfind]
    rfl
  rw [hqueue]
  refine ⟨mutex, hfresh, hfreshLine, .inl rfl, rfl, ?_, ?_⟩
  · show (r.tickets.map fun u =>
      if u.key = s.nextTicket then { u with phase := .queued } else u) = _
    rw [htickets]
    exact map_setPhase (t := t) hfresh .queued
  · show r.line ++ _ = _
    rw [hline]

/-- Whoever is in the queue obtains the mutex if it is granted. -/
theorem perform_obtain {s : CriticalSections} {t : Ticket} (ht : s.ticket? t.key = some t)
    (hphase : t.phase = .queued) :
    s.perform [.obtain t.key] =
      if s.granted? t.mutex = some t.key then s.setPhase t.key .holding else s := by
  show ((s.ticket? t.key).bind s.obtain?).getD s = _
  rw [ht, Option.bind_some, obtain?]
  by_cases hgranted : s.granted? t.mutex = some t.key
  · rw [if_pos ⟨hphase, hgranted⟩, if_pos hgranted]
    rfl
  · rw [if_neg fun h => hgranted h.2, if_neg hgranted]
    rfl

/-- Whoever enters a section has the next ticket, and waits or holds the section. -/
theorem WellFormed.enter {s : CriticalSections} (hs : s.WellFormed) (id : Uuid) :
    ∃ t, s.Joined (s.enter id) t ∧ t.key = s.nextTicket ∧ t.id = id := by
  obtain ⟨mutex, hq⟩ := hs.join id
  have henter : s.enter id =
      (s.perform [.register id, .queue s.nextTicket]).perform [.obtain s.nextTicket] := rfl
  rw [henter, perform_obtain hq.ticket? rfl]
  -- the mutex is free and obtained at once, or others are before the ticket
  split
  · refine ⟨⟨s.nextTicket, id, mutex, .holding⟩,
      ⟨hq.fresh, hq.freshInLine, .inr rfl, hq.table, ?_, hq.line⟩, rfl, rfl⟩
    show (List.map _ (s.perform [.register id, .queue s.nextTicket]).tickets) = _
    rw [hq.tickets]
    exact map_setPhase hq.fresh .holding
  · exact ⟨_, hq, rfl, rfl⟩

/-! ### Leaving -/

theorem ticket?_dropOut {u : CriticalSections} {t : Ticket} (ht : u.ticket? t.key = some t) :
    (u.dropOut t).ticket? t.key = some { t with phase := .released } := by
  show (u.setPhase t.key .released).ticket? t.key = _
  rw [ticket?_setPhase, ht]
  rfl

/-- Either way out of the mutex drops the ticket out of the queue. -/
theorem perform_dropOut {u : CriticalSections} {t : Ticket} (ht : u.ticket? t.key = some t)
    (hphase : t.phase = .queued ∨ t.phase = .holding) :
    u.perform [.unlock t.key, .abandon t.key] = u.dropOut t := by
  have hunlock : u.step? (.unlock t.key) = u.unlock? t := by
    show (u.ticket? t.key).bind u.unlock? = _
    rw [ht]
    rfl
  have habandon : u.step? (.abandon t.key) = u.abandon? t := by
    show (u.ticket? t.key).bind u.abandon? = _
    rw [ht]
    rfl
  have hagain : (u.dropOut t).step? (.abandon t.key) = none := by
    show ((u.dropOut t).ticket? t.key).bind (u.dropOut t).abandon? = _
    rw [ticket?_dropOut ht]
    rfl
  show ((u.step? (.unlock t.key)).getD u |>.step? (.abandon t.key)).getD
    ((u.step? (.unlock t.key)).getD u) = _
  -- exactly one of the two steps is possible, by the phase of the ticket
  rw [hunlock]
  rcases hphase with hphase | hphase
  · have hnot : u.unlock? t = none := if_neg (by rw [hphase]; decide)
    have hdrop : u.abandon? t = some (u.dropOut t) := if_pos (.inr hphase)
    rw [hnot, Option.getD_none, habandon, hdrop]
    rfl
  · have hdrop : u.unlock? t = some (u.dropOut t) := if_pos hphase
    rw [hdrop, Option.getD_some, hagain]
    rfl

/-- Then the ticket gives its registration back. -/
theorem exit_eq {u : CriticalSections} {t : Ticket} (ht : u.ticket? t.key = some t)
    (hphase : t.phase = .queued ∨ t.phase = .holding) :
    u.exit t.key = ((u.dropOut t).leave? { t with phase := .released }).getD (u.dropOut t) := by
  have hexit : u.exit t.key = (u.perform [.unlock t.key, .abandon t.key]).perform [.leave t.key] :=
    rfl
  rw [hexit, perform_dropOut ht hphase]
  show (((u.dropOut t).ticket? t.key).bind (u.dropOut t).leave?).getD (u.dropOut t) = _
  rw [ticket?_dropOut ht, Option.bind_some]

theorem Joined.congr {s u u' : CriticalSections} {t : Ticket} (h : s.Joined u t)
    (hu : u.SameOccupants u') : s.Joined u' t :=
  ⟨h.fresh, h.freshInLine, h.phase, hu.table.trans h.table, hu.tickets.trans h.tickets,
    hu.line.trans h.line⟩

section

variable {s u : CriticalSections} {t : Ticket} (hu : s.Joined u t)

include hu

theorem Joined.tickets_dropOut :
    (u.dropOut t).tickets = s.tickets ++ [{ t with phase := .released }] := by
  show (u.tickets.map fun v => if v.key = t.key then { v with phase := .released } else v) = _
  rw [hu.tickets]
  exact map_setPhase hu.fresh .released

theorem Joined.line_dropOut : (u.dropOut t).line = s.line := by
  show (u.line.filter fun e => e.2 ≠ t.key) = s.line
  rw [hu.line, List.filter_append]
  have hold : (s.line.filter fun e => e.2 ≠ t.key) = s.line :=
    List.filter_eq_self.2 fun e he => by simpa using hu.freshInLine e he
  rw [hold]
  simp

omit hu in
theorem leave?_last {mutex : Nat} (ht : t.phase = .released) (h : u.slot? t.id = some ⟨mutex, 1⟩) :
    u.leave? t = some { u with
      tickets := u.tickets.filter fun v => v.key ≠ t.key
      table := u.table.filter fun e => e.1 ≠ t.id } := by
  simp [leave?, ht, h]

omit hu in
theorem leave?_more {slot : Slot} (ht : t.phase = .released) (h : u.slot? t.id = some slot)
    (hne : slot.holders ≠ 1) :
    u.leave? t = some ({ u with tickets := u.tickets.filter fun v => v.key ≠ t.key }.setSlot t.id
      { slot with holders := slot.holders - 1 }) := by
  simp [leave?, ht, h, hne]

/-- The registration that the ticket gave back is the one it added. -/
theorem Joined.leave_dropOut (hs : s.WellFormed) :
    ∃ v, (u.dropOut t).leave? { t with phase := .released } = some v ∧ s.SameOccupants v := by
  have htable : (u.dropOut t).table = (s.register t.id).table := hu.table
  have htickets : ((u.dropOut t).tickets.filter fun v => v.key ≠ t.key) = s.tickets := by
    have hold : (s.tickets.filter fun v => v.key ≠ t.key) = s.tickets :=
      List.filter_eq_self.2 fun v hv => by simpa using hu.fresh v hv
    rw [hu.tickets_dropOut, List.filter_append, hold]
    simp
  have hline := hu.line_dropOut
  have hslot : (u.dropOut t).slot? t.id = (s.register t.id).slot? t.id := by
    rw [slot?, htable]
    rfl
  rcases hslot? : s.slot? t.id with _ | slot
  · -- the ticket created the entry, and removes it
    have hnew : (s.register t.id).table = s.table ++ [(t.id, ⟨s.nextMutex, 1⟩)] := by
      rw [register, hslot?]
    have hnone := slot?_eq_none_iff.1 hslot?
    have hfind : (s.table.find? fun e => e.1 == t.id) = none := by
      simpa using hnone
    have hone : (s.register t.id).slot? t.id = some ⟨s.nextMutex, 1⟩ := by
      simp [slot?, hnew, List.find?_append, hfind]
    have hfilter : ((u.dropOut t).table.filter fun e => e.1 ≠ t.id) = s.table := by
      have hold : (s.table.filter fun e => e.1 ≠ t.id) = s.table :=
        List.filter_eq_self.2 fun e he => by simpa using hnone e he
      rw [htable, hnew, List.filter_append, hold]
      simp
    exact ⟨_, leave?_last rfl (hslot.trans hone), hfilter, htickets, hline⟩
  · -- the ticket was one more at an entry that others keep
    have hpos : 0 < slot.holders := hs.holders _ (mem_of_slot? hslot?)
    have hmore : (s.register t.id).table =
        (s.setSlot t.id { slot with holders := slot.holders + 1 }).table := by
      rw [register, hslot?]
    have hget : (s.register t.id).slot? t.id = some { slot with holders := slot.holders + 1 } := by
      rw [← slot?_setSlot hslot? { slot with holders := slot.holders + 1 }, slot?, hmore]
      rfl
    have hne : slot.holders + 1 ≠ 1 := by omega
    refine ⟨_, leave?_more rfl (hslot.trans hget) hne, ?_, htickets, hline⟩
    have htwice := setSlot_setSlot s t.id { slot with holders := slot.holders + 1 } slot
    show ((u.dropOut t).table.map fun e => if e.1 = t.id then (t.id, slot) else e) = s.table
    rw [htable, hmore, ← hs.setSlot_self hslot?, ← htwice]
    rfl

end

/-- Whoever leaves a section after having entered it leaves no trace. -/
theorem Joined.exit {s u : CriticalSections} {t : Ticket} (hu : s.Joined u t)
    (hs : s.WellFormed) : s.SameOccupants (u.exit t.key) := by
  obtain ⟨v, hv, hsame⟩ := hu.leave_dropOut hs
  rw [exit_eq hu.ticket? hu.phase, hv]
  exact hsame

end Chronicle.CriticalSections
