/-
Chronicle/Proofs/CriticalSection/Exclusion.lean

One ticket at a time holds the section of an id.

`CriticalSections.Stepped` lists what a single step can do.  Two invariants are
shown for each of its cases.  `Counted` ties the table to the tickets: an entry
counts the tickets on its id, and all of these have the mutex of the entry, so
that no entry is made anew while somebody still needs the old one.  `Lined` ties
the queues to the tickets: whoever is in a queue or holds a guard stands in the
line, and a guard is held only by the first in its queue.

Main result: `entries_and_holders`, for any interleaving of steps.
-/
import Chronicle.Proofs.CriticalSection.Occupancy
import Mathlib.Data.Finset.Card
import Mathlib.Data.Finset.Dedup

namespace Chronicle

/-- Whether a ticket stands in the queue of its mutex, where it stays while it
holds the guard. -/
def Ticket.InLine (t : Ticket) : Prop := t.phase = .queued ∨ t.phase = .holding

/-- What never changes about a ticket. -/
def Ticket.badge (t : Ticket) : Nat × Uuid × Nat := (t.key, t.id, t.mutex)

namespace CriticalSections

variable {s s' : CriticalSections}

/-! ### Tickets and entries -/

theorem mem_of_ticket? {key : Nat} {t : Ticket} (h : s.ticket? key = some t) :
    t ∈ s.tickets ∧ t.key = key :=
  ⟨List.mem_of_find?_eq_some h, by simpa using List.find?_some h⟩

/-- The tickets after one of them was moved to a phase. -/
theorem mem_setPhase {key : Nat} {phase : Phase} {u : Ticket} :
    u ∈ (s.setPhase key phase).tickets ↔
      ∃ t ∈ s.tickets, u = if t.key = key then { t with phase } else t := by
  simp only [setPhase, List.mem_map, eq_comm]

theorem badges_setPhase (s : CriticalSections) (key : Nat) (phase : Phase) :
    (s.setPhase key phase).tickets.map Ticket.badge = s.tickets.map Ticket.badge := by
  simp only [setPhase, List.map_map]
  apply List.map_congr_left
  intro t _
  by_cases h : t.key = key
  · simp [Ticket.badge, h]
  · simp [Ticket.badge, h]

/-- Changing the entry of an id leaves those of all others. -/
theorem slot?_setSlot_of_ne (s : CriticalSections) {id id' : Uuid} (h : id' ≠ id) (slot : Slot) :
    (s.setSlot id slot).slot? id' = s.slot? id' := by
  have hpred : ((fun e : Uuid × Slot => e.1 == id') ∘
      fun e => if e.1 = id then (id, slot) else e) = fun e => e.1 == id' := by
    funext e
    by_cases he : e.1 = id <;> simp [he]
  simp only [slot?, setSlot, List.find?_map, hpred, Option.map_map]
  rcases hfind : s.table.find? (fun e => e.1 == id') with _ | e
  · rw [hfind]
    rfl
  · -- the entry that is found is not one that was changed
    have he : e.1 = id' := by simpa using List.find?_some hfind
    have hne : e.1 ≠ id := fun heq => h (he.symm.trans heq)
    rw [hfind]
    simp [hne]

/-- The entry of an id after one more ticket was registered on it. -/
theorem slot?_register_self (s : CriticalSections) (id : Uuid) :
    (s.register id).slot? id =
      some (match s.slot? id with
        | some slot => { slot with holders := slot.holders + 1 }
        | none => ⟨s.nextMutex, 1⟩) := by
  rcases hslot : s.slot? id with _ | slot
  · have hfind : (s.table.find? fun e => e.1 == id) = none := by
      simpa using slot?_eq_none_iff.1 hslot
    have htable : (s.register id).table = s.table ++ [(id, ⟨s.nextMutex, 1⟩)] := by
      rw [register, hslot]
    simp [slot?, htable, List.find?_append, hfind]
  · rw [register, hslot]
    exact slot?_setSlot hslot _

theorem slot?_register_of_ne (s : CriticalSections) {id id' : Uuid} (h : id' ≠ id) :
    (s.register id).slot? id' = s.slot? id' := by
  rcases hslot : s.slot? id with _ | slot
  · have htable : (s.register id).table = s.table ++ [(id, ⟨s.nextMutex, 1⟩)] := by
      rw [register, hslot]
    simp [slot?, htable, List.find?_append, Ne.symm h]
  · rw [register, hslot]
    exact slot?_setSlot_of_ne s h _

/-- Registering adds a ticket with the mutex of the id's entry. -/
theorem tickets_register (s : CriticalSections) (id : Uuid) :
    ∃ slot, (s.register id).slot? id = some slot ∧
      (s.register id).tickets = s.tickets ++ [⟨s.nextTicket, id, slot.mutex, .registered⟩] := by
  refine ⟨_, slot?_register_self s id, ?_⟩
  rcases hslot : s.slot? id with _ | slot
  · rw [register, hslot]
  · rw [register, hslot]

/-! ### What a step does -/

/-- The steps, from a state to the next one. -/
inductive Stepped (s : CriticalSections) : Step → CriticalSections → Prop
  | register (id : Uuid) : Stepped s (.register id) (s.register id)
  | queue {t : Ticket} : t ∈ s.tickets → t.phase = .registered →
      Stepped s (.queue t.key)
        { s.setPhase t.key .queued with line := s.line ++ [(t.mutex, t.key)] }
  | obtain {t : Ticket} : t ∈ s.tickets → t.phase = .queued →
      s.granted? t.mutex = some t.key → Stepped s (.obtain t.key) (s.setPhase t.key .holding)
  | unlock {t : Ticket} : t ∈ s.tickets → t.phase = .holding →
      Stepped s (.unlock t.key) (s.dropOut t)
  | abandon {t : Ticket} : t ∈ s.tickets → t.phase = .registered ∨ t.phase = .queued →
      Stepped s (.abandon t.key) (s.dropOut t)
  | leave {t : Ticket} {s' : CriticalSections} : t ∈ s.tickets → t.phase = .released →
      s.leave? t = some s' → Stepped s (.leave t.key) s'

theorem phase_of_leave? {t : Ticket} (h : s.leave? t = some s') : t.phase = .released := by
  unfold leave? at h
  split at h
  · assumption
  · cases h

/-- Every step is one of the cases. -/
theorem stepped {a : Step} (h : s.step? a = some s') : s.Stepped a s' := by
  cases a with
  | register id =>
    cases h
    exact .register id
  | queue key =>
    obtain ⟨t, ht, h'⟩ := Option.bind_eq_some_iff.1 h
    obtain ⟨hmem, rfl⟩ := mem_of_ticket? ht
    unfold queue? at h'
    split at h'
    · rename_i hphase
      cases h'
      exact .queue hmem hphase
    · cases h'
  | obtain key =>
    obtain ⟨t, ht, h'⟩ := Option.bind_eq_some_iff.1 h
    obtain ⟨hmem, rfl⟩ := mem_of_ticket? ht
    unfold obtain? at h'
    split at h'
    · rename_i hphase
      cases h'
      exact .obtain hmem hphase.1 hphase.2
    · cases h'
  | unlock key =>
    obtain ⟨t, ht, h'⟩ := Option.bind_eq_some_iff.1 h
    obtain ⟨hmem, rfl⟩ := mem_of_ticket? ht
    unfold unlock? at h'
    split at h'
    · rename_i hphase
      cases h'
      exact .unlock hmem hphase
    · cases h'
  | abandon key =>
    obtain ⟨t, ht, h'⟩ := Option.bind_eq_some_iff.1 h
    obtain ⟨hmem, rfl⟩ := mem_of_ticket? ht
    unfold abandon? at h'
    split at h'
    · rename_i hphase
      cases h'
      exact .abandon hmem hphase
    · cases h'
  | leave key =>
    obtain ⟨t, ht, h'⟩ := Option.bind_eq_some_iff.1 h
    obtain ⟨hmem, rfl⟩ := mem_of_ticket? ht
    exact .leave hmem (phase_of_leave? h') h'

/-! ### The table counts the tickets -/

/-- The number of tickets on an id, working or waiting. -/
def ticketsOn (s : CriticalSections) (id : Uuid) : Nat := s.tickets.countP fun t => t.id = id

/-- The entries of the table and the tickets agree. -/
structure Counted (s : CriticalSections) : Prop where
  keys : (s.tickets.map Ticket.key).Nodup
  /-- All tickets on an id use the mutex of its entry. -/
  mutex : ∀ t ∈ s.tickets, (s.slot? t.id).map Slot.mutex = some t.mutex
  holders : ∀ id slot, s.slot? id = some slot → slot.holders = s.ticketsOn id

theorem counted_empty : Counted empty :=
  ⟨.nil, fun _ h => absurd h List.not_mem_nil, nofun⟩

/-- Two tickets with one key are the same. -/
theorem Counted.unique (hs : s.Counted) {t u : Ticket} (ht : t ∈ s.tickets) (hu : u ∈ s.tickets)
    (h : t.key = u.key) : t = u :=
  List.inj_on_of_nodup_map hs.keys ht hu h

theorem Counted.ticket? (hs : s.Counted) {t : Ticket} (ht : t ∈ s.tickets) :
    s.ticket? t.key = some t := by
  rcases hfind : s.ticket? t.key with _ | u
  · have hnone := List.find?_eq_none.1 hfind t ht
    exact absurd (beq_self_eq_true t.key) hnone
  · obtain ⟨hu, hkey⟩ := mem_of_ticket? hfind
    rw [hs.unique hu ht hkey]

theorem Counted.slot (hs : s.Counted) {t : Ticket} (ht : t ∈ s.tickets) :
    ∃ holders, s.slot? t.id = some ⟨t.mutex, holders⟩ := by
  obtain ⟨⟨mutex, holders⟩, hslot, rfl⟩ := Option.map_eq_some_iff.1 (hs.mutex t ht)
  exact ⟨holders, hslot⟩

/-- Phases and queues do not matter to what is counted. -/
theorem Counted.congr (hs : s.Counted) (htable : s'.table = s.table)
    (hbadges : s'.tickets.map Ticket.badge = s.tickets.map Ticket.badge) : s'.Counted := by
  have hslot : s'.slot? = s.slot? := by
    funext id
    rw [slot?, slot?, htable]
  have hkeys : s'.tickets.map Ticket.key = s.tickets.map Ticket.key := by
    have h := congrArg (List.map Prod.fst) hbadges
    rw [List.map_map, List.map_map] at h
    exact h
  have hon (id : Uuid) : s'.ticketsOn id = s.ticketsOn id := by
    have h := congrArg (List.countP fun b : Nat × Uuid × Nat => b.2.1 = id) hbadges
    rw [List.countP_map, List.countP_map] at h
    exact h
  refine ⟨hkeys ▸ hs.keys, fun t ht => ?_, fun id slot h => ?_⟩
  · have hmem : t.badge ∈ s.tickets.map Ticket.badge := by
      rw [← hbadges]
      exact List.mem_map_of_mem ht
    obtain ⟨u, hu, heq⟩ := List.mem_map.1 hmem
    simp only [Ticket.badge, Prod.mk.injEq] at heq
    rw [hslot, ← heq.2.1, ← heq.2.2]
    exact hs.mutex u hu
  · rw [hon]
    exact hs.holders id slot (congrFun hslot id ▸ h)

theorem Counted.setPhase (hs : s.Counted) (key : Nat) (phase : Phase) :
    (s.setPhase key phase).Counted :=
  hs.congr rfl (badges_setPhase s key phase)

theorem Counted.dropOut (hs : s.Counted) (t : Ticket) : (s.dropOut t).Counted :=
  hs.congr rfl (badges_setPhase s t.key .released)

/-- An id without an entry has no tickets. -/
theorem Counted.ticketsOn_eq_zero (hs : s.Counted) {id : Uuid} (h : s.slot? id = none) :
    s.ticketsOn id = 0 := by
  rw [ticketsOn, List.countP_eq_zero]
  intro t ht hid
  have hmutex := hs.mutex t ht
  rw [of_decide_eq_true hid, h] at hmutex
  cases hmutex

theorem Counted.register (hs : s.Counted) (hwf : s.WellFormed) (id : Uuid) :
    (s.register id).Counted := by
  obtain ⟨slot', hslot', htickets⟩ := tickets_register s id
  have hself := slot?_register_self s id
  have hon (id' : Uuid) :
      (s.register id).ticketsOn id' = s.ticketsOn id' + if id = id' then 1 else 0 := by
    rw [ticketsOn, htickets, List.countP_append]
    simp [ticketsOn, List.countP_cons]
  refine ⟨?_, fun t ht => ?_, fun id' slot h => ?_⟩
  · -- the key of the new ticket was never given before
    have hnew : s.nextTicket ∉ s.tickets.map Ticket.key := by
      intro hmem
      obtain ⟨t, ht, heq⟩ := List.mem_map.1 hmem
      exact Nat.ne_of_lt (hwf.tickets t ht) heq
    rw [htickets, List.map_append]
    exact List.nodup_append_comm.1 (List.nodup_cons.2 ⟨hnew, hs.keys⟩)
  · rw [htickets] at ht
    rcases List.mem_append.1 ht with ht | ht
    · -- the mutex of an entry stays when a ticket is added to it
      have hmutex := hs.mutex t ht
      by_cases hid : t.id = id
      · rw [hid] at hmutex ⊢
        rcases hslot : s.slot? id with _ | slot
        · rw [hslot] at hmutex
          cases hmutex
        · rw [hself, hslot]
          rw [hslot] at hmutex
          exact hmutex
      · rw [slot?_register_of_ne s hid]
        exact hmutex
    · rw [List.mem_singleton.1 ht, hslot']
      rfl
  · rw [hon]
    by_cases hid : id' = id
    · subst hid
      rw [if_pos rfl]
      rw [hself] at h
      obtain rfl := Option.some.inj h
      rcases hslot : s.slot? id' with _ | slot
      · rw [hs.ticketsOn_eq_zero hslot]
      · exact congrArg (· + 1) (hs.holders id' slot hslot)
    · rw [if_neg (Ne.symm hid)]
      rw [slot?_register_of_ne s hid] at h
      exact hs.holders id' slot h

/-! ### Leaving -/

/-- Taking one ticket away takes away one from the number on its id. -/
theorem countP_filter_key {tickets : List Ticket} (hkeys : (tickets.map Ticket.key).Nodup)
    {t : Ticket} (ht : t ∈ tickets) (p : Ticket → Bool) :
    (tickets.filter fun u => u.key ≠ t.key).countP p + (if p t then 1 else 0) =
      tickets.countP p := by
  induction tickets with
  | nil => cases ht
  | cons u us ih =>
    obtain ⟨hu, hus⟩ := List.nodup_cons.1 hkeys
    by_cases hkey : u.key = t.key
    · -- the head is the ticket itself, and no other one has its key
      have hrest : (us.filter fun v => v.key ≠ t.key) = us := by
        refine List.filter_eq_self.2 fun v hv => ?_
        have hne : v.key ≠ t.key := fun heq =>
          hu (List.mem_map.2 ⟨v, hv, heq.trans hkey.symm⟩)
        simpa using hne
      have hut : u = t := by
        rcases List.mem_cons.1 ht with ht | ht
        · exact ht.symm
        · exact absurd (List.mem_map_of_mem ht) (hkey ▸ hu)
      rw [List.filter_cons_of_neg (by simpa using hkey), hrest, List.countP_cons, hut]
    · have ht' : t ∈ us := by
        rcases List.mem_cons.1 ht with ht | ht
        · exact absurd (congrArg Ticket.key ht.symm) hkey
        · exact ht
      rw [List.filter_cons_of_pos (by simpa using hkey), List.countP_cons, List.countP_cons,
        ← ih hus ht']
      omega

/-- A ticket that leaves is taken away, and so is the entry if it was the last. -/
theorem leave?_eq_some (hs : s.Counted) {t : Ticket} (ht : t ∈ s.tickets)
    (h : s.leave? t = some s') :
    s'.tickets = (s.tickets.filter fun u => u.key ≠ t.key) ∧ s'.line = s.line ∧
      (∀ id, id ≠ t.id → s'.slot? id = s.slot? id) ∧
      (s.slot? t.id = some ⟨t.mutex, 1⟩ ∧ s'.slot? t.id = none ∨
        ∃ holders, holders ≠ 1 ∧ s.slot? t.id = some ⟨t.mutex, holders⟩ ∧
          s'.slot? t.id = some ⟨t.mutex, holders - 1⟩) := by
  obtain ⟨holders, hslot⟩ := hs.slot ht
  have hphase := phase_of_leave? h
  by_cases hone : holders = 1
  · subst hone
    rw [leave?_last hphase hslot] at h
    obtain rfl := Option.some.inj h
    refine ⟨rfl, rfl, fun id hid => ?_, .inl ⟨hslot, ?_⟩⟩
    · rw [slot?, slot?, List.find?_filter]
      congr 2
      funext e
      by_cases he : e.1 = id
      · simp [he, hid]
      · simp [he]
    · simp [slot?_eq_none_iff]
  · rw [leave?_more hphase hslot hone] at h
    obtain rfl := Option.some.inj h
    exact ⟨rfl, rfl, fun id hid => slot?_setSlot_of_ne _ hid _,
      .inr ⟨holders, hone, hslot, slot?_setSlot hslot _⟩⟩

theorem Counted.leave (hs : s.Counted) {t : Ticket} (ht : t ∈ s.tickets)
    (h : s.leave? t = some s') : s'.Counted := by
  obtain ⟨htickets, -, hothers, hslot⟩ := leave?_eq_some hs ht h
  have hcount (id : Uuid) : s'.ticketsOn id + (if t.id = id then 1 else 0) = s.ticketsOn id := by
    have hcount := countP_filter_key hs.keys ht fun u => u.id = id
    rw [ticketsOn, htickets, ticketsOn, ← hcount]
    simp
  refine ⟨?_, fun u hu => ?_, fun id slot hid => ?_⟩
  · rw [htickets]
    exact hs.keys.sublist (List.filter_sublist.map _)
  · rw [htickets] at hu
    obtain ⟨hu, hkey⟩ := List.mem_filter.1 hu
    have hmutex := hs.mutex u hu
    by_cases hid : u.id = t.id
    · rw [hid] at hmutex ⊢
      rcases hslot with ⟨hone, -⟩ | ⟨holders, -, hslot, hslot'⟩
      · -- an entry with one holder has no other ticket
        have hpos : 0 < s'.ticketsOn t.id := by
          rw [ticketsOn, List.countP_pos_iff]
          refine ⟨u, ?_, decide_eq_true hid⟩
          rw [htickets]
          exact List.mem_filter.2 ⟨hu, hkey⟩
        have hon := hs.holders _ _ hone
        have hsum := hcount t.id
        rw [if_pos rfl] at hsum
        dsimp only at hon
        omega
      · rw [hslot']
        rw [hslot] at hmutex
        exact hmutex
    · rw [hothers _ hid]
      exact hmutex
  · have hsum := hcount id
    by_cases hid' : id = t.id
    · subst hid'
      rw [if_pos rfl] at hsum
      rcases hslot with ⟨-, hnone⟩ | ⟨holders, -, hslot, hslot'⟩
      · rw [hnone] at hid
        cases hid
      · rw [hslot'] at hid
        obtain rfl := Option.some.inj hid
        have hon := hs.holders _ _ hslot
        dsimp only at hon ⊢
        omega
    · rw [if_neg (Ne.symm hid')] at hsum
      rw [hothers _ hid'] at hid
      rw [hs.holders id slot hid]
      omega

/-! ### The line -/

/-- The queues and the tickets agree. -/
structure Lined (s : CriticalSections) : Prop where
  /-- A guard is held by the first in the queue of its mutex. -/
  holding : ∀ t ∈ s.tickets, t.phase = .holding → s.granted? t.mutex = some t.key
  queued : ∀ t ∈ s.tickets, t.InLine → (t.mutex, t.key) ∈ s.line
  /-- Nobody stands in the line but those who wait or hold. -/
  tickets : ∀ e ∈ s.line, ∃ t ∈ s.tickets, t.InLine ∧ (t.mutex, t.key) = e

theorem lined_empty : Lined empty :=
  ⟨fun _ h => absurd h List.not_mem_nil, fun _ h => absurd h List.not_mem_nil,
    fun _ h => absurd h List.not_mem_nil⟩

/-- The first in a queue stays the first when others join the line. -/
theorem granted?_append {mutex key : Nat} {es : List (Nat × Nat)}
    (h : s.granted? mutex = some key) (hline : s'.line = s.line ++ es) :
    s'.granted? mutex = some key := by
  obtain ⟨e, hfind, hkey⟩ := Option.map_eq_some_iff.1 h
  refine Option.map_eq_some_iff.2 ⟨e, ?_, hkey⟩
  rw [hline, List.find?_append, hfind]
  rfl

/-- The first in a queue stays the first when another one drops out. -/
theorem granted?_filter {mutex key key' : Nat} (h : s.granted? mutex = some key)
    (hne : key ≠ key') (hline : s'.line = s.line.filter fun e => e.2 ≠ key') :
    s'.granted? mutex = some key := by
  obtain ⟨e, hfind, rfl⟩ := Option.map_eq_some_iff.1 h
  obtain ⟨hmutex, front, back, heq, hfront⟩ := List.find?_eq_some_iff_append.1 hfind
  refine Option.map_eq_some_iff.2 ⟨e, ?_, rfl⟩
  rw [hline, List.find?_eq_some_iff_append]
  refine ⟨hmutex, front.filter fun e => e.2 ≠ key', back.filter fun e => e.2 ≠ key', ?_,
    fun e' he' => hfront e' (List.mem_filter.1 he').1⟩
  rw [heq, List.filter_append, List.filter_cons_of_pos (by simpa using hne)]

theorem mem_setPhase_self {t : Ticket} (ht : t ∈ s.tickets) (phase : Phase) :
    { t with phase } ∈ (s.setPhase t.key phase).tickets :=
  mem_setPhase.2 ⟨t, ht, (if_pos rfl).symm⟩

theorem mem_setPhase_of_ne {t : Ticket} (ht : t ∈ s.tickets) {key : Nat} (h : t.key ≠ key)
    (phase : Phase) : t ∈ (s.setPhase key phase).tickets :=
  mem_setPhase.2 ⟨t, ht, (if_neg h).symm⟩

/-- Only the ticket itself is moved to a phase. -/
theorem Counted.of_mem_setPhase (hs : s.Counted) {t u : Ticket} (ht : t ∈ s.tickets)
    {phase : Phase} (hu : u ∈ (s.setPhase t.key phase).tickets) :
    u = { t with phase } ∨ u ∈ s.tickets ∧ u.key ≠ t.key := by
  obtain ⟨v, hv, rfl⟩ := mem_setPhase.1 hu
  split
  · rename_i hkey
    rw [hs.unique hv ht hkey]
    exact .inl rfl
  · rename_i hkey
    exact .inr ⟨hv, hkey⟩

theorem Lined.register (hs : s.Lined) (id : Uuid) : (s.register id).Lined := by
  obtain ⟨mutex, htickets, hline⟩ := register_joins s id
  have hgranted : (s.register id).granted? = s.granted? := by
    funext mutex
    rw [granted?, granted?, hline]
  -- the new ticket neither waits nor holds yet
  have hold {t : Ticket} (ht : t ∈ (s.register id).tickets) (h : t.InLine) : t ∈ s.tickets := by
    rw [htickets] at ht
    rcases List.mem_append.1 ht with ht | ht
    · exact ht
    · rw [List.mem_singleton.1 ht] at h
      rcases h with h | h <;> cases h
  refine ⟨fun t ht h => ?_, fun t ht h => ?_, fun e he => ?_⟩
  · rw [hgranted]
    exact hs.holding t (hold ht (.inr h)) h
  · rw [hline]
    exact hs.queued t (hold ht h) h
  · rw [hline] at he
    obtain ⟨t, ht, h⟩ := hs.tickets e he
    refine ⟨t, ?_, h⟩
    rw [htickets]
    exact List.mem_append_left _ ht

theorem Lined.queue (hs : s.Lined) (hc : s.Counted) {t : Ticket} (ht : t ∈ s.tickets) :
    Lined { s.setPhase t.key .queued with line := s.line ++ [(t.mutex, t.key)] } := by
  refine ⟨fun u hu h => ?_, fun u hu h => ?_, fun e he => ?_⟩
  · rcases hc.of_mem_setPhase ht hu with rfl | ⟨hu, -⟩
    · cases h
    · exact granted?_append (hs.holding u hu h) rfl
  · rcases hc.of_mem_setPhase ht hu with rfl | ⟨hu, -⟩
    · exact List.mem_append_right _ List.mem_cons_self
    · exact List.mem_append_left _ (hs.queued u hu h)
  · rcases List.mem_append.1 he with he | he
    · obtain ⟨u, hu, h, rfl⟩ := hs.tickets e he
      by_cases hkey : u.key = t.key
      · rw [hc.unique hu ht hkey]
        exact ⟨_, mem_setPhase_self ht .queued, .inl rfl, rfl⟩
      · exact ⟨u, mem_setPhase_of_ne hu hkey .queued, h, rfl⟩
    · rw [List.mem_singleton.1 he]
      exact ⟨_, mem_setPhase_self ht .queued, .inl rfl, rfl⟩

theorem Lined.obtain (hs : s.Lined) (hc : s.Counted) {t : Ticket} (ht : t ∈ s.tickets)
    (hphase : t.phase = .queued) (hgranted : s.granted? t.mutex = some t.key) :
    (s.setPhase t.key .holding).Lined := by
  refine ⟨fun u hu h => ?_, fun u hu h => ?_, fun e he => ?_⟩
  · rcases hc.of_mem_setPhase ht hu with rfl | ⟨hu, -⟩
    · exact hgranted
    · exact hs.holding u hu h
  · rcases hc.of_mem_setPhase ht hu with rfl | ⟨hu, -⟩
    · exact hs.queued t ht (.inl hphase)
    · exact hs.queued u hu h
  · obtain ⟨u, hu, h, rfl⟩ := hs.tickets e he
    by_cases hkey : u.key = t.key
    · rw [hc.unique hu ht hkey]
      exact ⟨_, mem_setPhase_self ht .holding, .inr rfl, rfl⟩
    · exact ⟨u, mem_setPhase_of_ne hu hkey .holding, h, rfl⟩

theorem Lined.dropOut (hs : s.Lined) (hc : s.Counted) {t : Ticket} (ht : t ∈ s.tickets) :
    (s.dropOut t).Lined := by
  refine ⟨fun u hu h => ?_, fun u hu h => ?_, fun e he => ?_⟩
  · rcases hc.of_mem_setPhase ht hu with rfl | ⟨hu, hkey⟩
    · cases h
    · exact granted?_filter (hs.holding u hu h) hkey rfl
  · rcases hc.of_mem_setPhase ht hu with rfl | ⟨hu, hkey⟩
    · rcases h with h | h <;> cases h
    · exact List.mem_filter.2 ⟨hs.queued u hu h, by simpa using hkey⟩
  · obtain ⟨he, hkey⟩ := List.mem_filter.1 he
    obtain ⟨u, hu, h, rfl⟩ := hs.tickets e he
    exact ⟨u, mem_setPhase_of_ne hu (by simpa using hkey) .released, h, rfl⟩

theorem Lined.leave (hs : s.Lined) (hc : s.Counted) {t : Ticket} (ht : t ∈ s.tickets)
    (h : s.leave? t = some s') : s'.Lined := by
  have hphase := phase_of_leave? h
  obtain ⟨htickets, hline, -, -⟩ := leave?_eq_some hc ht h
  have hgranted : s'.granted? = s.granted? := by
    funext mutex
    rw [granted?, granted?, hline]
  have hold {u : Ticket} (hu : u ∈ s'.tickets) : u ∈ s.tickets := by
    rw [htickets] at hu
    exact (List.mem_filter.1 hu).1
  refine ⟨fun u hu h => ?_, fun u hu h => ?_, fun e he => ?_⟩
  · rw [hgranted]
    exact hs.holding u (hold hu) h
  · rw [hline]
    exact hs.queued u (hold hu) h
  · rw [hline] at he
    obtain ⟨u, hu, h, rfl⟩ := hs.tickets e he
    refine ⟨u, ?_, h, rfl⟩
    -- whoever leaves has given up its place before
    have hkey : u.key ≠ t.key := by
      intro hkey
      rw [hc.unique hu ht hkey, Ticket.InLine, hphase] at h
      rcases h with h | h <;> cases h
    rw [htickets]
    exact List.mem_filter.2 ⟨hu, by simpa using hkey⟩

/-! ### Any interleaving -/

/-- A step keeps the table counted and the tickets lined up. -/
theorem Stepped.keeps {a : Step} (h : s.Stepped a s') (hwf : s.WellFormed) (hc : s.Counted)
    (hl : s.Lined) : s'.Counted ∧ s'.Lined := by
  cases h with
  | register id => exact ⟨hc.register hwf id, hl.register id⟩
  | queue ht => exact ⟨hc.congr rfl (badges_setPhase s _ _), hl.queue hc ht⟩
  | obtain ht hphase hgranted => exact ⟨hc.setPhase _ _, hl.obtain hc ht hphase hgranted⟩
  | unlock ht => exact ⟨hc.dropOut _, hl.dropOut hc ht⟩
  | abandon ht => exact ⟨hc.dropOut _, hl.dropOut hc ht⟩
  | leave ht _ h => exact ⟨hc.leave ht h, hl.leave hc ht h⟩

theorem Reachable.keeps (hs : s.Reachable) : s.Counted ∧ s.Lined := by
  induction hs with
  | empty => exact ⟨counted_empty, lined_empty⟩
  | step a hs h ih => exact (stepped h).keeps hs.wellFormed ih.1 ih.2

/-- Steps that are not possible are left out. -/
theorem Reachable.perform (hs : s.Reachable) (steps : List Step) :
    (s.perform steps).Reachable := by
  induction steps generalizing s with
  | nil => exact hs
  | cons a steps ih =>
    rcases h : s.step? a with _ | s'
    · have hstep : s.perform (a :: steps) = s.perform steps := by
        rw [CriticalSections.perform, List.foldl_cons, h]
        rfl
      exact hstep ▸ ih hs
    · have hstep : s.perform (a :: steps) = s'.perform steps := by
        rw [CriticalSections.perform, List.foldl_cons, h]
        rfl
      exact hstep ▸ ih (hs.step a h)

theorem Reachable.counted (hs : s.Reachable) : s.Counted := hs.keeps.1

theorem Reachable.lined (hs : s.Reachable) : s.Lined := hs.keeps.2

/-- An id has an entry as long as somebody has a ticket on it. -/
theorem Reachable.isSome_slot?_iff (hs : s.Reachable) (id : Uuid) :
    (s.slot? id).isSome ↔ ∃ t ∈ s.tickets, t.id = id := by
  constructor
  · intro h
    obtain ⟨slot, hslot⟩ := Option.isSome_iff_exists.1 h
    have hpos : 0 < slot.holders := hs.wellFormed.holders _ (mem_of_slot? hslot)
    rw [hs.counted.holders id slot hslot, ticketsOn, List.countP_pos_iff] at hpos
    obtain ⟨t, ht, hid⟩ := hpos
    exact ⟨t, ht, of_decide_eq_true hid⟩
  · rintro ⟨t, ht, rfl⟩
    obtain ⟨holders, hslot⟩ := hs.counted.slot ht
    rw [hslot]
    rfl

/-- The ids in the table are those of the tickets. -/
theorem Reachable.size_eq (hs : s.Reachable) :
    s.size = (s.tickets.map Ticket.id).toFinset.card := by
  have hids : (s.table.map Prod.fst).toFinset = (s.tickets.map Ticket.id).toFinset := by
    ext id
    rw [List.mem_toFinset, List.mem_toFinset, List.mem_map, List.mem_map,
      ← hs.isSome_slot?_iff id]
    rw [← not_iff_not, Option.not_isSome_iff_eq_none, slot?_eq_none_iff]
    simp only [not_exists, not_and]
  rw [← hids, List.toFinset_card_of_nodup hs.wellFormed.ids, List.length_map, size]

/-- No two tickets hold the guard of one id. -/
theorem Reachable.holding_unique (hs : s.Reachable) {t u : Ticket} (ht : t ∈ s.tickets)
    (hu : u ∈ s.tickets) (hid : t.id = u.id) (hholds : t.phase = .holding)
    (hholds' : u.phase = .holding) : t = u := by
  have hmutex : t.mutex = u.mutex := by
    have h := hs.counted.mutex t ht
    rw [hid, hs.counted.mutex u hu] at h
    exact (Option.some.inj h).symm
  -- both are the first in the queue of the one mutex
  have hfirst := hs.lined.holding t ht hholds
  rw [hmutex, hs.lined.holding u hu hholds'] at hfirst
  exact hs.counted.unique ht hu (Option.some.inj hfirst).symm

/-- The guard of an id is held once at most. -/
theorem Reachable.holders_le_one (hs : s.Reachable) (id : Uuid) :
    (s.tickets.countP fun t => t.id = id ∧ t.phase = .holding) ≤ 1 := by
  rw [List.countP_eq_length_filter]
  have hnodup : (s.tickets.filter fun t => t.id = id ∧ t.phase = .holding).Nodup :=
    (List.Nodup.of_map _ hs.counted.keys).filter _
  rcases hheld : s.tickets.filter fun t => t.id = id ∧ t.phase = .holding with _ | ⟨t, _ | ⟨u, ts⟩⟩
  · rw [hheld]
    exact Nat.zero_le 1
  · rw [hheld]
    exact Nat.le_refl 1
  · -- two different tickets would hold the one guard
    have hmem (v : Ticket) (hv : v ∈ t :: u :: ts) :
        v ∈ s.tickets ∧ v.id = id ∧ v.phase = .holding := by
      rw [← hheld] at hv
      exact ⟨(List.mem_filter.1 hv).1, of_decide_eq_true (List.mem_filter.1 hv).2⟩
    obtain ⟨ht, hid, hholds⟩ := hmem t List.mem_cons_self
    obtain ⟨hu, hid', hholds'⟩ := hmem u (List.mem_cons_of_mem t List.mem_cons_self)
    rw [hheld] at hnodup
    have heq := hs.holding_unique ht hu (hid.trans hid'.symm) hholds hholds'
    exact absurd (heq ▸ List.mem_cons_self) (List.nodup_cons.1 hnodup).1

/-- A ticket keeps id and mutex for as long as it lives. -/
theorem Stepped.badge_mem {a : Step} (h : s.Stepped a s') (hc : s.Counted) {t : Ticket}
    (ht : t ∈ s'.tickets) : t.key = s.nextTicket ∨ t.badge ∈ s.tickets.map Ticket.badge := by
  have hphase {key : Nat} {phase : Phase} (ht : t ∈ (s.setPhase key phase).tickets) :
      t.badge ∈ s.tickets.map Ticket.badge := by
    rw [← badges_setPhase s key phase]
    exact List.mem_map_of_mem ht
  cases h with
  | register id =>
    obtain ⟨slot, -, htickets⟩ := tickets_register s id
    rw [htickets] at ht
    rcases List.mem_append.1 ht with ht | ht
    · exact .inr (List.mem_map_of_mem ht)
    · rw [List.mem_singleton.1 ht]
      exact .inl rfl
  | queue => exact .inr (hphase ht)
  | obtain => exact .inr (hphase ht)
  | unlock => exact .inr (hphase ht)
  | abandon => exact .inr (hphase ht)
  | leave hu _ h =>
    rw [(leave?_eq_some hc hu h).1] at ht
    exact .inr (List.mem_map_of_mem (List.mem_filter.1 ht).1)

/-- The entry of an id is not made anew while a ticket on it is there. -/
theorem Reachable.mutex_stays (hs : s.Reachable) {a : Step} (h : s.step? a = some s')
    {t : Ticket} (ht : t ∈ s.tickets) (hstays : t.key ∈ s'.tickets.map Ticket.key) :
    (s'.slot? t.id).map Slot.mutex = (s.slot? t.id).map Slot.mutex := by
  obtain ⟨u, hu, hkey⟩ := List.mem_map.1 hstays
  have hold : u.badge ∈ s.tickets.map Ticket.badge := by
    rcases (stepped h).badge_mem hs.counted hu with hnew | hold
    · have hlt := hs.wellFormed.tickets t ht
      omega
    · exact hold
  obtain ⟨v, hv, hbadge⟩ := List.mem_map.1 hold
  simp only [Ticket.badge, Prod.mk.injEq] at hbadge
  obtain rfl := hs.counted.unique hv ht (hbadge.1.trans hkey)
  rw [hs.counted.mutex v hv, hbadge.2.1, hbadge.2.2]
  exact (Reachable.step a hs h).counted.mutex u hu

/-- **One at a time.**  Tickets register, queue, obtain and release guards, stop
waiting and leave, in any interleaving.

* The table has an entry for an id exactly while there are tickets on it, and
  counts them.  The count is positive as long as there is anything to take from
  it, and the size of the table is the number of ids with a ticket.
* All tickets on an id use the mutex of its entry, which stays the same while any
  of them is there.
* On each id, one ticket at most holds its guard. -/
theorem entries_and_holders (s : CriticalSections) (hs : s.Reachable) :
    (∀ id, (s.slot? id).isSome ↔ ∃ t ∈ s.tickets, t.id = id) ∧
    (∀ id slot, s.slot? id = some slot →
      0 < slot.holders ∧ slot.holders = s.tickets.countP fun t => t.id = id) ∧
    s.size = (s.tickets.map Ticket.id).toFinset.card ∧
    (∀ t ∈ s.tickets, (s.slot? t.id).map Slot.mutex = some t.mutex) ∧
    (∀ a s', s.step? a = some s' → ∀ t ∈ s.tickets, t.key ∈ s'.tickets.map Ticket.key →
      (s'.slot? t.id).map Slot.mutex = (s.slot? t.id).map Slot.mutex) ∧
    ∀ id, (s.tickets.countP fun t => t.id = id ∧ t.phase = .holding) ≤ 1 := by
  refine ⟨hs.isSome_slot?_iff, fun id slot h => ?_, hs.size_eq, hs.counted.mutex,
    fun a s' h t ht => hs.mutex_stays h ht, fun id => ?_⟩
  · exact ⟨hs.wellFormed.holders _ (mem_of_slot? h), hs.counted.holders id slot h⟩
  · exact hs.holders_le_one id

/-- Two tickets are on one id.  The first is granted the guard and gives up before
it takes it; the second obtains it, and a third registers behind the two. -/
def handover : CriticalSections :=
  empty.perform [.register Uuid.zero, .queue 0, .register Uuid.zero, .queue 1, .abandon 0,
    .obtain 1, .register Uuid.zero, .leave 0]

theorem handover_holder :
    handover.Reachable ∧ handover.slot? Uuid.zero = some ⟨0, 2⟩ ∧ handover.isHeld 1 ∧
      (∀ t ∈ handover.tickets, (handover.slot? t.id).map Slot.mutex = some t.mutex) ∧
      (handover.tickets.countP fun t => t.id = Uuid.zero ∧ t.phase = .holding) ≤ 1 := by
  have hreachable : handover.Reachable := Reachable.empty.perform _
  obtain ⟨-, -, -, hmutex, -, hholding⟩ := entries_and_holders handover hreachable
  exact ⟨hreachable, by decide, by decide, hmutex, hholding Uuid.zero⟩

end CriticalSections

end Chronicle
