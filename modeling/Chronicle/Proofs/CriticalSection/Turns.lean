/-
Chronicle/Proofs/CriticalSection/Turns.lean

Whose turn it is.

Names are looked at in their own order, and a mutex that is given up goes to the first in
its queue before that ticket is looked at again.  `Attended` follows the named tickets and
writes down each of them when it is looked at for the first time, for as long as it is not
dropped.  `Matched` says that the line of the critical sections is what was written down.
A name is `Served` if it holds its section just in case nobody on the same id came earlier:
every look serves its name and leaves the others served, so all are served after a round.

Main result: `first_come_first_served`.
-/
import Chronicle.CriticalSection.Tickets
import Chronicle.Proofs.CriticalSection.Line
import Chronicle.Proofs.Dictionary

namespace Chronicle.Tickets

/-! ### First looks -/

/-- A named ticket, as it is looked at for the first time: it gets its key then. -/
structure Arrival where
  name : String
  id : Uuid
  key : Nat
  deriving DecidableEq, Repr

/-- The name that a step is about. -/
def Step.name : Step → String
  | .enter name _ | .leave name => name

/-- Where the name stands right after the step: with a new ticket, or with none. -/
def Step.standing? : Step → Option Standing
  | .enter _ id => some (.fresh id)
  | .leave _ => none

theorem Step.eq_fresh_of_standing? (s : Step) {standing : Standing}
    (h : s.standing? = some standing) : ∃ id, standing = .fresh id := by
  cases s with
  | enter name id => exact ⟨id, (Option.some.inj h).symm⟩
  | leave => cases h

theorem mem_held_iff {t : Tickets} {name : String} :
    name ∈ t.held ↔ ∃ key, t.named.get? name = some (.held key) := by
  simp only [Dictionary.get?, valueOf?_eq_some_iff t.named.ordered.nodup]
  constructor
  · intro h
    obtain ⟨⟨name', standing⟩, he, rfl⟩ := List.mem_map.1 h
    obtain ⟨he, hheld⟩ := List.mem_filter.1 he
    cases standing with
    | held key => exact ⟨key, he⟩
    | fresh => cases hheld
    | waiting => cases hheld
  · rintro ⟨key, he⟩
    exact List.mem_map.2 ⟨_, List.mem_filter.2 ⟨he, rfl⟩, rfl⟩

/-- Named tickets, and those that have been looked at in the order of their first looks. -/
structure Attended where
  tickets : Tickets
  arrivals : List Arrival

namespace Attended

/-- No ticket. -/
def start : Attended := ⟨Tickets.empty, []⟩

/-- A look at the ticket of a name, which may be the first one. -/
def look (a : Attended) (name : String) : Attended :=
  ⟨a.tickets.look name,
    match a.tickets.named.get? name with
    | some (.fresh id) => a.arrivals ++ [⟨name, id, a.tickets.sections.nextTicket⟩]
    | _ => a.arrivals⟩

/-- Either step drops the ticket that had the name. -/
def change (a : Attended) (s : Step) : Attended :=
  ⟨a.tickets.change s, a.arrivals.filter fun x => x.name ≠ s.name⟩

/-- A change, and then a look at all tickets. -/
def step (a : Attended) (s : Step) : Attended :=
  let a := a.change s
  a.tickets.named.keys.foldl look a

/-- Steps one after the other. -/
def run (steps : List Step) : Attended := steps.foldl step start

/-- The ticket on an id that came before all others on it. -/
def first? (a : Attended) (id : Uuid) : Option Arrival := a.arrivals.find? fun x => x.id == id

theorem tickets_step (a : Attended) (s : Step) : (a.step s).tickets = a.tickets.step s :=
  (List.foldl_hom tickets fun _ _ => rfl).symm

/-- What is written down changes nothing. -/
theorem tickets_run (steps : List Step) :
    (run steps).tickets = steps.foldl Tickets.step Tickets.empty :=
  (List.foldl_hom tickets fun a s => (tickets_step a s).symm).symm

/-- After a look at a name only the other tickets can be new. -/
theorem fresh_look_iff (a : Attended) (name other : String) (id : Uuid) :
    (a.look name).tickets.named.get? other = some (.fresh id) ↔
      other ≠ name ∧ a.tickets.named.get? other = some (.fresh id) := by
  have hinsert (d : Dictionary Standing) (standing : Standing)
      (hknown : standing ≠ .fresh id) :
      (d.insert name standing).get? other = some (.fresh id) ↔
        other ≠ name ∧ d.get? other = some (.fresh id) := by
    rw [Dictionary.get?_insert]
    split
    · rename_i heq
      exact iff_of_false (fun h => hknown (Option.some.inj h)) fun h => h.1 heq
    · rename_i hne
      exact (and_iff_right hne).symm
  have hsame (hknown : a.tickets.named.get? name ≠ some (.fresh id)) :
      a.tickets.named.get? other = some (.fresh id) ↔
        other ≠ name ∧ a.tickets.named.get? other = some (.fresh id) := by
    refine ⟨fun h => ⟨?_, h⟩, And.right⟩
    rintro rfl
    exact hknown h
  unfold look Tickets.look
  rcases hget : a.tickets.named.get? name with _ | ⟨_ | _ | _⟩
  · exact hsame (hget ▸ nofun)
  · exact hinsert _ _ (by split <;> nofun)
  · exact hinsert _ _ (by split <;> nofun)
  · exact hsame (hget ▸ nofun)

/-- Only a new ticket is written down. -/
theorem arrivals_look_of_known {a : Attended} {name : String}
    (h : ∀ id, a.tickets.named.get? name ≠ some (.fresh id)) :
    (a.look name).arrivals = a.arrivals := by
  unfold look
  split
  · rename_i id hget
    exact absurd hget (h id)
  · rfl

/-- What a step has yet to write down behind those that stay, or has written down. -/
inductive Admits (s : Step) (front : List Arrival) (a : Attended) : Prop
  | due : a.arrivals = front →
      (∀ name id, a.tickets.named.get? name = some (.fresh id) ↔ s = .enter name id) →
      Admits s front a
  | done {name : String} {id : Uuid} {key : Nat} : s = .enter name id →
      a.arrivals = front ++ [⟨name, id, key⟩] →
      (∀ name id, a.tickets.named.get? name ≠ some (.fresh id)) → Admits s front a

theorem Admits.look {s : Step} {front : List Arrival} {a : Attended} (h : a.Admits s front)
    (name : String) : (a.look name).Admits s front := by
  cases h with
  | due harrivals hfresh =>
    by_cases hname : ∃ id, a.tickets.named.get? name = some (.fresh id)
    · obtain ⟨id, hget⟩ := hname
      obtain rfl := (hfresh name id).1 hget
      have hlate : (a.look name).arrivals = front ++ [⟨name, id, a.tickets.sections.nextTicket⟩] := by
        simp only [Attended.look, hget, harrivals]
      refine .done rfl hlate fun other id' hother => ?_
      obtain ⟨hne, hother⟩ := (fresh_look_iff a name other id').1 hother
      cases (hfresh other id').1 hother
      exact hne rfl
    · have hknown (id : Uuid) : a.tickets.named.get? name ≠ some (.fresh id) :=
        fun hget => hname ⟨id, hget⟩
      refine .due ((arrivals_look_of_known hknown).trans harrivals) fun other id => ?_
      rw [fresh_look_iff, hfresh]
      refine and_iff_right_of_imp ?_
      rintro hs rfl
      exact hknown id ((hfresh other id).2 hs)
  | done hs harrivals hknown =>
    have hlate := (arrivals_look_of_known (hknown name)).trans harrivals
    exact .done hs hlate fun other id hother => hknown other id ((fresh_look_iff ..).1 hother).2

theorem Admits.foldl_look {s : Step} {front : List Arrival} {a : Attended} (h : a.Admits s front)
    (names : List String) : (names.foldl Attended.look a).Admits s front := by
  induction names generalizing a with
  | nil => exact h
  | cons name names ih => exact ih (h.look name)

/-! ### The line and what was written down -/

/-- The tickets of the sections are those that were written down, in the same order. -/
structure Matched (a : Attended) : Prop where
  queued : a.tickets.sections.Queued
  tickets : a.tickets.sections.tickets.map (fun t => (t.key, t.id)) =
    a.arrivals.map fun x => (x.key, x.id)
  names : (a.arrivals.map Arrival.name).Nodup
  standing : ∀ x ∈ a.arrivals, a.tickets.named.get? x.name =
    some (if a.tickets.sections.isHeld x.key then .held x.key else .waiting x.key)
  /-- Whoever has not been written down is new. -/
  new : ∀ name standing, a.tickets.named.get? name = some standing →
    (∃ id, standing = .fresh id) ∨ ∃ x ∈ a.arrivals, x.name = name

theorem matched_start : start.Matched :=
  ⟨CriticalSections.queued_empty, rfl, .nil, fun _ h => absurd h List.not_mem_nil, nofun⟩

section

variable {a : Attended} (ha : a.Matched) {x y : Arrival}

include ha

theorem Matched.ticket (hx : x ∈ a.arrivals) :
    ∃ t ∈ a.tickets.sections.tickets, t.key = x.key ∧ t.id = x.id := by
  have hmem : (x.key, x.id) ∈ a.arrivals.map fun x => (x.key, x.id) := List.mem_map_of_mem hx
  rw [← ha.tickets] at hmem
  obtain ⟨t, ht, heq⟩ := List.mem_map.1 hmem
  exact ⟨t, ht, (Prod.mk.inj heq).1, (Prod.mk.inj heq).2⟩

theorem Matched.arrival {t : Ticket} (ht : t ∈ a.tickets.sections.tickets) :
    ∃ x ∈ a.arrivals, x.key = t.key ∧ x.id = t.id := by
  have hmem : (t.key, t.id) ∈ a.tickets.sections.tickets.map fun t => (t.key, t.id) :=
    List.mem_map_of_mem ht
  rw [ha.tickets] at hmem
  obtain ⟨x, hx, heq⟩ := List.mem_map.1 hmem
  exact ⟨x, hx, (Prod.mk.inj heq).1, (Prod.mk.inj heq).2⟩

theorem Matched.unique (hx : x ∈ a.arrivals) (hy : y ∈ a.arrivals) (h : x.key = y.key) :
    x = y := by
  have hkeys : (a.arrivals.map Arrival.key).Nodup := by
    have hmap := congrArg (List.map Prod.fst) ha.tickets
    rw [List.map_map, List.map_map] at hmap
    show (a.arrivals.map (Prod.fst ∘ fun x => (x.key, x.id))).Nodup
    rw [← hmap]
    exact ha.queued.reachable.counted.keys
  exact List.inj_on_of_nodup_map hkeys hx hy h

theorem Matched.eq_of_name (hx : x ∈ a.arrivals) (hy : y ∈ a.arrivals) (h : x.name = y.name) :
    x = y :=
  List.inj_on_of_nodup_map ha.names hx hy h

/-- The mutex of an id is granted to the ticket that was looked at first. -/
theorem Matched.granted_iff {t : Ticket} (ht : t ∈ a.tickets.sections.tickets)
    (hx : x ∈ a.arrivals) (hkey : t.key = x.key) (hid : t.id = x.id) :
    a.tickets.sections.granted? t.mutex = some t.key ↔ a.first? x.id = some x := by
  have hfirst : (a.tickets.sections.tickets.find? fun u => u.id == x.id).map Ticket.key =
      (a.first? x.id).map Arrival.key := by
    have hfind := congrArg
      (fun es : List (Nat × Uuid) => (es.find? fun e => e.2 == x.id).map Prod.fst) ha.tickets
    simp only [List.find?_map, Option.map_map] at hfind
    exact hfind
  rw [ha.queued.granted?_eq ht, hid, hfirst, hkey]
  constructor
  · intro h
    obtain ⟨y, hy, hyx⟩ := Option.map_eq_some_iff.1 h
    rw [hy, ha.unique (List.mem_of_find?_eq_some hy) hx hyx]
  · intro h
    rw [h]
    rfl

end

/-! ### Names that are served -/

/-- A name holds its section if and only if it is the first on the id. -/
structure Served (a : Attended) (name : String) : Prop where
  known : ∀ id, a.tickets.named.get? name ≠ some (.fresh id)
  turn : ∀ x ∈ a.arrivals, x.name = name →
    (a.tickets.sections.isHeld x.key ↔ a.first? x.id = some x)

/-- What a look at a name does. -/
structure Serves (name : String) (a a' : Attended) : Prop where
  matched : a'.Matched
  served : a'.Served name
  others : ∀ other, a.Served other → a'.Served other
  names : ∀ other, (a'.tickets.named.get? other).isSome → (a.tickets.named.get? other).isSome

/-- Whoever comes later is not the first. -/
theorem first?_append {a a' : Attended} {x : Arrival} (hx : x ∈ a.arrivals) {late : List Arrival}
    (h : a'.arrivals = a.arrivals ++ late) : a'.first? x.id = a.first? x.id := by
  have hsome : (a.arrivals.find? fun y => y.id == x.id).isSome :=
    List.find?_isSome.2 ⟨x, hx, beq_self_eq_true x.id⟩
  rw [first?, first?, h, List.find?_append, Option.or_of_isSome hsome]

/-- A ticket is written down, and waits behind all others. -/
def enlist (a : Attended) (name : String) (id : Uuid) : Attended :=
  let n := a.tickets.sections.nextTicket
  ⟨⟨a.tickets.sections.perform [.register id, .queue n], a.tickets.named.insert name (.waiting n)⟩,
    a.arrivals ++ [⟨name, id, n⟩]⟩

/-- A ticket takes the guard that it has been granted. -/
def obtain (a : Attended) (x : Arrival) : Attended :=
  ⟨⟨a.tickets.sections.setPhase x.key .holding, a.tickets.named.insert x.name (.held x.key)⟩,
    a.arrivals⟩

variable {a : Attended} {name : String} {id : Uuid} {x y : Arrival}

theorem get?_enlist (a : Attended) (name : String) (id : Uuid) (other : String) :
    (a.enlist name id).tickets.named.get? other =
      if other = name then some (.waiting a.tickets.sections.nextTicket)
      else a.tickets.named.get? other :=
  Dictionary.get?_insert ..

/-- The first look at a ticket writes it down, and then looks at it like any other. -/
theorem look_fresh (h : a.tickets.named.get? name = some (.fresh id)) :
    a.look name = (a.enlist name id).look name := by
  have henlisted : (a.enlist name id).tickets.named.get? name =
      some (.waiting a.tickets.sections.nextTicket) := by
    rw [get?_enlist, if_pos rfl]
  unfold look Tickets.look
  rw [h, henlisted]
  simp only [enlist, Dictionary.insert_insert]
  rfl

theorem Matched.not_mem_of_fresh (ha : a.Matched)
    (h : a.tickets.named.get? name = some (.fresh id)) : name ∉ a.arrivals.map Arrival.name := by
  intro hmem
  obtain ⟨x, hx, rfl⟩ := List.mem_map.1 hmem
  have hstanding := ha.standing x hx
  rw [h] at hstanding
  split at hstanding
  · cases hstanding
  · cases hstanding

theorem Matched.isHeld_enlist (ha : a.Matched) (key : Nat) :
    (a.enlist name id).tickets.sections.isHeld key = a.tickets.sections.isHeld key := by
  obtain ⟨mutex, -, htickets⟩ := ha.queued.join id
  show (CriticalSections.perform _ _).isHeld key = _
  rw [CriticalSections.isHeld, htickets, List.any_append]
  simp [CriticalSections.isHeld]

theorem Matched.enlist (ha : a.Matched) (h : a.tickets.named.get? name = some (.fresh id)) :
    (a.enlist name id).Matched := by
  obtain ⟨mutex, hqueued, htickets⟩ := ha.queued.join id
  have hnew := ha.not_mem_of_fresh h
  refine ⟨hqueued, ?_, ?_, fun x hx => ?_, fun other standing hother => ?_⟩
  · show (CriticalSections.perform _ _).tickets.map _ = _
    rw [htickets, List.map_append, ha.tickets, Attended.enlist, List.map_append]
    rfl
  · show ((a.arrivals ++ [_]).map Arrival.name).Nodup
    rw [List.map_append]
    exact List.nodup_append_comm.1 (List.nodup_cons.2 ⟨hnew, ha.names⟩)
  · rw [get?_enlist, ha.isHeld_enlist]
    rcases List.mem_append.1 hx with hx | hx
    · have hne : x.name ≠ name := fun heq => hnew (List.mem_map.2 ⟨x, hx, heq⟩)
      rw [if_neg hne]
      exact ha.standing x hx
    · -- the key of the new ticket was never given before
      obtain rfl := List.mem_singleton.1 hx
      have hnot : ¬a.tickets.sections.isHeld a.tickets.sections.nextTicket := by
        rw [CriticalSections.isHeld_iff]
        rintro ⟨t, ht, hkey, -⟩
        exact Nat.ne_of_lt (ha.queued.reachable.wellFormed.tickets t ht) hkey
      rw [if_pos rfl, if_neg hnot]
  · rw [get?_enlist] at hother
    by_cases heq : other = name
    · exact .inr ⟨_, List.mem_append_right _ List.mem_cons_self, heq.symm⟩
    · rw [if_neg heq] at hother
      refine (ha.new other standing hother).imp_right ?_
      rintro ⟨x, hx, hname⟩
      exact ⟨x, List.mem_append_left _ hx, hname⟩

/-- Others are served as before when a ticket is written down. -/
theorem Served.enlist {other : String} (hs : a.Served other) (ha : a.Matched)
    (h : a.tickets.named.get? name = some (.fresh id)) : (a.enlist name id).Served other := by
  have hne : other ≠ name := fun heq => hs.known id (heq ▸ h)
  refine ⟨fun id' => ?_, fun x hx hname => ?_⟩
  · rw [get?_enlist, if_neg hne]
    exact hs.known id'
  · rcases List.mem_append.1 hx with hx | hx
    · rw [ha.isHeld_enlist, first?_append hx rfl]
      exact hs.turn x hx hname
    · obtain rfl := List.mem_singleton.1 hx
      exact absurd hname.symm hne

/-! ### Looks at tickets that have been written down -/

theorem get?_obtain (a : Attended) (x : Arrival) (other : String) :
    (a.obtain x).tickets.named.get? other =
      if other = x.name then some (.held x.key) else a.tickets.named.get? other :=
  Dictionary.get?_insert ..

theorem Matched.isHeld_obtain (ha : a.Matched) (hx : x ∈ a.arrivals) :
    (a.obtain x).tickets.sections.isHeld x.key := by
  obtain ⟨t, ht, hkey, -⟩ := ha.ticket hx
  have hmem : { t with phase := .holding } ∈ (a.obtain x).tickets.sections.tickets := by
    rw [obtain, ← hkey]
    exact CriticalSections.mem_setPhase_self ht .holding
  exact CriticalSections.isHeld_iff.2 ⟨_, hmem, hkey, rfl⟩

theorem Matched.isHeld_obtain_of_ne (ha : a.Matched) (hx : x ∈ a.arrivals) (hy : y ∈ a.arrivals)
    (h : y.name ≠ x.name) :
    (a.obtain x).tickets.sections.isHeld y.key = a.tickets.sections.isHeld y.key :=
  CriticalSections.isHeld_setPhase_of_ne
    (fun heq => h (congrArg Arrival.name (ha.unique hy hx heq))) .holding

/-- A ticket that waits obtains its section if it is the first on the id. -/
theorem Matched.look_waiting (ha : a.Matched) (hx : x ∈ a.arrivals)
    (h : a.tickets.named.get? x.name = some (.waiting x.key)) :
    a.first? x.id = some x ∧ a.look x.name = a.obtain x ∧ (a.obtain x).tickets.sections.Queued ∨
      a.first? x.id ≠ some x ∧ a.look x.name = a := by
  obtain ⟨t, ht, hkey, hid⟩ := ha.ticket hx
  have hwaits : ¬a.tickets.sections.isHeld x.key := by
    intro hheld
    have hstanding := ha.standing x hx
    rw [h, if_pos hheld] at hstanding
    cases hstanding
  have hphase : t.phase = .queued := by
    refine (ha.queued.inLine t ht).resolve_right fun hholds => hwaits ?_
    rw [← hkey]
    exact (ha.queued.reachable.counted.isHeld_iff ht).2 hholds
  have hlook : a.look x.name =
      ⟨⟨a.tickets.sections.perform [.obtain x.key], a.tickets.named.insert x.name
        (if (a.tickets.sections.perform [.obtain x.key]).isHeld x.key then .held x.key
          else .waiting x.key)⟩, a.arrivals⟩ := by
    unfold look Tickets.look
    rw [h]
  by_cases hfirst : a.first? x.id = some x
  · have hgranted := (ha.granted_iff ht hx hkey hid).2 hfirst
    obtain ⟨hperform, hqueued⟩ := ha.queued.perform_obtain ht hphase hgranted
    rw [hkey] at hperform hqueued
    refine .inl ⟨hfirst, ?_, hqueued⟩
    have hheld : (a.tickets.sections.setPhase x.key .holding).isHeld x.key := ha.isHeld_obtain hx
    rw [hlook, hperform, if_pos hheld]
    rfl
  · have hgranted : ¬a.tickets.sections.granted? t.mutex = some t.key := fun hgranted =>
      hfirst ((ha.granted_iff ht hx hkey hid).1 hgranted)
    have hperform := CriticalSections.perform_obtain
      (ha.queued.reachable.counted.ticket? ht) hphase
    rw [if_neg hgranted, hkey] at hperform
    refine .inr ⟨hfirst, ?_⟩
    rw [hlook, hperform, if_neg hwaits, Dictionary.insert_self h]

theorem Matched.obtain (ha : a.Matched) (hx : x ∈ a.arrivals)
    (hqueued : (a.obtain x).tickets.sections.Queued) : (a.obtain x).Matched := by
  refine ⟨hqueued, ?_, ha.names, fun y hy => ?_, fun other standing h => ?_⟩
  · have hbadges := congrArg (List.map fun b : Nat × Uuid × Nat => (b.1, b.2.1))
      (CriticalSections.badges_setPhase a.tickets.sections x.key .holding)
    rw [List.map_map, List.map_map] at hbadges
    exact hbadges.trans ha.tickets
  · rw [get?_obtain]
    by_cases hname : y.name = x.name
    · obtain rfl := ha.eq_of_name hy hx hname
      rw [if_pos rfl, if_pos (ha.isHeld_obtain hx)]
    · rw [if_neg hname, ha.isHeld_obtain_of_ne hx hy hname]
      exact ha.standing y hy
  · rw [get?_obtain] at h
    by_cases hname : other = x.name
    · exact .inr ⟨x, hx, hname.symm⟩
    · rw [if_neg hname] at h
      exact ha.new other standing h

/-- A ticket that has not been written down is absent. -/
theorem Matched.get?_eq_none (ha : a.Matched)
    (h : ∀ id, a.tickets.named.get? name ≠ some (.fresh id))
    (hname : ∀ x ∈ a.arrivals, x.name ≠ name) : a.tickets.named.get? name = none := by
  rcases hget : a.tickets.named.get? name with _ | standing
  · rfl
  · rcases ha.new name standing hget with ⟨id, rfl⟩ | ⟨x, hx, heq⟩
    · exact absurd hget (h id)
    · exact absurd heq (hname x hx)

/-- Whoever holds a section came first. -/
theorem Matched.first_of_isHeld (ha : a.Matched) (hx : x ∈ a.arrivals)
    (h : a.tickets.sections.isHeld x.key) : a.first? x.id = some x := by
  obtain ⟨t, ht, hkey, hid⟩ := ha.ticket hx
  have hholds := (ha.queued.reachable.counted.isHeld_iff ht).1 (hkey ▸ h)
  exact (ha.granted_iff ht hx hkey hid).1 (ha.queued.reachable.lined.holding t ht hholds)

/-- A look at a ticket that has been written down, or at none. -/
theorem Matched.look_known (ha : a.Matched)
    (h : ∀ id, a.tickets.named.get? name ≠ some (.fresh id)) : Serves name a (a.look name) := by
  -- if nothing changes, the name was served before
  have hsame (hlook : a.look name = a) (hturn : ∀ x ∈ a.arrivals, x.name = name →
      a.first? x.id = some x → a.tickets.sections.isHeld x.key) : Serves name a (a.look name) := by
    rw [hlook]
    exact ⟨ha, ⟨h, fun x hx hname => ⟨ha.first_of_isHeld hx, hturn x hx hname⟩⟩, fun _ h => h,
      fun _ h => h⟩
  by_cases hname : ∃ x ∈ a.arrivals, x.name = name
  · obtain ⟨x, hx, rfl⟩ := hname
    have hstanding := ha.standing x hx
    by_cases hheld : a.tickets.sections.isHeld x.key
    · rw [if_pos hheld] at hstanding
      refine hsame ?_ fun y hy hyx _ => ha.eq_of_name hy hx hyx ▸ hheld
      unfold look Tickets.look
      rw [hstanding]
    · rw [if_neg hheld] at hstanding
      rcases ha.look_waiting hx hstanding with ⟨hfirst, hlook, hqueued⟩ | ⟨hfirst, hlook⟩
      · have hself : (a.obtain x).Served x.name := by
          refine ⟨fun id => ?_, fun y hy hyx => ?_⟩
          · rw [get?_obtain, if_pos rfl]
            nofun
          · obtain rfl := ha.eq_of_name hy hx hyx
            exact iff_of_true (ha.isHeld_obtain hx) hfirst
        rw [hlook]
        refine ⟨ha.obtain hx hqueued, hself, fun other hother => ?_, fun other hother => ?_⟩
        · by_cases hne : other = x.name
          · exact hne ▸ hself
          · refine ⟨fun id => ?_, fun y hy hyx => ?_⟩
            · rw [get?_obtain, if_neg hne]
              exact hother.known id
            · rw [ha.isHeld_obtain_of_ne hx hy (hyx.trans_ne hne)]
              exact hother.turn y hy hyx
        · rw [get?_obtain] at hother
          split at hother
          · rename_i heq
            rw [heq, hstanding]
            rfl
          · exact hother
      · exact hsame hlook fun y hy hyx hfirst' => by
          obtain rfl := ha.eq_of_name hy hx hyx
          exact absurd hfirst' hfirst
  · have hnone := ha.get?_eq_none h fun x hx heq => hname ⟨x, hx, heq⟩
    refine hsame ?_ fun x hx heq => absurd ⟨x, hx, heq⟩ hname
    unfold look Tickets.look
    rw [hnone]

/-- Every look serves the name. -/
theorem Matched.look (ha : a.Matched) (name : String) : Serves name a (a.look name) := by
  by_cases h : ∃ id, a.tickets.named.get? name = some (.fresh id)
  · obtain ⟨id, h⟩ := h
    have hknown (id' : Uuid) : (a.enlist name id).tickets.named.get? name ≠ some (.fresh id') := by
      rw [get?_enlist, if_pos rfl]
      nofun
    have hlook := (ha.enlist h).look_known hknown
    rw [look_fresh h]
    refine ⟨hlook.matched, hlook.served,
      fun other hother => hlook.others other (hother.enlist ha h), fun other hother => ?_⟩
    have hother := hlook.names other hother
    rw [get?_enlist] at hother
    split at hother
    · rename_i heq
      rw [heq, h]
      rfl
    · exact hother
  · exact ha.look_known fun id hid => h ⟨id, hid⟩

/-- After a look at each name of a list, all of them are served. -/
theorem Matched.foldl_look (ha : a.Matched) (names : List String) :
    (names.foldl Attended.look a).Matched ∧
    (∀ name, name ∈ names ∨ a.Served name → (names.foldl Attended.look a).Served name) ∧
    ∀ name, ((names.foldl Attended.look a).tickets.named.get? name).isSome →
      (a.tickets.named.get? name).isSome := by
  induction names generalizing a with
  | nil =>
    refine ⟨ha, ?_, fun _ h => h⟩
    rintro name (h | h)
    · cases h
    · exact h
  | cons name names ih =>
    have hlook := ha.look name
    obtain ⟨hmatched, hserved, hnames⟩ := ih hlook.matched
    refine ⟨hmatched, ?_, fun other h => hlook.names other (hnames other h)⟩
    rintro other (h | h)
    · rcases List.mem_cons.1 h with rfl | h
      · exact hserved other (.inr hlook.served)
      · exact hserved other (.inl h)
    · exact hserved other (.inr (hlook.others other h))

/-! ### Steps -/

/-- The tickets are matched, and all names are served. -/
structure Orderly (a : Attended) : Prop where
  matched : a.Matched
  served : ∀ name, a.Served name

theorem orderly_start : start.Orderly :=
  ⟨matched_start, fun _ => ⟨nofun, fun _ h => absurd h List.not_mem_nil⟩⟩

/-- Dropping the ticket of a name leaves the others in their order. -/
theorem Matched.dropNamed (ha : a.Matched) (name : String) :
    (a.tickets.dropNamed name).Queued ∧
    (a.tickets.dropNamed name).tickets.map (fun t => (t.key, t.id)) =
      (a.arrivals.filter fun x => x.name ≠ name).map (fun x => (x.key, x.id)) ∧
    ∀ x ∈ a.arrivals, x.name ≠ name →
      (a.tickets.dropNamed name).isHeld x.key = a.tickets.sections.isHeld x.key := by
  by_cases hname : ∃ x ∈ a.arrivals, x.name = name
  · obtain ⟨x, hx, rfl⟩ := hname
    obtain ⟨t, ht, hkey, -⟩ := ha.ticket hx
    have hdrop : a.tickets.dropNamed x.name = a.tickets.sections.exit t.key := by
      rw [Tickets.dropNamed, ha.standing x hx, hkey]
      split
      · rename_i standing heq
        split at heq
        · cases heq
          rfl
        · cases heq
          rfl
      · rename_i heq
        cases heq
    obtain ⟨hqueued, htickets⟩ := ha.queued.exit ht
    rw [hdrop]
    refine ⟨hqueued, ?_, fun y hy hyx => ?_⟩
    · have hfilter := congrArg (List.filter fun e : Nat × Uuid => decide (e.1 ≠ x.key)) ha.tickets
      rw [List.filter_map, List.filter_map] at hfilter
      rw [htickets, hkey]
      refine hfilter.trans (congrArg (List.map _) (List.filter_congr fun y hy => ?_))
      -- names and keys tell tickets apart alike
      have hiff : y.key ≠ x.key ↔ y.name ≠ x.name := by
        refine not_congr ⟨fun h => ?_, fun h => ?_⟩
        · rw [ha.unique hy hx h]
        · rw [ha.eq_of_name hy hx h]
      exact decide_eq_decide.2 hiff
    · have hne : y.key ≠ t.key := fun heq =>
        hyx (congrArg Arrival.name (ha.unique hy hx (heq.trans hkey)))
      rw [Bool.eq_iff_iff, CriticalSections.isHeld_iff, CriticalSections.isHeld_iff, htickets]
      constructor
      · rintro ⟨u, hu, h⟩
        exact ⟨u, (List.mem_filter.1 hu).1, h⟩
      · rintro ⟨u, hu, heq, hholds⟩
        exact ⟨u, List.mem_filter.2 ⟨hu, decide_eq_true (heq ▸ hne)⟩, heq, hholds⟩
  · have hkept : (a.arrivals.filter fun x => x.name ≠ name) = a.arrivals :=
      List.filter_eq_self.2 fun x hx => decide_eq_true fun heq => hname ⟨x, hx, heq⟩
    have hdrop : a.tickets.dropNamed name = a.tickets.sections := by
      unfold Tickets.dropNamed
      split
      · rename_i standing hget
        rcases ha.new name standing hget with ⟨id, rfl⟩ | h
        · rfl
        · exact absurd h hname
      · rfl
    rw [hdrop, hkept]
    exact ⟨ha.queued, ha.tickets, fun _ _ _ => rfl⟩

theorem get?_change (a : Attended) (s : Step) (other : String) :
    (a.change s).tickets.named.get? other =
      if other = s.name then s.standing? else a.tickets.named.get? other := by
  cases s with
  | enter name id => exact Dictionary.get?_insert ..
  | leave name => exact Dictionary.get?_erase ..

theorem Matched.change (ha : a.Matched) (s : Step) : (a.change s).Matched := by
  obtain ⟨hqueued, htickets, hheld⟩ := ha.dropNamed s.name
  have hsections : (a.change s).tickets.sections = a.tickets.dropNamed s.name := by
    cases s with
    | enter => rfl
    | leave => rfl
  refine ⟨hsections ▸ hqueued, hsections ▸ htickets, ?_, fun x hx => ?_, fun other standing h => ?_⟩
  · exact ha.names.sublist (List.filter_sublist.map _)
  · obtain ⟨hx, hne⟩ := List.mem_filter.1 hx
    rw [get?_change, if_neg (of_decide_eq_true hne), hsections,
      hheld x hx (of_decide_eq_true hne)]
    exact ha.standing x hx
  · rw [get?_change] at h
    by_cases hne : other = s.name
    · rw [if_pos hne] at h
      exact .inl (s.eq_fresh_of_standing? h)
    · rw [if_neg hne] at h
      refine (ha.new other standing h).imp_right ?_
      rintro ⟨x, hx, rfl⟩
      exact ⟨x, List.mem_filter.2 ⟨hx, decide_eq_true hne⟩, rfl⟩

/-- A step, with the looks that follow it, keeps the tickets in order. -/
theorem Matched.step (ha : a.Matched) (s : Step) : (a.step s).Orderly := by
  obtain ⟨hmatched, hserved, hnames⟩ :=
    (ha.change s).foldl_look (a.change s).tickets.named.keys
  refine ⟨hmatched, fun name => ?_⟩
  by_cases hmem : name ∈ (a.change s).tickets.named.keys
  · exact hserved name (.inl hmem)
  · -- a name without a ticket is served
    have hnone (standing : Standing) : (a.step s).tickets.named.get? name ≠ some standing := by
      intro h
      exact hmem (Dictionary.mem_keys.2 (hnames name (Option.isSome_iff_exists.2 ⟨_, h⟩)))
    refine ⟨fun id => hnone _, ?_⟩
    rintro x hx rfl
    exact absurd (hmatched.standing x hx) (hnone _)

/-- A step brings the ticket that enters, and no other. -/
theorem Orderly.admits_step (ha : a.Orderly) (s : Step) :
    (a.step s).Admits s (a.arrivals.filter fun x => x.name ≠ s.name) := by
  have hdue : (a.change s).Admits s (a.arrivals.filter fun x => x.name ≠ s.name) := by
    refine .due rfl fun other id => ?_
    rw [get?_change]
    by_cases hother : other = s.name
    · rw [if_pos hother, hother]
      cases s with
      | enter name id' => simp [Step.standing?, Step.name]
      | leave name => simp [Step.standing?]
    · rw [if_neg hother]
      refine iff_of_false ((ha.served other).known id) ?_
      rintro rfl
      exact hother rfl
  exact hdue.foldl_look _

theorem run_concat (steps : List Step) (s : Step) : run (steps ++ [s]) = (run steps).step s :=
  List.foldl_concat ..

theorem orderly_run (steps : List Step) : (run steps).Orderly := by
  induction steps using List.reverseRecOn with
  | nil => exact orderly_start
  | append_singleton steps s ih =>
    rw [run_concat]
    exact ih.matched.step s

/-! ### Whose turn it is -/

theorem Matched.mem_held_iff (ha : a.Matched) (hx : x ∈ a.arrivals) :
    x.name ∈ a.tickets.held ↔ a.tickets.sections.isHeld x.key := by
  rw [Tickets.mem_held_iff, ha.standing x hx]
  by_cases hheld : a.tickets.sections.isHeld x.key
  · simp [hheld]
  · simp [hheld]

theorem Orderly.mem_held_iff (ha : a.Orderly) (hx : x ∈ a.arrivals) :
    x.name ∈ a.tickets.held ↔ a.first? x.id = some x :=
  (ha.matched.mem_held_iff hx).trans ((ha.served x.name).turn x hx rfl)

/-- Exactly one ticket on an id is held, as long as there are any. -/
theorem Orderly.existsUnique_held (ha : a.Orderly) (hx : x ∈ a.arrivals) :
    ∃! y, y ∈ a.arrivals ∧ y.id = x.id ∧ y.name ∈ a.tickets.held := by
  have hsome : (a.first? x.id).isSome := List.find?_isSome.2 ⟨x, hx, beq_self_eq_true x.id⟩
  obtain ⟨y, hy⟩ := Option.isSome_iff_exists.1 hsome
  have hmem : y ∈ a.arrivals := List.mem_of_find?_eq_some hy
  have hid : y.id = x.id := by simpa using List.find?_some hy
  refine ⟨y, ⟨hmem, hid, (ha.mem_held_iff hmem).2 (hid ▸ hy)⟩, ?_⟩
  rintro z ⟨hz, hzid, hheld⟩
  have hfirst := (ha.mem_held_iff hz).1 hheld
  rw [hzid, hy] at hfirst
  exact (Option.some.inj hfirst).symm

/-- **First come, first served.**  Tickets are created and dropped under any names and on
any ids, in any order; a new ticket replaces the one that had the name, and whoever is
dropped may hold its section, wait for it or not be there.  After each of these steps all
tickets are looked at, in the order of their names.

* Every ticket that is not dropped has been looked at, and stands in the sections on its
  id, where nobody else stands.
* Of the tickets on one id exactly one is held.  It is the one among them that was looked
  at before all others.
* Every step leaves the tickets that it does not drop in the same order.  A ticket that
  enters comes behind them, with its name and id, and whoever leaves is gone. -/
theorem first_come_first_served (steps : List Step) :
    (run steps).tickets = steps.foldl Tickets.step Tickets.empty ∧
    ((run steps).arrivals.map Arrival.name).Nodup ∧
    (∀ name, ((run steps).tickets.named.get? name).isSome ↔
      name ∈ (run steps).arrivals.map Arrival.name) ∧
    (∀ x ∈ (run steps).arrivals, ∃ t ∈ (run steps).tickets.sections.tickets,
      t.key = x.key ∧ t.id = x.id ∧ (run steps).tickets.named.get? x.name =
        some (if t.phase = .holding then .held t.key else .waiting t.key)) ∧
    (∀ t ∈ (run steps).tickets.sections.tickets, ∃ x ∈ (run steps).arrivals,
      x.key = t.key ∧ x.id = t.id) ∧
    (∀ x ∈ (run steps).arrivals,
      ∃! y, y ∈ (run steps).arrivals ∧ y.id = x.id ∧ y.name ∈ (run steps).tickets.held) ∧
    (∀ x ∈ (run steps).arrivals, x.name ∈ (run steps).tickets.held ↔
      (run steps).arrivals.find? (fun y => y.id == x.id) = some x) ∧
    (∀ name id, ∃ key, (run (steps ++ [.enter name id])).arrivals =
      ((run steps).arrivals.filter fun x => x.name ≠ name) ++ [⟨name, id, key⟩]) ∧
    ∀ name, (run (steps ++ [.leave name])).arrivals =
      (run steps).arrivals.filter fun x => x.name ≠ name := by
  have ha := orderly_run steps
  refine ⟨tickets_run steps, ha.matched.names, fun name => ?_, fun x hx => ?_,
    fun t ht => ha.matched.arrival ht, fun x hx => ha.existsUnique_held hx,
    fun x hx => ha.mem_held_iff hx, fun name id => ?_, fun name => ?_⟩
  · constructor
    · intro h
      obtain ⟨standing, hget⟩ := Option.isSome_iff_exists.1 h
      rcases ha.matched.new name standing hget with ⟨id, rfl⟩ | ⟨x, hx, rfl⟩
      · exact absurd hget ((ha.served name).known id)
      · exact List.mem_map_of_mem hx
    · intro h
      obtain ⟨x, hx, rfl⟩ := List.mem_map.1 h
      rw [ha.matched.standing x hx]
      rfl
  · obtain ⟨t, ht, hkey, hid⟩ := ha.matched.ticket hx
    refine ⟨t, ht, hkey, hid, ?_⟩
    rw [ha.matched.standing x hx, ← hkey]
    simp only [ha.matched.queued.reachable.counted.isHeld_iff ht]
  · have hserved := (orderly_run (steps ++ [.enter name id])).served name
    have hadmits := ha.admits_step (.enter name id)
    rw [← run_concat] at hadmits
    cases hadmits with
    | due _ hfresh => exact absurd ((hfresh name id).2 rfl) (hserved.known id)
    | done hs harrivals =>
      cases hs
      exact ⟨_, harrivals⟩
  · have hadmits := ha.admits_step (.leave name)
    rw [← run_concat] at hadmits
    cases hadmits with
    | due harrivals => exact harrivals
    | done hs => cases hs

/-- The holder is replaced by a ticket that waits behind the other one. -/
example : ([.enter "a" Uuid.zero, .enter "b" Uuid.zero, .enter "a" Uuid.zero].foldl Tickets.step
    Tickets.empty).held = ["b"] := by
  decide

end Attended

end Chronicle.Tickets
