/-
Chronicle/Proofs/Gateway/Log.lean

The log over whole runs, and how it is read.

Commands sent one after the other append rows with the metadata that they were sent
with, and nothing else (`Gateway.goesOn_after`).  The events of an aggregate are
read all at once, so one whose metadata cannot be read back would hide the others.
`EventRow.Legible` says that a row can be read.

Main result: when all rows can be read, then so can the events of every aggregate
(`Store.eventsOf_eq_ok`).
-/
import Chronicle.Proofs.Gateway.Replay
import Chronicle.Proofs.Json.Values

namespace Chronicle

variable {D : Domain} {R W : Type}

open Session Database

/-! ### Metadata that can be read -/

/-- Metadata that can be read back, if perhaps not as the same. -/
def Metadata.Readable (m : Metadata) : Prop := ∃ m', Metadata.codec.decode m.tree = some m'

theorem Metadata.Plain.readable {m : Metadata} (h : m.Plain) : m.Readable := ⟨m, h.ofTree?_tree⟩

/-- A row whose metadata can be read. -/
def EventRow.Legible (row : EventRow) : Prop :=
  ∃ m, Metadata.codec.deserialize row.typeName row.metadata = .ok m

theorem EventRow.legible_of_text {row : EventRow} {m : Metadata} (h : m.Readable)
    (hrow : row.metadata = m.text) : row.Legible := by
  obtain ⟨m', hm'⟩ := h
  refine ⟨m', ?_⟩
  rw [hrow]
  show Metadata.codec.deserialize row.typeName m.tree.render = _
  rw [Codec.deserialize_render, hm']

namespace Gateway

/-! ### Whole runs -/

/-- Commands sent one after the other append rows that can be read. -/
theorem goesOn_after {r : Registry D (Session R W)} (hr : r.KeepsLog) {xs : List (Sending D)}
    (hxs : ∀ x ∈ xs, x.metadata.Readable) (s : Session R W) :
    s.store.committed.log.GoesOn EventRow.Legible (after r s xs).store.committed.log := by
  induction xs generalizing s with
  | nil => exact .refl _
  | cons x xs ih =>
    have hfirst := goesOn_send hr x.ctx x.metadata x.type x.command x.seconds s
    have hrest := ih (fun y hy => hxs y (List.mem_cons_of_mem x hy))
      ((send r x.ctx x.metadata x.type x.command x.seconds).run s).2
    refine .trans (hfirst.mono ?_) hrest
    intro row hrow
    exact EventRow.legible_of_text (hxs x List.mem_cons_self) hrow

end Gateway

/-! ### Reading the log -/

/-- A traversal without failures answers for every element, and for no others. -/
theorem exists_mapM_eq_ok {α β ε : Type} {f : α → Except ε β} {xs : List α}
    (h : ∀ x ∈ xs, ∃ y, f x = .ok y) :
    ∃ ys, xs.mapM f = .ok ys ∧ ∀ y, y ∈ ys ↔ ∃ x ∈ xs, f x = .ok y := by
  induction xs with
  | nil => exact ⟨[], rfl, fun y => by simp⟩
  | cons x xs ih =>
    obtain ⟨y, hy⟩ := h x List.mem_cons_self
    obtain ⟨ys, hys, hmem⟩ := ih fun x hx => h x (List.mem_cons_of_mem _ hx)
    refine ⟨y :: ys, ?_, fun y' => ?_⟩
    · rw [List.mapM_cons, hy]
      show (xs.mapM f >>= fun ys => pure (y :: ys)) = _
      rw [hys]
      rfl
    · rw [List.mem_cons, hmem, List.exists_mem_cons_iff, hy, Except.ok.injEq, eq_comm]

namespace Store

theorem globalSequence_of_recordOf {sequence : Int} {row : EventRow} {record : EventRecord}
    (h : recordOf sequence row = .ok record) : record.globalSequence = sequence := by
  unfold recordOf at h
  rcases hmetadata : Metadata.codec.deserialize row.typeName row.metadata with e | metadata
  · rw [hmetadata] at h
    cases h
  · rw [hmetadata] at h
    cases h
    rfl

/-- The events of an aggregate can be read when all rows can.  The record of a row
is among them, and the only one of its number. -/
theorem eventsOf_eq_ok {s : Store R} (hlegible : ∀ e ∈ s.committed.log.rows, e.2.Legible)
    (hnumbered : s.committed.log.Numbered) {sequence : Int} {row : EventRow} {record : EventRecord}
    (hmem : (sequence, row) ∈ s.committed.log.rows) (hrecord : recordOf sequence row = .ok record) :
    ∃ records, (eventsOf row.aggregateGlobalId).run s = (.ok records, s) ∧ record ∈ records ∧
      ∀ record' ∈ records, record'.globalSequence = sequence → record' = record := by
  obtain ⟨t, ht⟩ : ∃ t, s.committed.events = some t := by
    rcases hevents : s.committed.events with _ | t
    · rw [Database.log, hevents] at hmem
      cases hmem
    · exact ⟨t, rfl⟩
  rw [log_of_some ht] at hlegible hnumbered hmem
  let own (e : Int × EventRow) : Bool := e.2.aggregateGlobalId == row.aggregateGlobalId
  have hread : ∀ e ∈ t.rows.filter own, ∃ record, recordOf e.1 e.2 = .ok record := by
    intro e he
    obtain ⟨m, hm⟩ := hlegible e (List.mem_filter.1 he).1
    exact ⟨_, recordOf_eq_ok hm⟩
  obtain ⟨records, hrecords, hiff⟩ := exists_mapM_eq_ok hread
  refine ⟨records, ?_, ?_, ?_⟩
  · rw [run_eventsOf ht, hrecords]
  · refine (hiff record).2 ⟨(sequence, row), List.mem_filter.2 ⟨hmem, ?_⟩, hrecord⟩
    exact beq_self_eq_true _
  · intro record' hrecord' hsequence
    obtain ⟨⟨k, row'⟩, he, heq⟩ := (hiff record').1 hrecord'
    have hmem' := (List.mem_filter.1 he).1
    -- a record has the number of its row, and no two rows share one
    have hk : k = sequence := by
      rw [← hsequence]
      exact (globalSequence_of_recordOf heq).symm
    subst hk
    rw [hnumbered.unique hmem' hmem, hrecord] at heq
    exact (Except.ok.inj heq).symm

end Store

end Chronicle
