/-
Chronicle/Proofs/Store/Journal.lean

Which appends are in the log.

Calls go to a store through any contexts: appends of any events for any aggregates, with
begins and ends of units of work and with other statements in between.  From the calls and
their answers alone a `Journal` is kept.  It has the appends that succeeded, with the
sequences that they gave: those that are committed, and those of the unit of work in
progress, which a rollback takes back, as does a commit that the storage refuses.

`Journal.Tells` is what the journal tells about the store: the rows of the log that is
committed, and of the one that is pending, are those that were there at first and then
those of its appends.  It holds at the start and is kept by every call.

Main result: `committed_appends_listed`.
-/
import Chronicle.Bench.Vocabulary
import Chronicle.Proofs.Json.Values
import Chronicle.Proofs.Store.Log
import Chronicle.Proofs.Store.Segments
import Mathlib.Data.List.Forall2

namespace Chronicle

variable {D : Domain} {R : Type}

/-! ### Appended events -/

/-- An event of an aggregate, with the metadata under which it is appended. -/
structure Entry (D : Domain) where
  globalId : Int
  event : AnyEvent D
  metadata : Metadata

/-- An entry that was appended, and the sequence that was given for it. -/
structure Appended (D : Domain) extends Entry D where
  sequence : Int

namespace Appended

/-- The numbered row of an appended event. -/
def IsRow (a : Appended D) (r : Int × EventRow) : Prop :=
  r.1 = a.sequence ∧ Store.eventRow a.globalId a.metadata a.event = .ok r.2

/-- The record under which an appended event is listed. -/
structure IsRecord (a : Appended D) (r : EventRecord) : Prop where
  sequence : r.globalSequence = a.sequence
  globalId : r.aggregateGlobalId = a.globalId
  typeName : r.typeName = a.event.typeName
  payload : a.event.payload = .ok r.payload
  metadata : r.metadata = a.metadata

/-- The row of an event with plain metadata is read as its record. -/
theorem IsRow.read {a : Appended D} {r : Int × EventRow} (h : a.IsRow r) (hplain : a.metadata.Plain) :
    ∃ record, Store.recordOf r.1 r.2 = .ok record ∧ a.IsRecord record := by
  obtain ⟨hsequence, hrow⟩ := h
  obtain ⟨payload, hpayload, hr⟩ := Store.eventRow_eq_ok.1 hrow
  have hmetadata : Metadata.codec.deserialize r.2.typeName r.2.metadata = .ok a.metadata := by
    rw [hr]
    exact hplain.read_text _
  refine ⟨_, Store.recordOf_eq_ok hmetadata, hsequence, ?_, ?_, ?_, rfl⟩
  · rw [hr]
  · rw [hr]
  · rw [hr]
    exact hpayload

theorem IsRow.aggregateGlobalId {a : Appended D} {r : Int × EventRow} (h : a.IsRow r) :
    r.2.aggregateGlobalId = a.globalId := by
  obtain ⟨payload, -, hr⟩ := Store.eventRow_eq_ok.1 h.2
  rw [hr]

/-- The numbers of the rows are the sequences of the appends. -/
theorem numbers_of_rows {xs : List (Appended D)} {rows : List (Int × EventRow)}
    (h : List.Forall₂ IsRow xs rows) : rows.map Prod.fst = xs.map Appended.sequence := by
  induction h with
  | nil => rfl
  | cons hrow _ ih => rw [List.map_cons, List.map_cons, ih, hrow.1]

/-- The rows of an aggregate are read as the records of its events, in order. -/
theorem read_rows {xs : List (Appended D)} {rows : List (Int × EventRow)} {g : Int}
    (h : List.Forall₂ IsRow xs rows) (hplain : ∀ a ∈ xs, a.globalId = g → a.metadata.Plain) :
    ∃ records, ((rows.filter fun r => r.2.aggregateGlobalId == g).mapM fun r =>
        Store.recordOf r.1 r.2) = .ok records ∧
      List.Forall₂ IsRecord (xs.filter fun a => a.globalId = g) records := by
  induction h with
  | nil => exact ⟨[], rfl, .nil⟩
  | @cons a r xs rows hrow _ ih =>
    obtain ⟨records, hrecords, hlisted⟩ := ih fun b hb => hplain b (List.mem_cons_of_mem a hb)
    have hid := hrow.aggregateGlobalId
    by_cases hg : a.globalId = g
    · obtain ⟨record, hrecord, hlists⟩ := hrow.read (hplain a List.mem_cons_self hg)
      refine ⟨record :: records, ?_, ?_⟩
      · rw [List.filter_cons_of_pos (by simp [hid, hg]), List.mapM_cons, hrecord, hrecords]
        rfl
      · rw [List.filter_cons_of_pos (by simp [hg])]
        exact .cons hlists hlisted
    · refine ⟨records, ?_, ?_⟩
      · rw [List.filter_cons_of_neg (by simp [hid, hg])]
        exact hrecords
      · rw [List.filter_cons_of_neg (by simp [hg])]
        exact hlisted

end Appended

namespace Table

/-- A numbered table with the rows of appended events behind those of another one. -/
structure HoldsBehind (t : Table EventRow) (xs : List (Appended D)) (t' : Table EventRow) :
    Prop where
  numbered : t'.Numbered
  rows : ∃ rows, t'.rows = t.rows ++ rows ∧ List.Forall₂ Appended.IsRow xs rows

variable {t t' : Table EventRow} {xs : List (Appended D)}

theorem holdsBehind_nil (ht : t.Numbered) : t.HoldsBehind ([] : List (Appended D)) t :=
  ⟨ht, [], (List.append_nil _).symm, .nil⟩

/-- One more row is that of one more append, which gave the number of the row. -/
theorem HoldsBehind.insert (h : t.HoldsBehind xs t') {x : Entry D} {row : EventRow}
    (hrow : Store.eventRow x.globalId x.metadata x.event = .ok row) :
    t.HoldsBehind (xs ++ [⟨x, t'.next⟩]) (t'.insert row) := by
  obtain ⟨rows, heq, hrows⟩ := h.rows
  refine ⟨h.numbered.insert row, rows ++ [(t'.next, row)], ?_, ?_⟩
  · rw [rows_insert, heq, List.append_assoc]
  · exact List.rel_append hrows (.cons ⟨rfl, hrow⟩ .nil)

theorem HoldsBehind.numbers (h : t.HoldsBehind xs t') :
    t'.rows.map Prod.fst = t.rows.map Prod.fst ++ xs.map Appended.sequence := by
  obtain ⟨rows, heq, hrows⟩ := h.rows
  rw [heq, List.map_append, Appended.numbers_of_rows hrows]

/-- The next number is greater than all of them. -/
theorem HoldsBehind.lt_next (h : t.HoldsBehind xs t') {k : Int}
    (hk : k ∈ t.rows.map Prod.fst ++ xs.map Appended.sequence) : k < t'.next := by
  rw [← h.numbers] at hk
  obtain ⟨r, hr, rfl⟩ := List.mem_map.1 hk
  exact h.numbered.lt_next hr

end Table

namespace Store

/-! ### Calls -/

/-- A call that does not write to the log. -/
def Call.SparesLog (c : Call R) : Prop :=
  ∀ write, c.operation = .write write → ∀ db db', write db = .ok db' → db'.events = db.events

/-- An append, or another call. -/
inductive LogCall (D : Domain) (R : Type) where
  | append (ctx : ExecutionContext) (entry : Entry D)
  | other (call : Call R) (spares : call.SparesLog)

/-- Makes a call; an append answers with the sequence. -/
def LogCall.task : LogCall D R → Task (Store R) (Option Int)
  | .append ctx x => do
    let sequence ← Store.append ctx x.globalId x.event x.metadata
    return some sequence
  | .other c _ => do
    c.task
    return none

/-- A call and the answer to it. -/
structure AnsweredLogCall (D : Domain) (R : Type) where
  call : LogCall D R
  answer : Except Error (Option Int)

/-- The store after some calls. -/
def afterLogCalls (s : Store R) (calls : List (LogCall D R)) : Store R :=
  calls.foldl (fun s c => (c.task.run s).2) s

/-- Some calls with their answers. -/
def logHistory (s : Store R) : List (LogCall D R) → List (AnsweredLogCall D R)
  | [] => []
  | c :: cs => ⟨c, (c.task.run s).1⟩ :: logHistory (c.task.run s).2 cs

theorem afterLogCalls_concat (s : Store R) (calls : List (LogCall D R)) (c : LogCall D R) :
    s.afterLogCalls (calls ++ [c]) = (c.task.run (s.afterLogCalls calls)).2 := by
  rw [afterLogCalls, List.foldl_append]
  rfl

theorem logHistory_concat (s : Store R) (calls : List (LogCall D R)) (c : LogCall D R) :
    s.logHistory (calls ++ [c]) =
      s.logHistory calls ++ [⟨c, (c.task.run (s.afterLogCalls calls)).1⟩] := by
  induction calls generalizing s with
  | nil => rfl
  | cons c' cs ih => exact congrArg (_ :: ·) (ih _)

/-- What a call that is no append does to a store. -/
theorem run_other (c : Call R) (h : c.SparesLog) (s : Store R) :
    (LogCall.task (D := D) (.other c h)).run s =
      ((c.task.run s).1.map fun _ => none, (c.task.run s).2) := by
  rcases hrun : c.task.run s with ⟨e | _, s'⟩
  · exact Task.run_bind_of_error hrun
  · exact Task.run_bind_of_ok hrun

end Store

/-! ### Journals -/

/-- The appends that succeeded, oldest first: those that are committed, and those of the
unit of work in progress. -/
structure Journal (D : Domain) where
  committed : List (Appended D)
  pending : List (Appended D)

namespace Journal

open Store

/-- Nothing was appended. -/
def empty : Journal D := ⟨[], []⟩

/-- The journal after one more call. -/
def add (j : Journal D) (x : AnsweredLogCall D R) : Journal D :=
  match x.call with
  | .append _ entry =>
    match x.answer with
    | .ok (some n) => { j with pending := j.pending ++ [⟨entry, n⟩] }
    | _ => j
  | .other c _ =>
    match Answered.ending? ⟨c, x.answer.map fun _ => ()⟩ with
    | some .committed => ⟨j.committed ++ j.pending, []⟩
    | some .rolledBack => ⟨j.committed, []⟩
    | none => j

/-- The journal of some calls. -/
def ofHistory (history : List (AnsweredLogCall D R)) : Journal D := history.foldl add empty

theorem ofHistory_concat (history : List (AnsweredLogCall D R)) (x : AnsweredLogCall D R) :
    ofHistory (history ++ [x]) = (ofHistory history).add x := by
  rw [ofHistory, List.foldl_append]
  rfl

/-- What a journal tells about a store, when a table of events was there at first. -/
structure Tells (j : Journal D) (t : Table EventRow) (s : Store R) : Prop where
  committed : ∃ t', s.committed.events = some t' ∧ t.HoldsBehind j.committed t'
  pending : ∀ u, s.unit = some u →
    ∃ t', u.pending.events = some t' ∧ t.HoldsBehind (j.committed ++ j.pending) t'
  idle : s.unit = none → j.pending = []

variable {j : Journal D} {t : Table EventRow} {s : Store R}

theorem tells_empty {db : Database R} (ht : db.events = some t) (hnumbered : t.Numbered) :
    (empty : Journal D).Tells t (ofDatabase db) where
  committed := ⟨t, ht, Table.holdsBehind_nil hnumbered⟩
  pending := nofun
  idle _ := rfl

/-- The log that is seen holds all appends, committed or not. -/
theorem Tells.seen (h : j.Tells t s) : ∃ t', t.HoldsBehind (j.committed ++ j.pending) t' := by
  rcases hu : s.unit with _ | u
  · rw [h.idle hu, List.append_nil]
    obtain ⟨t', -, hholds⟩ := h.committed
    exact ⟨t', hholds⟩
  · obtain ⟨t', -, hholds⟩ := h.pending u hu
    exact ⟨t', hholds⟩

/-- The events of an aggregate are those that were listed at first, and then those of its
committed appends. -/
theorem Tells.run_eventsOf (h : j.Tells t s) {g : Int} {old : List EventRecord}
    (hold : ((t.rows.filter fun r => r.2.aggregateGlobalId == g).mapM fun r =>
      recordOf r.1 r.2) = .ok old)
    (hplain : ∀ a ∈ j.committed, a.globalId = g → a.metadata.Plain) :
    ∃ new, (eventsOf g).run s = (.ok (old ++ new), s) ∧
      List.Forall₂ Appended.IsRecord (j.committed.filter fun a => a.globalId = g) new := by
  obtain ⟨t', ht', hholds⟩ := h.committed
  obtain ⟨rows, heq, hrows⟩ := hholds.rows
  obtain ⟨new, hnew, hrecords⟩ := Appended.read_rows hrows hplain
  refine ⟨new, ?_, hrecords⟩
  rw [Store.run_eventsOf ht', heq, List.filter_append, List.mapM_append, hold, hnew]
  rfl

/-- An append that succeeds is written down with its sequence. -/
theorem Tells.append {ctx : ExecutionContext} {x : Entry D} {sequence : Int} {s' : Store R}
    (h : j.Tells t s)
    (hrun : (Store.append ctx x.globalId x.event x.metadata).run s = (.ok sequence, s')) :
    Tells ⟨j.committed, j.pending ++ [⟨x, sequence⟩]⟩ t s' := by
  obtain ⟨row, db, db', hrow, hu, hinsert, rfl⟩ := append_eq_ok hrun
  obtain ⟨t', ht', hholds⟩ := h.pending _ hu
  obtain ⟨_, hevents, -, rfl, rfl⟩ := Database.insertEvent_eq_ok.1 hinsert
  obtain rfl := Option.some.inj (ht'.symm.trans hevents)
  refine ⟨h.committed, ?_, nofun⟩
  rintro _ ⟨⟩
  refine ⟨_, rfl, ?_⟩
  rw [← List.append_assoc]
  exact hholds.insert hrow

/-- An append gives a sequence that was never given in what is there. -/
theorem Tells.lt_of_append {ctx : ExecutionContext} {x : Entry D} {sequence : Int} {s' : Store R}
    (h : j.Tells t s)
    (hrun : (Store.append ctx x.globalId x.event x.metadata).run s = (.ok sequence, s')) {k : Int}
    (hk : k ∈ t.rows.map Prod.fst ++ (j.committed ++ j.pending).map Appended.sequence) :
    k < sequence := by
  obtain ⟨row, db, db', -, hu, hinsert, rfl⟩ := append_eq_ok hrun
  obtain ⟨t', ht', hholds⟩ := h.pending _ hu
  obtain ⟨hsequence, -⟩ := Database.log_insertEvent hinsert
  rw [hsequence, Database.log_of_some ht']
  exact hholds.lt_next hk

theorem add_other (j : Journal D) (c : Call R) (hc : c.SparesLog) (answer : Except Error Unit) :
    j.add ⟨.other c hc, answer.map fun _ => none⟩ =
      match Answered.ending? ⟨c, answer⟩ with
      | some .committed => ⟨j.committed ++ j.pending, []⟩
      | some .rolledBack => ⟨j.committed, []⟩
      | none => j := by
  rcases answer with e | _
  · rfl
  · rfl

/-- Other calls begin and end units of work, or leave the log. -/
theorem Tells.other {c : Call R} (hc : c.SparesLog) {answer : Except Error Unit} {s' : Store R}
    (h : j.Tells t s) (ht : Transition s c answer s') :
    (j.add ⟨.other c hc, answer.map fun _ => none⟩).Tells t s' := by
  rw [add_other]
  cases ht with
  | failed hnone =>
    rw [hnone]
    exact h
  | looked => exact h
  | @acquired ctx hu =>
    have hnone : j.pending = [] := h.idle hu
    refine ⟨h.committed, ?_, nofun⟩
    rintro _ ⟨⟩
    show ∃ t', s.committed.events = some t' ∧ t.HoldsBehind (j.committed ++ j.pending) t'
    rw [hnone, List.append_nil]
    exact h.committed
  | @written ctx write db db' hu hwrite =>
    refine ⟨h.committed, ?_, nofun⟩
    rintro _ ⟨⟩
    obtain ⟨t', ht', hholds⟩ := h.pending _ hu
    exact ⟨t', (hc write rfl db db' hwrite).trans ht', hholds⟩
  | @committed ctx db hu =>
    refine ⟨h.pending _ hu, nofun, fun _ => rfl⟩
  | rolledBack hu hended =>
    rw [hended]
    exact ⟨h.committed, nofun, fun _ => rfl⟩

/-- The journal with a call tells what is in the store after it. -/
theorem Tells.step (h : j.Tells t s) (c : LogCall D R) :
    (j.add ⟨c, (c.task.run s).1⟩).Tells t (c.task.run s).2 := by
  cases c with
  | append ctx x =>
    rcases hrun : (Store.append ctx x.globalId x.event x.metadata).run s with
      ⟨fault | sequence, s'⟩
    · have htask : (LogCall.task (.append ctx x)).run s = (.error fault, s') :=
        Task.run_bind_of_error hrun
      rw [htask, store_of_append_error hrun]
      exact h
    · have htask : (LogCall.task (.append ctx x)).run s = (.ok (some sequence), s') :=
        Task.run_bind_of_ok hrun
      rw [htask]
      exact h.append hrun
  | other c hc =>
    rw [run_other]
    exact h.other hc (transition s c)

end Journal

namespace Store

/-! ### Whole histories -/

/-- The journal of some calls tells what is in the store after them. -/
theorem journal_tells {db : Database R} {t : Table EventRow} (ht : db.events = some t)
    (hnumbered : t.Numbered) (calls : List (LogCall D R)) :
    (Journal.ofHistory ((ofDatabase db).logHistory calls)).Tells t
      ((ofDatabase db).afterLogCalls calls) := by
  induction calls using List.reverseRecOn with
  | nil => exact Journal.tells_empty ht hnumbered
  | append_singleton calls c ih =>
    rw [logHistory_concat, afterLogCalls_concat, Journal.ofHistory_concat]
    exact ih.step c

/-- Whatever calls are made to a store that has a log, of which some may be refused: the
events of an aggregate are listed that were listed at first, and then exactly those of the
appends for it that succeeded in a unit of work that was committed, in the order of the
appends, each with the sequence that its append gave.

* The numbers of the whole log increase strictly in the order of the appends.
* An append gives a sequence that is greater than all those in the log, and than all those
  that were given in the unit of work in progress.
* An append of an event that cannot be written, or for an aggregate that is not there, fails
  and changes nothing.  In a unit of work all others succeed. -/
theorem committed_appends_listed (db : Database R) {t : Table EventRow} (ht : db.events = some t)
    (hnumbered : t.Numbered) (calls : List (LogCall D R)) :
    let s := (ofDatabase db).afterLogCalls calls
    let j := Journal.ofHistory ((ofDatabase db).logHistory calls)
    (∀ g old, ((eventsOf g).run (ofDatabase db)).1 = .ok old →
      (∀ a ∈ j.committed, a.globalId = g → a.metadata.Plain) →
      ∃ new, (eventsOf g).run s = (.ok (old ++ new), s) ∧
        List.Forall₂ Appended.IsRecord (j.committed.filter fun a => a.globalId = g) new) ∧
    s.committed.log.rows.map Prod.fst = t.rows.map Prod.fst ++ j.committed.map (·.sequence) ∧
    (t.rows.map Prod.fst ++ (j.committed ++ j.pending).map (·.sequence)).Pairwise (· < ·) ∧
    ∀ ctx (x : Entry D),
      (∀ n, ((append ctx x.globalId x.event x.metadata).run s).1 = .ok n →
        ∀ k ∈ t.rows.map Prod.fst ++ (j.committed ++ j.pending).map (·.sequence), k < n) ∧
      (∀ e, x.event.payload = .error e →
        (append ctx x.globalId x.event x.metadata).run s = (.error e, s)) ∧
      ∀ payload pending, x.event.payload = .ok payload → s.unit = some ⟨ctx, pending⟩ →
        ((∀ row, (x.globalId, row) ∉ pending.snapshots.rows) →
          (append ctx x.globalId x.event x.metadata).run s =
            (.error (.database .foreignKey), s)) ∧
        ∀ row, (x.globalId, row) ∈ pending.snapshots.rows →
          ∃ n, ((append ctx x.globalId x.event x.metadata).run s).1 = .ok n := by
  intro s j
  have htells : j.Tells t s := journal_tells ht hnumbered calls
  refine ⟨fun g old hold hplain => ?_, ?_, ?_, fun ctx x => ⟨fun n hn k hk => ?_, ?_, ?_⟩⟩
  · rw [run_eventsOf (s := ofDatabase db) ht] at hold
    exact htells.run_eventsOf hold hplain
  · obtain ⟨t', ht', hholds⟩ := htells.committed
    rw [Database.log_of_some ht', hholds.numbers]
  · obtain ⟨t', hholds⟩ := htells.seen
    rw [← hholds.numbers]
    exact List.pairwise_map.2 hholds.numbered.increasing
  · rcases hrun : (append ctx x.globalId x.event x.metadata).run s with ⟨answer, s'⟩
    rw [hrun] at hn
    subst hn
    exact htells.lt_of_append hrun hk
  · intro e he
    rw [run_append, he]
  · intro payload pending hpayload hu
    -- what is pending has the log, so it is only the aggregate that can be missing
    have hpending := pending?_eq_some.2 hu
    obtain ⟨t', ht', -⟩ := htells.pending _ hu
    refine ⟨fun habsent => ?_, fun row hrow => ?_⟩
    · have hinsert : pending.insertEvent
          ⟨x.globalId, x.event.typeName, payload, x.metadata.text⟩ = .error .foreignKey :=
        Database.insertEvent_of_absent ht' habsent
      rw [run_append, hpayload]
      simp only [hpending, hinsert]
    · obtain ⟨n, db', hinsert⟩ : ∃ n db', pending.insertEvent
          ⟨x.globalId, x.event.typeName, payload, x.metadata.text⟩ = .ok (n, db') :=
        ⟨_, _, Database.insertEvent_eq_ok.2 ⟨t', ht', ⟨row, hrow⟩, rfl, rfl⟩⟩
      refine ⟨n, ?_⟩
      rw [run_append, hpayload]
      simp only [hpending, hinsert]

/-- A database with a counter in the first row, and no events. -/
def counterStored : Database Unit :=
  ⟨some ⟨[(1, ⟨Uuid.zero, "Counter", 0, "null"⟩)], 1⟩, some Table.empty, ()⟩

/-- The metadata of what Ada does. -/
def byAda : Metadata := Dictionary.empty.insert "by" (.string "Ada")

/-- An event with an amount. -/
def addedEntry (globalId : Int) (amount : Int64) : Entry Bench.vocabulary :=
  ⟨globalId, ⟨.added, (⟨amount⟩ : Bench.Added)⟩, byAda⟩

/-- An event with a text. -/
def notedEntry (text : String) : Entry Bench.vocabulary :=
  ⟨1, ⟨.noted, (⟨text⟩ : Bench.Noted)⟩, byAda⟩

/-- An append is rolled back.  In the next unit of work two appends succeed, one is for an
aggregate that is not there, and one is of an event that cannot be written. -/
def discardedThenKept : List (LogCall Bench.vocabulary Unit) :=
  [.other ⟨⟨0⟩, .acquire (.ok ())⟩ nofun, .append ⟨0⟩ (addedEntry 1 10),
   .other ⟨⟨0⟩, .rollback (.ok ())⟩ nofun, .other ⟨⟨1⟩, .acquire (.ok ())⟩ nofun,
   .append ⟨1⟩ (addedEntry 1 20), .append ⟨1⟩ (addedEntry 2 30),
   .append ⟨1⟩ (notedEntry Bench.cursed), .append ⟨1⟩ (notedEntry "kept"),
   .other ⟨⟨1⟩, .commit (.ok ())⟩ nofun]

/-- The sequence of the append that was rolled back is given again, and the two appends
that were committed are listed. -/
theorem kept_appends_listed :
    ∃ records, (eventsOf 1).run ((ofDatabase counterStored).afterLogCalls discardedThenKept) =
        (.ok records, (ofDatabase counterStored).afterLogCalls discardedThenKept) ∧
      List.Forall₂ Appended.IsRecord
        [⟨addedEntry 1 20, 1⟩, ⟨notedEntry "kept", 2⟩] records := by
  have hjournal : Journal.ofHistory ((ofDatabase counterStored).logHistory discardedThenKept) =
      ⟨[⟨addedEntry 1 20, 1⟩, ⟨notedEntry "kept", 2⟩], []⟩ := rfl
  obtain ⟨hlisted, -⟩ :=
    committed_appends_listed counterStored rfl Table.numbered_empty discardedThenKept
  rw [hjournal] at hlisted
  have hplain : byAda.Plain := ⟨⟨trivial, trivial⟩, by decide⟩
  obtain ⟨records, hrecords, hlists⟩ := hlisted 1 [] rfl (by simp [addedEntry, notedEntry, hplain])
  exact ⟨records, hrecords, hlists⟩

end Store

end Chronicle
