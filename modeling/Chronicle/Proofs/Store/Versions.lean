/-
Chronicle/Proofs/Store/Versions.lean

No update of an aggregate is lost.

Any number of clients load snapshots, change them, and save them in units of work
that are committed or given up.  `History.Reachable` lists what they can do, in any
order; a `History` also keeps what was loaded and saved.

The versions of a row are what the saves on it have written, one after the other.
`Chain` says that every save is based on the version just before it.  It holds
because sequences only grow: a snapshot that is not the last version any more has
a lower sequence than the row (`Chain.lt_of_exists_mem`), so that the comparison of
sequences that a save makes tells any two versions apart.  What was written in a
unit of work that is given up is no version; whatever was read of it is given up
with it.

Main result: `saves_follow`, and `cursed_save_is_no_conflict`, an outdated save
that is not a conflict.
-/
import Chronicle.Bench.Vocabulary
import Chronicle.Proofs.Store.Rows

namespace Chronicle

variable {D : Domain} {R : Type}

open Store

/-! ### Snapshots and rows -/

/-- A snapshot is what is loaded from a row. -/
structure Snapshot.Reads {a : D.AggregateType} (snapshot : Snapshot D a) (row : AggregateRow) :
    Prop where
  identifier : row.identifier = snapshot.businessId
  typeName : row.typeName = snapshot.typeName
  name : row.typeName = D.aggregateName a
  sequence : row.sequence = snapshot.initialSequence
  state : ∃ state, snapshot.state = some state ∧
    (D.stateCodec a).optional.deserialize row.typeName row.state = .ok (some state)

/-- What is loaded from a database is read from one of its rows. -/
theorem Snapshot.reads_of_snapshotOf {db : Database R} {a : D.AggregateType} {id : Uuid}
    {found : Option (Int × AggregateRow)} {snapshot : Snapshot D a}
    (hfind : db.findAggregate id = .ok found) (h : snapshotOf a id found = .ok snapshot) :
    ∃ globalId row, snapshot.globalId = some globalId ∧ (globalId, row) ∈ db.snapshots.rows ∧
      snapshot.Reads row := by
  obtain ⟨globalId, row, state, rfl, hname, hstate, rfl⟩ := snapshotOf_eq_ok h
  obtain ⟨t, ht, hrow⟩ := Database.findAggregate_eq_ok.1 hfind
  have hmem : (globalId, row) ∈ db.snapshots.rows := by
    rw [Database.snapshots_of_some ht]
    exact List.mem_of_find?_eq_some hrow.symm
  have hid : row.identifier = id := by simpa using List.find?_some hrow.symm
  exact ⟨globalId, row, rfl, hmem, hid, rfl, hname, rfl, state, rfl, hstate⟩

/-! ### Saves and versions -/

/-- A snapshot that was loaded, when a number of saves had been made. -/
structure Base (D : Domain) where
  type : D.AggregateType
  snapshot : Snapshot D type
  time : Nat

/-- A save that has succeeded: the snapshot it was based on, the state and the
sequence that were saved, the row, and the text that was written for the state. -/
structure Saved (D : Domain) where
  type : D.AggregateType
  base : Snapshot D type
  state : Option (D.State type)
  sequence : Int
  row : Int
  text : String
  written : stateText ((base.withState state).advanceTo sequence) = .ok text

/-- What was written. -/
def Saved.stored (w : Saved D) : AggregateRow :=
  ⟨w.base.businessId, w.base.typeName, w.sequence, w.text⟩

/-- The version of a row after some saves: the last of them on this row, or what the
row was at first. -/
def versionAt (origin : Database R) (ws : List (Saved D)) (row : Int) : Option AggregateRow :=
  match (ws.filter fun w => w.row = row).getLast? with
  | some w => some w.stored
  | none => origin.snapshots.get? row

/-- A save follows a version, of which it has loaded the snapshot, and sets a
greater sequence.  The first save of a row follows none. -/
def Saved.Follows (w : Saved D) : Option AggregateRow → Prop
  | none => w.base.globalId = none
  | some version => w.base.globalId = some w.row ∧ w.base.Reads version ∧
      version.sequence < w.sequence

/-- Every save follows the version that was there before it. -/
def Chain (origin : Database R) (ws : List (Saved D)) : Prop :=
  ∀ before w after, ws = before ++ w :: after → w.Follows (versionAt origin before w.row)

variable {origin : Database R} {ws xs ys : List (Saved D)} {row : Int} {version : AggregateRow}

/-- Saves on other rows make no version. -/
theorem versionAt_append_of_ne (hys : ∀ y ∈ ys, y.row ≠ row) :
    versionAt origin (xs ++ ys) row = versionAt origin xs row := by
  have hnone : (ys.filter fun w => w.row = row) = [] := by
    rw [List.filter_eq_nil_iff]
    intro y hy
    simpa using hys y hy
  rw [versionAt, versionAt, List.filter_append, hnone, List.append_nil]

theorem versionAt_append_singleton (origin : Database R) (ws : List (Saved D)) (w : Saved D)
    (row : Int) :
    versionAt origin (ws ++ [w]) row =
      if w.row = row then some w.stored else versionAt origin ws row := by
  by_cases h : w.row = row
  · rw [if_pos h, versionAt, List.filter_append]
    simp [h]
  · rw [if_neg h]
    exact versionAt_append_of_ne fun y hy => by rwa [List.mem_singleton.1 hy]

namespace Chain

theorem nil (origin : Database R) : Chain origin ([] : List (Saved D)) :=
  fun before w after h => absurd h.symm (by simp)

theorem of_append (h : Chain origin (xs ++ ys)) : Chain origin xs := by
  rintro before w after rfl
  exact h before w (after ++ ys) (by rw [List.append_assoc, List.cons_append])

/-- One more save that follows the version before it. -/
theorem concat (h : Chain origin ws) {w : Saved D} (hw : w.Follows (versionAt origin ws w.row)) :
    Chain origin (ws ++ [w]) := by
  intro before w' after heq
  rcases List.eq_nil_or_concat after with rfl | ⟨after, z, rfl⟩
  · obtain ⟨rfl, hlast⟩ := List.append_inj' heq rfl
    obtain rfl := (List.cons.inj hlast).1
    exact hw
  · rw [List.concat_eq_append, ← List.cons_append, ← List.append_assoc] at heq
    exact h before w' after (List.append_inj' heq rfl).1

/-- Later versions of a row have greater sequences. -/
theorem lt_of_exists_mem (h : Chain origin (xs ++ ys))
    (hversion : versionAt origin xs row = some version) (hsaved : ∃ y ∈ ys, y.row = row) :
    ∃ later, versionAt origin (xs ++ ys) row = some later ∧ version.sequence < later.sequence := by
  -- the induction is over the saves still to come
  induction ys generalizing xs version with
  | nil => simp at hsaved
  | cons z zs ih =>
    have hsplit : xs ++ z :: zs = xs ++ [z] ++ zs := by
      rw [List.append_assoc, List.singleton_append]
    have hfollows := h xs z zs rfl
    rw [hsplit] at h ⊢
    have hnext := versionAt_append_singleton origin xs z row
    by_cases hz : z.row = row
    · subst hz
      rw [if_pos rfl] at hnext
      rw [hversion] at hfollows
      have hlt : version.sequence < z.stored.sequence := hfollows.2.2
      by_cases hmore : ∃ u ∈ zs, u.row = z.row
      · obtain ⟨later, hlater, hlt'⟩ := ih h hnext hmore
        exact ⟨later, hlater, Int.lt_trans hlt hlt'⟩
      · have hrest : ∀ u ∈ zs, u.row ≠ z.row := fun u hu heq => hmore ⟨u, hu, heq⟩
        exact ⟨_, (versionAt_append_of_ne hrest).trans hnext, hlt⟩
    · rw [if_neg hz] at hnext
      obtain ⟨y, hy, hrow⟩ := hsaved
      have hy' : y ∈ zs := by
        rcases List.mem_cons.1 hy with rfl | hy
        · exact absurd hrow hz
        · exact hy
      exact ih h (hnext.trans hversion) ⟨y, hy', hrow⟩

/-- The saves on a row have increasing sequences. -/
theorem increasing (h : Chain origin ws) :
    ws.Pairwise fun v w => v.row = w.row → v.sequence < w.sequence := by
  suffices ∀ xs ys : List (Saved D), Chain origin (xs ++ ys) →
      ys.Pairwise fun v w => v.row = w.row → v.sequence < w.sequence from this [] ws h
  intro xs ys h
  induction ys generalizing xs with
  | nil => exact .nil
  | cons v vs ih =>
    have hsplit (zs : List (Saved D)) : xs ++ v :: zs = xs ++ [v] ++ zs := by
      rw [List.append_assoc, List.singleton_append]
    refine List.pairwise_cons.2 ⟨fun w hw hrow => ?_, ih (xs ++ [v]) (hsplit vs ▸ h)⟩
    obtain ⟨between, after, rfl⟩ := List.append_of_mem hw
    rw [← List.cons_append, ← List.append_assoc] at h
    have hversion : versionAt origin (xs ++ [v]) v.row = some v.stored := by
      rw [versionAt_append_singleton, if_pos rfl]
    have hfollows := h _ w after rfl
    rw [hsplit, ← hrow] at hfollows
    -- between the two, the row has at least the sequence of the first
    by_cases hmore : ∃ u ∈ between, u.row = v.row
    · have hbefore := h.of_append
      rw [hsplit] at hbefore
      obtain ⟨later, hlater, hlt⟩ := hbefore.lt_of_exists_mem hversion hmore
      rw [hlater] at hfollows
      exact Int.lt_trans hlt hfollows.2.2
    · rw [versionAt_append_of_ne fun u hu heq => hmore ⟨u, hu, heq⟩, hversion] at hfollows
      exact hfollows.2.2

end Chain

/-! ### Histories -/

/-- A store, what was loaded from it, and the saves that have succeeded: those that
are committed, and those of the unit of work in progress. -/
structure History (D : Domain) (R : Type) where
  origin : Database R
  store : Store R
  loaded : List (Base D)
  committed : List (Saved D)
  saves : List (Saved D)

namespace History

variable {h : History D R}

/-- All saves, oldest first. -/
def all (h : History D R) : List (Saved D) := h.committed ++ h.saves

/-- The snapshot of a row, as it is loaded in a unit of work.  If the unit has saved
the row, the snapshot is one of what is not committed yet. -/
def loadedInside (h : History D R) {a : D.AggregateType} (snapshot : Snapshot D a) : Base D :=
  ⟨a, snapshot, if h.saves.any fun w => some w.row = snapshot.globalId then h.all.length
    else h.committed.length⟩

/-- Where clients can come to, starting from any database.  At any time a client may
load what is committed, start a unit of work, and load and save in it, any snapshot
that any client has loaded before or a fresh one, with any other state; a save of a
loaded snapshot sets a greater sequence.  In a unit of work the other tables may
change, and in the end it is committed or given up.  With it, what was read of its
own saves is given up. -/
inductive Reachable : History D R → Prop
  | start {db : Database R} : db.Reachable → Reachable ⟨db, .ofDatabase db, [], [], []⟩
  | loadCommitted {h : History D R} {a : D.AggregateType} {id : Uuid} {snapshot : Snapshot D a}
      {s : Store R} : Reachable h → (Store.loadCommitted a id).run h.store = (.ok snapshot, s) →
      Reachable { h with
        store := s
        loaded := h.loaded ++ [⟨a, snapshot, h.committed.length⟩] }
  | acquire {h : History D R} {ctx : ExecutionContext} {s : Store R} : Reachable h →
      (Store.acquire ctx).run h.store = (.ok (), s) → Reachable { h with store := s }
  | load {h : History D R} {ctx : ExecutionContext} {a : D.AggregateType} {id : Uuid}
      {snapshot : Snapshot D a} {s : Store R} : Reachable h →
      (Store.load ctx a id).run h.store = (.ok snapshot, s) →
      Reachable { h with store := s, loaded := h.loaded ++ [h.loadedInside snapshot] }
  | save {h : History D R} {ctx : ExecutionContext} {base : Base D}
      {state : Option (D.State base.type)} {sequence row : Int} {text : String} {s : Store R}
      (written : stateText ((base.snapshot.withState state).advanceTo sequence) = .ok text) :
      Reachable h → base ∈ h.loaded → base.snapshot.initialSequence < sequence →
      (Store.save ctx ((base.snapshot.withState state).advanceTo sequence)).run h.store =
        (.ok row, s) →
      Reachable { h with
        store := s
        saves := h.saves ++ [⟨base.type, base.snapshot, state, sequence, row, text, written⟩] }
  | insert {h : History D R} {ctx : ExecutionContext} {a : D.AggregateType} {id : Uuid}
      {state : Option (D.State a)} {sequence row : Int} {text : String} {s : Store R}
      (written : stateText (((Snapshot.fresh id).withState state).advanceTo sequence) =
        .ok text) :
      Reachable h →
      (Store.save ctx (((Snapshot.fresh id).withState state).advanceTo sequence)).run h.store =
        (.ok row, s) →
      Reachable { h with
        store := s
        saves := h.saves ++ [⟨a, Snapshot.fresh id, state, sequence, row, text, written⟩] }
  | refused {h : History D R} {ctx : ExecutionContext} {a : D.AggregateType}
      {snapshot : Snapshot D a} {e : Error} {s : Store R} : Reachable h →
      (Store.save ctx snapshot).run h.store = (.error e, s) → Reachable { h with store := s }
  | others {h : History D R} {ctx : ExecutionContext} {db db' : Database R} : Reachable h →
      h.store.unit = some ⟨ctx, db⟩ → db'.aggregates = db.aggregates →
      Reachable { h with store := ⟨h.store.committed, some ⟨ctx, db'⟩⟩ }
  | commit {h : History D R} {ctx : ExecutionContext} {s : Store R} : Reachable h →
      (Store.commit ctx).run h.store = (.ok (), s) →
      Reachable { h with store := s, committed := h.all, saves := [] }
  | rollback {h : History D R} {ctx : ExecutionContext} {s : Store R} : Reachable h →
      (Store.rollback ctx).run h.store = (.ok (), s) →
      Reachable { h with
        store := s
        saves := []
        loaded := h.loaded.filter fun b => b.time ≤ h.committed.length }

/-- A database has the versions of some saves. -/
structure Holds (origin : Database R) (ws : List (Saved D)) (db : Database R) : Prop where
  numbered : db.snapshots.Numbered
  rows : ∀ row, db.snapshots.get? row = versionAt origin ws row

/-- A loaded snapshot is what the version at its time reads as. -/
def Current (origin : Database R) (ws : List (Saved D)) (base : Base D) : Prop :=
  ∃ row version, base.snapshot.globalId = some row ∧ base.time ≤ ws.length ∧
    versionAt origin (ws.take base.time) row = some version ∧ base.snapshot.Reads version

/-- What holds of every history. -/
structure Sound (h : History D R) : Prop where
  chain : Chain h.origin h.all
  committed : Holds h.origin h.committed h.store.committed
  pending : ∀ u, h.store.unit = some u → Holds h.origin h.all u.pending
  idle : h.store.unit = none → h.saves = []
  loaded : ∀ base ∈ h.loaded, Current h.origin h.all base

theorem Holds.congr {origin db db' : Database R} {ws : List (Saved D)} (h : Holds origin ws db)
    (hdb : db'.aggregates = db.aggregates) : Holds origin ws db' := by
  have hsnapshots : db'.snapshots = db.snapshots := by
    rw [Database.snapshots, Database.snapshots, hdb]
  exact ⟨hsnapshots ▸ h.numbered, hsnapshots ▸ h.rows⟩

theorem Current.append {origin : Database R} {ws : List (Saved D)} {base : Base D}
    (h : Current origin ws base) (ws' : List (Saved D)) : Current origin (ws ++ ws') base := by
  obtain ⟨row, version, hrow, htime, hversion, hreads⟩ := h
  refine ⟨row, version, hrow, ?_, ?_, hreads⟩
  · rw [List.length_append]
    omega
  · rw [List.take_append_of_le_length htime]
    exact hversion

/-- What is loaded from a database is current. -/
theorem Holds.current {origin db : Database R} {ws : List (Saved D)} (hdb : Holds origin ws db)
    {a : D.AggregateType} {id : Uuid} {found : Option (Int × AggregateRow)}
    {snapshot : Snapshot D a} (hfind : db.findAggregate id = .ok found)
    (hsnapshot : snapshotOf a id found = .ok snapshot) :
    Current origin ws ⟨a, snapshot, ws.length⟩ := by
  obtain ⟨row, version, hrow, hmem, hreads⟩ := Snapshot.reads_of_snapshotOf hfind hsnapshot
  refine ⟨row, version, hrow, Nat.le_refl _, ?_, hreads⟩
  rw [List.take_length, ← hdb.rows, hdb.numbered.get?_eq_some]
  exact hmem

/-- Saves on other rows leave a snapshot current. -/
theorem Current.before {origin : Database R} {ws ws' : List (Saved D)} {a : D.AggregateType}
    {snapshot : Snapshot D a} (h : Current origin (ws ++ ws') ⟨a, snapshot, (ws ++ ws').length⟩)
    (hrows : ∀ w ∈ ws', some w.row ≠ snapshot.globalId) :
    Current origin (ws ++ ws') ⟨a, snapshot, ws.length⟩ := by
  obtain ⟨row, version, hrow, -, hversion, hreads⟩ := h
  refine ⟨row, version, hrow, ?_, ?_, hreads⟩
  · rw [List.length_append]
    exact Nat.le_add_right _ _
  · rw [List.take_length, versionAt_append_of_ne] at hversion
    · rw [List.take_left]
      exact hversion
    · intro w hw heq
      exact hrows w hw (heq ▸ hrow.symm)

theorem sound_start {db : Database R} (hdb : db.Reachable) :
    Sound (⟨db, .ofDatabase db, [], [], []⟩ : History D R) where
  chain := .nil db
  committed := ⟨hdb.sound.snapshots, fun _ => rfl⟩
  pending := nofun
  idle _ := rfl
  loaded := nofun

/-! ### Steps -/

/-- A row with another text and sequence. -/
theorem stored_of_reads {w : Saved D} {version : AggregateRow} (h : w.base.Reads version) :
    { version with state := w.text, sequence := w.sequence } = w.stored := by
  rw [Saved.stored, ← h.identifier, ← h.typeName]

/-- The versions after a swap. -/
theorem Holds.swap {origin db db' : Database R} {ws : List (Saved D)} (h : Holds origin ws db)
    {w : Saved D} {version : AggregateRow} (hversion : versionAt origin ws w.row = some version)
    (hreads : w.base.Reads version)
    (hswap : db.swapAggregate w.row w.base.initialSequence w.sequence w.text = .ok (true, db')) :
    Holds origin (ws ++ [w]) db' := by
  obtain ⟨t, ht, -, rfl⟩ := Database.swapAggregate_eq_ok.1 hswap
  have hold := Database.snapshots_of_some ht
  have hnumbered : t.Numbered := hold ▸ h.numbered
  have hswapped : (Database.swapped t w.row w.base.initialSequence w.sequence w.text).Numbered :=
    hnumbered.update _ _
  refine ⟨hswapped, fun row => ?_⟩
  show (Database.swapped t w.row w.base.initialSequence w.sequence w.text).get? row = _
  have hrow := h.rows row
  rw [hold] at hrow
  rw [Database.swapped, Table.get?_update, hrow, versionAt_append_singleton]
  by_cases hw : w.row = row
  · rw [if_pos hw, ← hw, hversion, Option.map_some, if_pos (by simp [hreads.sequence]),
      stored_of_reads hreads]
  · rw [if_neg hw]
    have hmet (a : AggregateRow) : (row == w.row && a.sequence == w.base.initialSequence) = false := by
      simp [Ne.symm hw]
    simp [hmet]

/-- The versions after an insertion. -/
theorem Holds.insert {origin db db' : Database R} {ws : List (Saved D)} (h : Holds origin ws db)
    {w : Saved D} (hinsert : db.insertAggregate w.stored = .ok (w.row, db')) :
    versionAt origin ws w.row = none ∧ Holds origin (ws ++ [w]) db' := by
  obtain ⟨t, ht, -, hrow, rfl⟩ := Database.insertAggregate_eq_ok.1 hinsert
  have hold := Database.snapshots_of_some ht
  have hnumbered : t.Numbered := hold ▸ h.numbered
  refine ⟨?_, hnumbered.insert _, fun row => ?_⟩
  · rw [← h.rows, hold, hrow]
    exact hnumbered.get?_next
  · have hget := h.rows row
    rw [hold] at hget
    show (t.insert w.stored).get? row = _
    rw [hnumbered.get?_insert, versionAt_append_singleton, hget, ← hrow]
    by_cases hw : w.row = row
    · rw [if_pos hw.symm, if_pos hw]
    · rw [if_neg (Ne.symm hw), if_neg hw]

/-- A loaded snapshot that has the sequence of its row is the last version. -/
theorem Current.last {origin : Database R} {ws : List (Saved D)} (hchain : Chain origin ws)
    {base : Base D} (h : Current origin ws base) {row : Int}
    (hrow : base.snapshot.globalId = some row) {version : AggregateRow}
    (hversion : versionAt origin ws row = some version)
    (hsequence : version.sequence = base.snapshot.initialSequence) :
    base.snapshot.Reads version := by
  obtain ⟨row', loaded, hrow', -, hloaded, hreads⟩ := h
  obtain rfl : row' = row := Option.some.inj (hrow'.symm.trans hrow)
  have hsplit := List.take_append_drop base.time ws
  by_cases hsaved : ∃ w ∈ ws.drop base.time, w.row = row'
  · -- a save since then would have left a greater sequence
    rw [← hsplit] at hchain
    obtain ⟨later, hlater, hlt⟩ := hchain.lt_of_exists_mem hloaded hsaved
    rw [hsplit, hversion] at hlater
    have hsame := hreads.sequence
    cases hlater
    omega
  · rw [← hsplit, versionAt_append_of_ne fun w hw heq => hsaved ⟨w, hw, heq⟩, hloaded] at hversion
    rw [← Option.some.inj hversion]
    exact hreads

/-- A history that goes on with another save. -/
theorem Sound.saved (hs : h.Sound) {w : Saved D} {ctx : ExecutionContext} {db' : Database R}
    (hfollows : w.Follows (versionAt h.origin h.all w.row))
    (hdb' : Holds h.origin (h.all ++ [w]) db') :
    Sound { h with store := ⟨h.store.committed, some ⟨ctx, db'⟩⟩, saves := h.saves ++ [w] } := by
  have hall : h.committed ++ (h.saves ++ [w]) = h.all ++ [w] := (List.append_assoc _ _ _).symm
  refine ⟨?_, hs.committed, ?_, nofun, ?_⟩
  · show Chain h.origin (h.committed ++ (h.saves ++ [w]))
    rw [hall]
    exact hs.chain.concat hfollows
  · intro u hu
    cases hu
    show Holds h.origin (h.committed ++ (h.saves ++ [w])) db'
    rw [hall]
    exact hdb'
  · intro base hbase
    show Current h.origin (h.committed ++ (h.saves ++ [w])) base
    rw [hall]
    exact (hs.loaded base hbase).append [w]

theorem Sound.save (hs : h.Sound) {ctx : ExecutionContext} {base : Base D}
    {state : Option (D.State base.type)} {sequence row : Int} {text : String} {s : Store R}
    (written : stateText ((base.snapshot.withState state).advanceTo sequence) = .ok text)
    (hbase : base ∈ h.loaded) (hlt : base.snapshot.initialSequence < sequence)
    (hrun : (Store.save ctx ((base.snapshot.withState state).advanceTo sequence)).run h.store =
      (.ok row, s)) :
    Sound { h with
      store := s
      saves := h.saves ++ [⟨base.type, base.snapshot, state, sequence, row, text, written⟩] } := by
  obtain ⟨text', db, db', htext, hu, rfl, hdb⟩ := save_eq_ok hrun
  obtain rfl : text' = text := Except.ok.inj (htext.symm.trans written)
  have hcurrent := hs.loaded base hbase
  have hpending := hs.pending _ hu
  rcases hdb with ⟨hrow, hswap⟩ | ⟨hnone, -⟩
  · -- the row that was met is the last version
    obtain ⟨t, ht, hmet, -⟩ := Database.swapAggregate_eq_ok.1 hswap
    obtain ⟨version, hmem, hsequence⟩ := hmet.1 rfl
    have hversion : versionAt h.origin h.all row = some version := by
      rw [← hpending.rows, hpending.numbered.get?_eq_some, Database.snapshots_of_some ht]
      exact hmem
    have hreads := hcurrent.last hs.chain hrow hversion hsequence
    refine hs.saved ?_ (hpending.swap hversion hreads hswap)
    show Saved.Follows _ (versionAt h.origin h.all row)
    rw [hversion]
    refine ⟨hrow, hreads, ?_⟩
    rw [hsequence]
    exact hlt
  · -- what was loaded has a row
    obtain ⟨row', version, hrow', -⟩ := hcurrent
    have hnone' : base.snapshot.globalId = none := hnone
    rw [hrow'] at hnone'
    cases hnone'

theorem Sound.insert (hs : h.Sound) {ctx : ExecutionContext} {a : D.AggregateType} {id : Uuid}
    {state : Option (D.State a)} {sequence row : Int} {text : String} {s : Store R}
    (written : stateText (((Snapshot.fresh id).withState state).advanceTo sequence) = .ok text)
    (hrun : (Store.save ctx (((Snapshot.fresh id).withState state).advanceTo sequence)).run
      h.store = (.ok row, s)) :
    Sound { h with
      store := s
      saves := h.saves ++ [⟨a, Snapshot.fresh id, state, sequence, row, text, written⟩] } := by
  obtain ⟨text', db, db', htext, hu, rfl, hdb⟩ := save_eq_ok hrun
  obtain rfl : text' = text := Except.ok.inj (htext.symm.trans written)
  rcases hdb with ⟨hrow, -⟩ | ⟨-, hinsert⟩
  · cases hrow
  · obtain ⟨hnone, hdb'⟩ := (hs.pending _ hu).insert
      (w := ⟨a, Snapshot.fresh id, state, sequence, row, text', written⟩) hinsert
    refine hs.saved ?_ hdb'
    rw [hnone]
    rfl

theorem Sound.load (hs : h.Sound) {ctx : ExecutionContext} {a : D.AggregateType} {id : Uuid}
    {snapshot : Snapshot D a} {s : Store R}
    (hrun : (Store.load ctx a id).run h.store = (.ok snapshot, s)) :
    Sound { h with store := s, loaded := h.loaded ++ [h.loadedInside snapshot] } := by
  obtain ⟨rfl, db, found, hu, hfind, hsnapshot⟩ := load_found hrun
  have hcurrent := (hs.pending _ hu).current hfind hsnapshot
  refine ⟨hs.chain, hs.committed, hs.pending, hs.idle, fun base hbase => ?_⟩
  rcases List.mem_append.1 hbase with hbase | hbase
  · exact hs.loaded base hbase
  · rw [List.mem_singleton.1 hbase, loadedInside]
    split
    · exact hcurrent
    · rename_i hnone
      refine Current.before hcurrent fun w hw heq => hnone ?_
      exact List.any_eq_true.2 ⟨w, hw, decide_eq_true heq⟩

theorem Sound.loadCommitted (hs : h.Sound) {a : D.AggregateType} {id : Uuid}
    {snapshot : Snapshot D a} {s : Store R}
    (hrun : (Store.loadCommitted a id).run h.store = (.ok snapshot, s)) :
    Sound { h with
      store := s
      loaded := h.loaded ++ [⟨a, snapshot, h.committed.length⟩] } := by
  obtain ⟨rfl, found, hfind, hsnapshot⟩ := loadCommitted_found hrun
  refine ⟨hs.chain, hs.committed, hs.pending, hs.idle, fun base hbase => ?_⟩
  rcases List.mem_append.1 hbase with hbase | hbase
  · exact hs.loaded base hbase
  · rw [List.mem_singleton.1 hbase]
    exact (hs.committed.current hfind hsnapshot).append h.saves

theorem Sound.acquire (hs : h.Sound) {ctx : ExecutionContext} {s : Store R}
    (hrun : (Store.acquire ctx).run h.store = (.ok (), s)) : Sound { h with store := s } := by
  obtain ⟨hidle, rfl⟩ := acquire_eq_ok hrun
  have hsaves := hs.idle hidle
  refine ⟨hs.chain, hs.committed, fun u hu => ?_, nofun, hs.loaded⟩
  cases hu
  show Holds h.origin (h.committed ++ h.saves) h.store.committed
  rw [hsaves, List.append_nil]
  exact hs.committed

theorem Sound.others (hs : h.Sound) {ctx : ExecutionContext} {db db' : Database R}
    (hu : h.store.unit = some ⟨ctx, db⟩) (hdb : db'.aggregates = db.aggregates) :
    Sound { h with store := ⟨h.store.committed, some ⟨ctx, db'⟩⟩ } := by
  refine ⟨hs.chain, hs.committed, fun u hu' => ?_, nofun, hs.loaded⟩
  cases hu'
  exact (hs.pending _ hu).congr hdb

theorem Sound.commit (hs : h.Sound) {ctx : ExecutionContext} {s : Store R}
    (hrun : (Store.commit ctx).run h.store = (.ok (), s)) :
    Sound { h with store := s, committed := h.all, saves := [] } := by
  obtain ⟨db, hu, rfl⟩ := commit_eq_ok hrun
  have hall : h.all ++ [] = h.all := List.append_nil _
  refine ⟨?_, hs.pending _ hu, nofun, fun _ => rfl, fun base hbase => ?_⟩
  · show Chain h.origin (h.all ++ [])
    rw [hall]
    exact hs.chain
  · show Current h.origin (h.all ++ []) base
    rw [hall]
    exact hs.loaded base hbase

/-- What was loaded before the unit of work stays current without its saves. -/
theorem Sound.rollback (hs : h.Sound) {ctx : ExecutionContext} {s : Store R}
    (hrun : (Store.rollback ctx).run h.store = (.ok (), s)) :
    Sound { h with
      store := s
      saves := []
      loaded := h.loaded.filter fun b => b.time ≤ h.committed.length } := by
  obtain ⟨-, rfl⟩ := rollback_eq_ok hrun
  have hcommitted : h.committed ++ [] = h.committed := List.append_nil _
  refine ⟨?_, hs.committed, nofun, fun _ => rfl, fun base hbase => ?_⟩
  · show Chain h.origin (h.committed ++ [])
    rw [hcommitted]
    exact hs.chain.of_append
  · obtain ⟨hbase, htime⟩ := List.mem_filter.1 hbase
    have htime' : base.time ≤ h.committed.length := of_decide_eq_true htime
    obtain ⟨row, version, hrow, -, hversion, hreads⟩ := hs.loaded base hbase
    show Current h.origin (h.committed ++ []) base
    rw [hcommitted]
    refine ⟨row, version, hrow, htime', ?_, hreads⟩
    rw [← List.take_append_of_le_length htime']
    exact hversion

/-- Every history that clients come to is sound. -/
theorem Reachable.sound (hh : h.Reachable) : h.Sound := by
  induction hh with
  | start hdb => exact sound_start hdb
  | loadCommitted _ hrun ih => exact ih.loadCommitted hrun
  | acquire _ hrun ih => exact ih.acquire hrun
  | load _ hrun ih => exact ih.load hrun
  | save written _ hbase hlt hrun ih => exact ih.save written hbase hlt hrun
  | insert written _ hrun ih => exact ih.insert written hrun
  | refused _ hrun ih =>
    obtain rfl := store_of_save_error hrun
    exact ih
  | others _ hu hdb ih => exact ih.others hu hdb
  | commit _ hrun ih => exact ih.commit hrun
  | rollback _ hrun ih => exact ih.rollback hrun

/-! ### Lost updates -/

/-- The row of a loaded snapshot has been saved since, maybe in the unit of work that
is still in progress. -/
def Outdated (h : History D R) (base : Base D) : Prop :=
  ∃ w ∈ h.all.drop base.time, base.snapshot.globalId = some w.row

/-- How a save that comes too late is refused: with a conflict, provided that its
state can be written. -/
def refusal {a : D.AggregateType} (snapshot : Snapshot D a) : Error :=
  match stateText snapshot with
  | .ok _ => .conflict snapshot.businessId snapshot.initialSequence
  | .error e => e

/-- A save based on an outdated snapshot is refused, and changes nothing. -/
theorem Sound.refuses (hs : h.Sound) {base : Base D} (hbase : base ∈ h.loaded)
    (houtdated : h.Outdated base) {ctx : ExecutionContext} {db : Database R}
    (hu : h.store.unit = some ⟨ctx, db⟩) (state : Option (D.State base.type)) (sequence : Int) :
    (Store.save ctx ((base.snapshot.withState state).advanceTo sequence)).run h.store =
      (.error (refusal ((base.snapshot.withState state).advanceTo sequence)), h.store) := by
  rcases htext : stateText ((base.snapshot.withState state).advanceTo sequence) with e | text
  · rw [run_save_unwritten htext, refusal, htext]
  obtain ⟨row, version, hrow, -, hversion, hreads⟩ := hs.loaded base hbase
  obtain ⟨w, hw, hwrow⟩ := houtdated
  have hwrow' : w.row = row := Option.some.inj (hwrow.symm.trans hrow)
  -- the row has a greater sequence than the snapshot
  have hchain := hs.chain
  rw [← List.take_append_drop base.time h.all] at hchain
  obtain ⟨later, hlater, hlt⟩ := hchain.lt_of_exists_mem hversion ⟨w, hw, hwrow'⟩
  have hpending := hs.pending _ hu
  rw [List.take_append_drop, ← hpending.rows, hpending.numbered.get?_eq_some] at hlater
  obtain ⟨t, ht, hlater⟩ := Database.exists_aggregates_of_mem hlater
  have hnumbered : t.Numbered := Database.snapshots_of_some ht ▸ hpending.numbered
  have hid : ((base.snapshot.withState state).advanceTo sequence).globalId = some row := hrow
  rw [run_save_outdated hu ht hid htext, refusal, htext]
  intro row' hrow' heq
  have hsequence := hreads.sequence
  rw [hnumbered.unique hrow' hlater] at heq
  have heq' : later.sequence = base.snapshot.initialSequence := heq
  omega

/-- A save of a fresh snapshot whose id is taken is refused, and changes nothing. -/
theorem refuses_fresh {ctx : ExecutionContext} {db : Database R} {s : Store R}
    (hu : s.unit = some ⟨ctx, db⟩) {a : D.AggregateType} {id : Uuid}
    (htaken : ∃ r ∈ db.snapshots.rows, r.2.identifier = id) (state : Option (D.State a))
    (sequence : Int) :
    (Store.save ctx (((Snapshot.fresh id).withState state).advanceTo sequence)).run s =
      (.error (refusal (((Snapshot.fresh id : Snapshot D a).withState state).advanceTo sequence)),
        s) := by
  rcases htext : stateText (((Snapshot.fresh id : Snapshot D a).withState state).advanceTo
      sequence) with e | text
  · rw [run_save_unwritten htext, refusal, htext]
  obtain ⟨r, hr, hid⟩ := htaken
  obtain ⟨t, ht, hr⟩ := Database.exists_aggregates_of_mem hr
  rw [run_save_taken hu ht rfl htext ⟨r, hr, hid⟩, refusal, htext]

/-- A save has loaded what the save on the row just before it has written. -/
theorem follows_save {origin : Database R} {ws before between after : List (Saved D)}
    {v w : Saved D} (hchain : Chain origin ws)
    (heq : ws = before ++ v :: (between ++ w :: after)) (hrow : v.row = w.row)
    (hbetween : ∀ u ∈ between, u.row ≠ w.row) : w.Follows (some v.stored) := by
  have hfollows := hchain (before ++ v :: between) w after (by simp [heq])
  have hsplit : before ++ v :: between = before ++ [v] ++ between := by simp
  rw [hsplit, versionAt_append_of_ne hbetween, versionAt_append_singleton, if_pos hrow] at hfollows
  exact hfollows

/-- **No update is lost.**  Any number of clients load aggregates and save them in
units of work, in any order.  A snapshot that a client has read in a unit of work after
its own save of the row is not used any more if the unit is rolled back: what it shows
was never committed, and the number of its row may be given to another one.

* Every committed save is based on the version of the row that was there before it,
  and sets a greater sequence; the first save of a row is based on none.  The rows
  that are stored are the last versions.
* So the sequences of the saves on a row increase, and each of them has loaded the
  sequence and the text that the one before has written, which is the state that
  this one was given if states are read back as they are written.
* A save based on a snapshot whose row was saved since, or on a fresh one whose id
  is taken, changes nothing and is refused: with a conflict, or with the reason why
  its state cannot be written. -/
theorem saves_follow (h : History D R) (hh : h.Reachable) :
    Chain h.origin h.committed ∧
    (∀ row, h.store.committed.snapshots.get? row = versionAt h.origin h.committed row) ∧
    (h.committed.Pairwise fun v w => v.row = w.row → v.sequence < w.sequence) ∧
    (∀ before v between w after, h.committed = before ++ v :: (between ++ w :: after) →
      v.row = w.row → (∀ u ∈ between, u.row ≠ w.row) →
      w.base.initialSequence = v.sequence ∧
      ∃ state, w.base.state = some state ∧
        (D.stateCodec w.type).optional.deserialize v.base.typeName v.text = .ok (some state) ∧
        ∀ htype : v.type = w.type, (D.stateCodec w.type).ReadsBack →
          htype ▸ v.state = some state) ∧
    ∀ ctx db, h.store.unit = some ⟨ctx, db⟩ →
      (∀ base ∈ h.loaded, h.Outdated base → ∀ state sequence,
        (Store.save ctx ((base.snapshot.withState state).advanceTo sequence)).run h.store =
          (.error (refusal ((base.snapshot.withState state).advanceTo sequence)), h.store)) ∧
      ∀ (a : D.AggregateType) id, (∃ r ∈ db.snapshots.rows, r.2.identifier = id) →
        ∀ state sequence,
          (Store.save ctx (((Snapshot.fresh id).withState state).advanceTo sequence)).run h.store =
            (.error (refusal (((Snapshot.fresh id : Snapshot D a).withState state).advanceTo
              sequence)), h.store) := by
  have hs := hh.sound
  have hchain : Chain h.origin h.committed := hs.chain.of_append
  refine ⟨hchain, hs.committed.rows, hchain.increasing, ?_, fun ctx db hu => ⟨?_, ?_⟩⟩
  · intro before v between w after heq hrow hbetween
    obtain ⟨-, hreads, -⟩ := follows_save hchain heq hrow hbetween
    obtain ⟨state, hstate, hread⟩ := hreads.state
    refine ⟨hreads.sequence.symm, state, hstate, hread, fun htype hback => ?_⟩
    rcases v with ⟨type, base, state', sequence, row, text, written⟩
    cases htype
    exact hback.optional written hread
  · intro base hbase houtdated state sequence
    exact hs.refuses hbase houtdated hu state sequence
  · intro a id htaken state sequence
    exact refuses_fresh hu htaken state sequence

/-! ### Labels -/

/-- The first save of a label. -/
def firstLabel : Saved Bench.vocabulary :=
  ⟨.label, Snapshot.fresh Uuid.zero, some (Bench.Label.mk "first"), 1, 1,
    "\x7b\"text\":\"first\"\x7d", rfl⟩

/-- The snapshot that is loaded after that. -/
def loadedLabel : Base Bench.vocabulary :=
  ⟨.label, ⟨some 1, Uuid.zero, "Label", some (Bench.Label.mk "first"), 1, 1⟩, 1⟩

/-- A save that is based on it. -/
def secondLabel : Saved Bench.vocabulary :=
  ⟨.label, loadedLabel.snapshot, some (Bench.Label.mk "second"), 2, 1,
    "\x7b\"text\":\"second\"\x7d", rfl⟩

/-- The database before the label is saved. -/
def noLabel : Database Unit := (Database.blank ()).migrate

/-- The database after a save of the label. -/
def labelDatabase (w : Saved Bench.vocabulary) : Database Unit :=
  ⟨some ⟨[(1, w.stored)], 1⟩, some Table.empty, ()⟩

/-- The label was saved, loaded and saved again, and another unit of work has begun. -/
def labelHistory : History Bench.vocabulary Unit :=
  ⟨noLabel, ⟨labelDatabase secondLabel, some ⟨⟨0⟩, labelDatabase secondLabel⟩⟩,
    [loadedLabel], [firstLabel, secondLabel], []⟩

theorem reachable_labelHistory : labelHistory.Reachable := by
  have hread : Bench.labelCodec.optional.deserialize "Label" firstLabel.text =
      .ok (some (Bench.Label.mk "first")) := by decide +kernel
  have hsnapshot : snapshotOf loadedLabel.type Uuid.zero (some (1, firstLabel.stored)) =
      .ok loadedLabel.snapshot := snapshotOf_stored rfl hread
  have hbegun : Reachable (⟨noLabel, ⟨noLabel, some ⟨⟨0⟩, noLabel⟩⟩, [], [], []⟩ :
      History Bench.vocabulary Unit) :=
    (Reachable.start (.migrate (.blank ()))).acquire rfl
  have hfirst : Reachable ⟨noLabel, ⟨noLabel, some ⟨⟨0⟩, labelDatabase firstLabel⟩⟩, [], [],
      [firstLabel]⟩ := hbegun.insert firstLabel.written (show (Store.save ⟨0⟩ _).run _ = _ from rfl)
  have hcommitted : Reachable ⟨noLabel, ⟨labelDatabase firstLabel, none⟩, [], [firstLabel], []⟩ :=
    hfirst.commit (show (Store.commit ⟨0⟩).run _ = _ from rfl)
  have hloaded : Reachable ⟨noLabel, ⟨labelDatabase firstLabel, none⟩, [loadedLabel],
      [firstLabel], []⟩ :=
    hcommitted.loadCommitted (run_loadCommitted rfl hsnapshot)
  have hagain : Reachable ⟨noLabel,
      ⟨labelDatabase firstLabel, some ⟨⟨0⟩, labelDatabase firstLabel⟩⟩, [loadedLabel],
      [firstLabel], []⟩ := hloaded.acquire rfl
  have hsecond : Reachable ⟨noLabel,
      ⟨labelDatabase firstLabel, some ⟨⟨0⟩, labelDatabase secondLabel⟩⟩, [loadedLabel],
      [firstLabel], [secondLabel]⟩ :=
    hagain.save secondLabel.written List.mem_cons_self (by decide)
      (show (Store.save ⟨0⟩ _).run _ = _ from rfl)
  have hdone : Reachable ⟨noLabel, ⟨labelDatabase secondLabel, none⟩, [loadedLabel],
      [firstLabel, secondLabel], []⟩ := hsecond.commit (show (Store.commit ⟨0⟩).run _ = _ from rfl)
  exact hdone.acquire rfl

/-- The loaded label is outdated, and saving it again is a conflict. -/
theorem outdated_label_conflicts :
    labelHistory.Reachable ∧ loadedLabel ∈ labelHistory.loaded ∧
      labelHistory.Outdated loadedLabel ∧
      (Store.save ⟨0⟩ ((loadedLabel.snapshot.withState (some (Bench.Label.mk "third"))).advanceTo
        3)).run labelHistory.store = (.error (.conflict Uuid.zero 1), labelHistory.store) := by
  have houtdated : labelHistory.Outdated loadedLabel :=
    ⟨secondLabel, List.mem_cons_self, rfl⟩
  obtain ⟨-, -, -, -, hrefused⟩ := saves_follow labelHistory reachable_labelHistory
  obtain ⟨hlate, -⟩ := hrefused ⟨0⟩ _ rfl
  exact ⟨reachable_labelHistory, List.mem_cons_self, houtdated,
    hlate loadedLabel List.mem_cons_self houtdated (some (Bench.Label.mk "third")) 3⟩

/-- A label that cannot be written is refused for that, and not as a conflict, also
when it is outdated. -/
theorem cursed_save_is_no_conflict :
    labelHistory.Reachable ∧ loadedLabel ∈ labelHistory.loaded ∧
      labelHistory.Outdated loadedLabel ∧
      let answer := ((Store.save ⟨0⟩ ((loadedLabel.snapshot.withState
        (some (Bench.Label.mk Bench.cursed))).advanceTo 3)).run labelHistory.store).1
      answer = .error (.serialization "Label" (.refused "cursed text")) ∧
        ∀ id expected, answer ≠ .error (.conflict id expected) := by
  have houtdated : labelHistory.Outdated loadedLabel := ⟨secondLabel, List.mem_cons_self, rfl⟩
  exact ⟨reachable_labelHistory, List.mem_cons_self, houtdated, rfl, nofun⟩

end History

end Chronicle
