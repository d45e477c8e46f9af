/-
Chronicle/Proofs/Stream/Course.lean

The course of a worker, and of all workers that take its place after it.

A `Reader` is a worker whose consumer reads a log in order, partition by
partition.  A `Course` is how far one has come, together with a record of what it
and the workers before it have processed and committed: `Course.Reachable` lists
what can happen, with steps of the worker, other work in between, and restarts at
any moment.
-/
import Chronicle.Proofs.Stream.Segments
import Chronicle.Proofs.Stream.Steps

namespace Chronicle

variable {D : Domain} {R W : Type} {log : StreamRecord → Prop}

/-! ### Readers -/

/-- A worker whose consumer reads a log.  The log has all records that are ever
there, and the consumer a position in every partition.

* A poll that succeeds delivers the records of every partition from its position
  up to a later one, in any mixture, and moves the position there.  Any other poll
  delivers nothing and moves nothing.
* A rewind that succeeds moves the positions that it names to where it says.
* Nothing else moves positions: no commit, and no handler. -/
structure Reader (D : Domain) (R W : Type) (log : StreamRecord → Prop) where
  worker : Worker D (Session R W)
  /-- The offset in a partition from which is read next. -/
  position : W → TopicPartition → Int
  poll_ok : ∀ timeout limit records (s s' : Session R W),
    (worker.consumer.poll timeout limit).run s = (some (.ok records), s') →
      ∀ p, Segment log p (position s.world p) (position s'.world p) (inPartition p records)
  poll_failed : ∀ timeout limit answer (s s' : Session R W),
    (worker.consumer.poll timeout limit).run s = (answer, s') →
      (∀ records, answer ≠ some (.ok records)) → position s'.world = position s.world
  commit : ∀ offsets answer (s s' : Session R W),
    (worker.consumer.commit offsets).run s = (answer, s') → position s'.world = position s.world
  rewind_ok : ∀ offsets (s s' : Session R W),
    (worker.consumer.rewind offsets).run s = (.ok (), s') →
      ∀ p, position s'.world p = (offsets.at? p).getD (position s.world p)
  rewind_failed : ∀ offsets e (s s' : Session R W),
    (worker.consumer.rewind offsets).run s = (.error e, s') → position s'.world = position s.world
  handlers : ∀ typeName, ∀ h ∈ worker.registry.streamHandlers worker.group typeName,
    ∀ values event, (h.2.run values event).Respects fun s s' =>
      position s'.world = position s.world

/-- A reader that can always be rewound. -/
def Reader.Rewinds (reader : Reader D R W log) : Prop :=
  ∀ offsets s, ((reader.worker.consumer.rewind offsets).run s).1 = .ok ()

namespace Registry

section

variable {σ : Type} {Q : σ → σ → Prop} (hrefl : ∀ s, Q s s)
  (htrans : ∀ {a b c}, Q a b → Q b c → Q a c) {r : Registry D σ} {group : String}
  (hhandlers : ∀ typeName, ∀ h ∈ r.streamHandlers group typeName, ∀ values event,
    (h.2.run values event).Respects Q)

include hrefl htrans hhandlers

/-- What is called for an event respects what the handlers respect. -/
theorem deliver_respects {env : Envelope} {typeName : String} {calls : List (Task σ Unit)}
    (h : r.deliver group env = .deliver typeName calls) : ∀ call ∈ calls, call.Respects Q := by
  intro call hcall
  unfold deliver at h
  split at h
  · split at h
    · cases h
    · cases h
    · cases h
      obtain ⟨f, hf, rfl⟩ := List.mem_map.1 hcall
      unfold callStream
      split
      · rename_i e _
        exact callWith_respects hrefl @htrans _ _ fun values => hhandlers _ f hf values e
      · exact Task.respects_throw hrefl _
  · cases h

theorem delivery_respects {record : StreamRecord} {typeName : String}
    {calls : List (Task σ Unit)} (h : r.delivery group record = .deliver typeName calls) :
    ∀ call ∈ calls, call.Respects Q := by
  unfold delivery at h
  split at h
  · cases h
  · split at h
    · cases h
    · cases h
    · exact deliver_respects hrefl @htrans hhandlers h

end

end Registry

/-! ### What a step adds -/

namespace Worker

variable {σ : Type}

/-- The record that is processed in a step from one phase to another: the first of
those pending, when it is skipped or its last handler has succeeded. -/
def processedIn : WorkerPhase σ → WorkerPhase σ → List StreamRecord
  | .batch _ (record :: _), .batch _ _ => [record]
  | .handling _ record _ _ _, .batch _ _ => [record]
  | _, _ => []

/-- The offsets that are committed in a step, if the broker takes them.  What the worker
calls is seen in `Logged.committedIn_eq_iff`. -/
def committedIn (w : Worker D (Session R W)) (s : Session R W) :
    WorkerPhase (Session R W) → Offsets
  | .committing done _ =>
    match ((w.consumer.commit (Offsets.behind done)).run s).1 with
    | .ok () => Offsets.behind done
    | .error _ => []
  | _ => []

end Worker

/-! ### Courses -/

/-- How far a reader has come.  What it has processed is in order, oldest first,
and so are all offsets that were ever committed. -/
structure Course (D : Domain) (R W : Type) (log : StreamRecord → Prop) where
  reader : Reader D R W log
  phase : WorkerPhase (Session R W)
  session : Session R W
  /-- Where the reader started. -/
  start : TopicPartition → Int
  processed : List StreamRecord
  /-- What the readers before it have processed. -/
  earlier : List StreamRecord
  commits : Offsets

namespace Course

/-- The offset of a partition that is committed; before any commit, its origin. -/
def committedAt (origin : TopicPartition → Int) (commits : Offsets) (p : TopicPartition) : Int :=
  ((commits.filter fun o => o.1 = p).getLast?.map (·.2)).getD (origin p)

/-- A reader that starts at the committed offsets. -/
def starting (origin : TopicPartition → Int) (reader : Reader D R W log) (s : Session R W)
    (earlier : List StreamRecord) (commits : Offsets) : Course D R W log :=
  ⟨reader, .polling, s, committedAt origin commits, [], earlier, commits⟩

/-- The position in a partition. -/
def position (c : Course D R W log) (p : TopicPartition) : Int :=
  c.reader.position c.session.world p

/-- One step of the worker. -/
def advance (c : Course D R W log) (signalled : Bool) : Course D R W log :=
  let next := (c.reader.worker.step signalled c.phase).run c.session
  { c with
    phase := next.1
    session := next.2
    processed := c.processed ++ Worker.processedIn c.phase next.1
    commits := c.commits ++ c.reader.worker.committedIn c.session c.phase }

/-- The courses that readers with a property can come to.  The signal may come at
any step, and a pause may end at any time.  Others may do anything between two
steps but move the positions.  At any moment a reader may be replaced by another
one, which starts at the committed offsets. -/
inductive Reachable (origin : TopicPartition → Int) (P : Reader D R W log → Prop) :
    Course D R W log → Prop
  | start (reader : Reader D R W log) (s : Session R W) : P reader →
      (∀ p, reader.position s.world p = origin p) →
      Reachable origin P (starting origin reader s [] [])
  | step {c : Course D R W log} (signalled : Bool) :
      Reachable origin P c → Reachable origin P (c.advance signalled)
  | wake {c : Course D R W log} :
      Reachable origin P c → Reachable origin P { c with phase := Worker.wake c.phase }
  | others {c : Course D R W log} (s : Session R W) : Reachable origin P c →
      c.reader.position s.world = c.reader.position c.session.world →
      Reachable origin P { c with session := s }
  | restart {c : Course D R W log} (reader : Reader D R W log) (s : Session R W) :
      Reachable origin P c → P reader →
      (∀ p, reader.position s.world p = committedAt origin c.commits p) →
      Reachable origin P (starting origin reader s (c.earlier ++ c.processed) c.commits)

end Course

end Chronicle
