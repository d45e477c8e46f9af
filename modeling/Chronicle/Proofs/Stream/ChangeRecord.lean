/-
Chronicle/Proofs/Stream/ChangeRecord.lean

What is decoded from the change record of a stored event.

A change record is JSON, and the payload and the metadata in it are texts that are
JSON again.  `Envelope.ChangeRecord` says which trees are change records of a row:
the members of the row are in any order, and around it is the body, bare or in a
wrapper.  Any text of such a tree will do.

Main result: the envelope has the fields of the row, with the metadata read from
its text (`Envelope.decode_changeRecord`).
-/
import Chronicle.Envelope
import Chronicle.Proofs.Json.Fields
import Chronicle.Proofs.Json.Values
import Chronicle.Store.Database
import Mathlib.Data.List.Nodup

namespace Chronicle

open Json

namespace Json

/-- A tree of some depth at most, all of which stands for values. -/
structure Tree.ReadTo (depth : Nat) (t : Tree) : Prop where
  depth_le : t.depth ≤ depth
  value : ∃ v, Value.ofTree? t = some v

theorem Tree.readTo_text (s : String) : (Tree.text s).ReadTo 0 := ⟨Nat.le_refl 0, _, rfl⟩

theorem Tree.readTo_int {n : Int} (h : isSigned64 n = true) : (Tree.int n).ReadTo 0 := by
  refine ⟨Nat.le_refl 0, .number (.int n), ?_⟩
  show (Numeral.ofInt n).number?.map Value.number = _
  rw [number?_ofInt (exact_of_isSigned64 h)]
  rfl

/-- An object is nested once more than its members. -/
theorem Tree.readTo_ofMembers {members : List (String × Tree)} {depth : Nat}
    (h : ∀ m ∈ members, m.2.ReadTo depth) : (ofMembers members).ReadTo (depth + 1) := by
  have hdepth : depthMembers (members.map fun m => ((some m.1 : Literal), m.2)) ≤ depth := by
    induction members with
    | nil => exact Nat.zero_le _
    | cons m rest ih =>
      apply Nat.max_le.2
      exact ⟨(h m List.mem_cons_self).depth_le, ih fun m hm => h m (List.mem_cons_of_mem _ hm)⟩
  have hvalues (seen : List (String × Value)) :
      ∃ vs, Value.ofMembers? (members.map fun m => ((some m.1 : Literal), m.2)) seen =
        some vs := by
    clear hdepth
    induction members generalizing seen with
    | nil => exact ⟨seen, rfl⟩
    | cons m rest ih =>
      obtain ⟨v, hv⟩ := (h m List.mem_cons_self).value
      obtain ⟨vs, hvs⟩ :=
        ih (fun m hm => h m (List.mem_cons_of_mem _ hm)) (insertEntry m.1 v seen)
      refine ⟨vs, ?_⟩
      show (Value.ofTree? m.2 >>= fun v =>
        Value.ofMembers? (rest.map _) (insertEntry m.1 v seen)) = _
      rw [hv]
      exact hvs
  obtain ⟨vs, hvs⟩ := hvalues []
  refine ⟨Nat.succ_le_succ hdepth, .object vs, ?_⟩
  show (Value.ofMembers? _ []).map Value.object = _
  rw [hvs]
  rfl

/-- An array is nested once more than its items. -/
theorem Tree.readTo_array {items : List Tree} {depth : Nat} (h : ∀ t ∈ items, t.ReadTo depth) :
    (array items).ReadTo (depth + 1) := by
  have hitems : depthItems items ≤ depth ∧ ∃ vs, Value.ofItems? items = some vs := by
    induction items with
    | nil => exact ⟨Nat.zero_le _, [], rfl⟩
    | cons t rest ih =>
      obtain ⟨v, hv⟩ := (h t List.mem_cons_self).value
      obtain ⟨hdepth, vs, hvs⟩ := ih fun t ht => h t (List.mem_cons_of_mem _ ht)
      refine ⟨Nat.max_le.2 ⟨(h t List.mem_cons_self).depth_le, hdepth⟩, v :: vs, ?_⟩
      rw [Value.ofItems?, hv, hvs]
      rfl
  obtain ⟨hdepth, vs, hvs⟩ := hitems
  refine ⟨Nat.succ_le_succ hdepth, .array vs, ?_⟩
  show (Value.ofItems? items).map Value.array = _
  rw [hvs]
  rfl

theorem Tree.readTo_single (name : String) {t : Tree} {depth : Nat} (h : t.ReadTo depth) :
    (ofMembers [(name, t)]).ReadTo (depth + 1) := by
  apply Tree.readTo_ofMembers
  intro m hm
  rw [List.mem_singleton.1 hm]
  exact h

end Json

/-! ### Change records -/

namespace Envelope

/-- The members of the row of a stored event. -/
def rowMembers (sequence : Int) (row : EventRow) : List (String × Tree) :=
  [("global_sequence", .int sequence), ("aggregate_global_id", .int row.aggregateGlobalId),
   ("class_name", .text row.typeName), ("payload", .text row.payload),
   ("metadata", .text row.metadata)]

/-- The change records of a stored event. -/
inductive ChangeRecord (sequence : Int) (row : EventRow) : Tree → Prop
  | bare {members : List (String × Tree)} : members.Perm (rowMembers sequence row) →
      ChangeRecord sequence row (.ofMembers [("after", .ofMembers members)])
  | wrapped {members : List (String × Tree)} : members.Perm (rowMembers sequence row) →
      ChangeRecord sequence row
        (.ofMembers [("payload", .ofMembers [("after", .ofMembers members)])])

variable {sequence : Int} {row : EventRow} {members : List (String × Tree)}

/-- Something that is not nested too deeply, all of which stands for values. -/
theorem isSound_of_readTo {t : Tree} {depth : Nat} (h : t.ReadTo depth)
    (hdepth : depth ≤ Tree.depthLimit) : isSound t = true := by
  obtain ⟨v, hv⟩ := h.value
  rw [isSound, hv, decide_eq_true (Nat.le_trans h.depth_le hdepth)]
  rfl

section

variable (hmembers : members.Perm (rowMembers sequence row))
  (hsequence : isSigned64 sequence = true) (hid : isSigned64 row.aggregateGlobalId = true)

theorem nodup_rowMembers (sequence : Int) (row : EventRow) :
    ((rowMembers sequence row).map Prod.fst).Nodup := by
  show ["global_sequence", "aggregate_global_id", "class_name", "payload", "metadata"].Nodup
  decide

theorem integer?_int {n : Int} (h : isSigned64 n = true) : integer? (.int n) = some n := by
  unfold Tree.int integer?
  dsimp only
  rw [number?_ofInt (exact_of_isSigned64 h)]
  exact if_pos h

/-- The row of something with all fields, each of which is what it has to be. -/
theorem row?_of_fields? {t s i : Tree} {row : Row}
    (hfields : t.fields? rowFields = some [some (.text row.typeName), some s, some i,
      some (.text row.payload), some (.text row.metadata)])
    (hs : integer? s = some row.globalSequence) (hi : integer? i = some row.aggregateGlobalId) :
    row? t = some row := by
  unfold row?
  rw [hfields]
  show (integer? s >>= fun n => integer? i >>= fun g =>
    some (⟨row.typeName, n, g, row.payload, row.metadata⟩ : Row)) = _
  rw [hs, hi]
  rfl

include hmembers hsequence hid

/-- The row is read whatever the order of its members. -/
theorem row?_ofMembers : row? (.ofMembers members) =
    some ⟨row.typeName, sequence, row.aggregateGlobalId, row.payload, row.metadata⟩ := by
  have hkeys := (hmembers.map Prod.fst).nodup_iff.2 (nodup_rowMembers sequence row)
  have hfields : (Tree.ofMembers members).fields? rowFields =
      some [some (.text row.typeName), some (.int sequence), some (.int row.aggregateGlobalId),
        some (.text row.payload), some (.text row.metadata)] := by
    rw [Tree.fields?_ofMembers hkeys]
    simp only [valueOf?_perm hmembers (nodup_rowMembers sequence row)]
    rfl
  exact row?_of_fields? hfields (integer?_int hsequence) (integer?_int hid)

/-- The body of a change record. -/
theorem body?_ofMembers : body? (.ofMembers [("after", .ofMembers members)]) =
    some (some ⟨row.typeName, sequence, row.aggregateGlobalId, row.payload, row.metadata⟩) := by
  unfold body?
  rw [Tree.fields?_single]
  show (row? (.ofMembers members) >>= fun row => some (some row)) = _
  rw [row?_ofMembers hmembers hsequence hid]
  rfl

theorem readTo_row : (Tree.ofMembers members).ReadTo 1 := by
  refine Tree.readTo_ofMembers fun m hm => ?_
  have hmem := hmembers.mem_iff.1 hm
  simp only [rowMembers, List.mem_cons, List.not_mem_nil, or_false] at hmem
  rcases hmem with rfl | rfl | rfl | rfl | rfl
  · exact Tree.readTo_int hsequence
  · exact Tree.readTo_int hid
  · exact Tree.readTo_text _
  · exact Tree.readTo_text _
  · exact Tree.readTo_text _

end

section

variable {t : Tree} (h : ChangeRecord sequence row t) (hsequence : isSigned64 sequence = true)
  (hid : isSigned64 row.aggregateGlobalId = true)

include h hsequence hid

/-- A change record holds the row. -/
theorem ChangeRecord.record? : record? t =
    some (some ⟨row.typeName, sequence, row.aggregateGlobalId, row.payload, row.metadata⟩) := by
  cases h with
  | @bare members hmembers =>
    have hwrapped : wrapped? (.ofMembers [("after", .ofMembers members)]) = none := rfl
    rw [Envelope.record?, hwrapped, body?_ofMembers hmembers hsequence hid]
    rfl
  | @wrapped members hmembers =>
    have hwrapped :
        wrapped? (.ofMembers [("payload", .ofMembers [("after", .ofMembers members)])]) =
          body? (.ofMembers [("after", .ofMembers members)]) := rfl
    rw [Envelope.record?, hwrapped, body?_ofMembers hmembers hsequence hid]
    rfl

theorem ChangeRecord.isSound : isSound t = true := by
  have hread : t.ReadTo 3 := by
    cases h with
    | bare hmembers =>
      have hbody := Tree.readTo_single "after" (readTo_row hmembers hsequence hid)
      -- a bare record is nested once less
      exact ⟨Nat.le_succ_of_le hbody.depth_le, hbody.value⟩
    | wrapped hmembers =>
      have hbody := Tree.readTo_single "after" (readTo_row hmembers hsequence hid)
      exact Tree.readTo_single "payload" hbody
  exact isSound_of_readTo hread (by decide)

end

/-- The bytes of a text are read as the text. -/
theorem tree?_toUTF8 {text : String} {t : Tree} (hread : Tree.read? text = some t)
    (ht : isSound t = true) : tree? text.toUTF8 = some (t, true) := by
  have htext : textOf text.toUTF8 = (text.toList, true) := by
    -- the bytes of a text are valid, so nothing in them is cut off
    have hutf8 : String.fromUTF8? text.toUTF8 = some text := dif_pos text.isValidUTF8
    rw [textOf, hutf8]
  unfold Tree.read? at hread
  split at hread
  · rename_i u rest hfirst
    split at hread
    · rename_i hrest
      cases hread
      show (Tree.readFirst? (textOf text.toUTF8).1 >>= fun p =>
        if isSound p.1 then some (p.1, (textOf text.toUTF8).2 && (skipBlank p.2).isEmpty)
        else none) = _
      rw [htext]
      show (Tree.readFirst? text.toList >>= _) = _
      rw [hfirst]
      show (if isSound t then some (t, true && (skipBlank rest).isEmpty) else none) = _
      rw [if_pos ht, hrest]
      rfl
    · cases hread
  · cases hread

/-- **Change records.**  Whatever text stands for a change record of a stored event,
what is decoded from its bytes has the fields of the row. -/
theorem decode_changeRecord {text : String} {t : Tree} (hread : Tree.read? text = some t)
    (h : ChangeRecord sequence row t) (hsequence : isSigned64 sequence = true)
    (hid : isSigned64 row.aggregateGlobalId = true) {metadata : Metadata}
    (hmetadata : Metadata.codec.deserialize row.typeName row.metadata = .ok metadata) :
    decode text.toUTF8 = .ok (some
      ⟨row.typeName, sequence, row.aggregateGlobalId, row.payload, metadata⟩) := by
  unfold decode
  rw [tree?_toUTF8 hread (h.isSound hsequence hid)]
  dsimp only
  rw [h.record? hsequence hid]
  show (Metadata.codec.deserialize row.typeName row.metadata >>= _) = _
  rw [hmetadata]
  rfl

end Envelope

end Chronicle
