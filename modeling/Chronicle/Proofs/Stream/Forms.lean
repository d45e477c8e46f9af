/-
Chronicle/Proofs/Stream/Forms.lean

The forms in which converters write the row of an event.

A row is an object or an array, its body is one of both as well, and the body is bare
or in a wrapper.  Both integers are numbers or texts: a sign, the digits behind any
zeros, and white space around all of it.  `RecordForm` says which trees these are.
Members in another order, or beside others, are a matter of `Noise`.

Main result: whatever the form, what is decoded is the row (`decode_form`).
-/
import Chronicle.Proofs.Date
import Chronicle.Proofs.Stream.Noise

namespace Chronicle

/-! ### Texts of integers -/

namespace Text

theorem number?_padded (width n : Nat) : number? (Date.padded width n) = some n := by
  have hdigits : (Date.padded width n).all isDigit = true :=
    List.all_eq_true.2 fun _ => Date.isDigit_of_mem_padded
  rw [number?, if_pos ⟨Date.padded_ne_nil width n, hdigits⟩, Date.number_padded]

end Text

namespace Envelope

open Json

/-- The texts of an integer without white space: its digits behind any zeros, with a
minus sign if it is negative and maybe a plus sign if it is not.  Nought has either. -/
inductive Signed (n : Int) : List Char → Prop
  | minus (width : Nat) : n ≤ 0 → Signed n ('-' :: Date.padded width n.natAbs)
  | plain (width : Nat) : 0 ≤ n → Signed n (Date.padded width n.natAbs)
  | plus (width : Nat) : 0 ≤ n → Signed n ('+' :: Date.padded width n.natAbs)

/-- The forms of an integer.  The numeral `-0` is none of them: it stands for a double. -/
inductive IntegerForm (n : Int) : Tree → Prop
  | number : IntegerForm n (.int n)
  | text {before cs behind : List Char} : (∀ c ∈ before, Text.isBlank c = true) → Signed n cs →
      (∀ c ∈ behind, Text.isBlank c = true) →
      IntegerForm n (.text (String.ofList (before ++ cs ++ behind)))

section

variable {n : Int} {cs : List Char}

theorem Signed.ne_nil (h : Signed n cs) : cs ≠ [] := by
  cases h with
  | minus => exact List.cons_ne_nil _ _
  | plain => exact Date.padded_ne_nil _ _
  | plus => exact List.cons_ne_nil _ _

theorem Signed.not_blank (h : Signed n cs) : ∀ c ∈ cs, Text.isBlank c = false := by
  have hpadded (width : Nat) : ∀ c ∈ Date.padded width n.natAbs, Text.isBlank c = false :=
    fun c hc => (Text.not_mark_of_isDigit (Date.isDigit_of_mem_padded hc)).1
  cases h with
  | minus width => exact List.forall_mem_cons.2 ⟨rfl, hpadded width⟩
  | plain width => exact hpadded width
  | plus width => exact List.forall_mem_cons.2 ⟨rfl, hpadded width⟩

theorem Signed.value (h : Signed n cs) : signedValue? cs = some n := by
  cases h with
  | minus width hn =>
    have hvalue : -(n.natAbs : Int) = n := by omega
    rw [signedValue?, Text.number?_padded]
    exact congrArg some hvalue
  | plain width hn =>
    have hvalue : (n.natAbs : Int) = n := by omega
    obtain ⟨c, ds, hds, hc⟩ := Date.exists_padded_cons width n.natAbs []
    rw [List.append_nil] at hds
    obtain ⟨-, hminus, hplus⟩ := Text.not_mark_of_isDigit hc
    rw [hds]
    unfold signedValue?
    -- the first digit is not taken for a sign
    split
    · rename_i heq
      exact absurd (List.cons.inj heq).1 hminus
    · rename_i heq
      exact absurd (List.cons.inj heq).1 hplus
    · rw [← hds, Text.number?_padded]
      exact congrArg some hvalue
  | plus width hn =>
    have hvalue : (n.natAbs : Int) = n := by omega
    rw [signedValue?, Text.number?_padded]
    exact congrArg some hvalue

variable {t : Tree}

theorem IntegerForm.integer? (h : IntegerForm n t) (hn : isSigned64 n = true) :
    integer? t = some n := by
  cases h with
  | number => exact integer?_int hn
  | @text before cs behind hbefore hcs hbehind =>
    show (signedValue? (Text.trimChars (String.ofList (before ++ cs ++ behind)).toList)).filter
      isSigned64 = some n
    rw [String.toList_ofList, Text.trimChars_between hbefore hcs.not_blank hcs.ne_nil hbehind,
      hcs.value, Option.filter_some, if_pos hn]

theorem IntegerForm.readTo (h : IntegerForm n t) (hn : isSigned64 n = true) : t.ReadTo 0 := by
  cases h with
  | number => exact Tree.readTo_int hn
  | text => exact Tree.readTo_text _

end

/-! ### Records -/

/-- The fields of a row in order, with trees for both integers. -/
def fieldTrees (row : Row) (sequence id : Tree) : List Tree :=
  [.text row.typeName, sequence, id, .text row.payload, .text row.metadata]

/-- The forms of a row. -/
inductive RowForm (row : Row) : Tree → Prop
  | object {sequence id : Tree} : IntegerForm row.globalSequence sequence →
      IntegerForm row.aggregateGlobalId id →
      RowForm row (.ofMembers (rowFields.zip (fieldTrees row sequence id)))
  | array {sequence id : Tree} : IntegerForm row.globalSequence sequence →
      IntegerForm row.aggregateGlobalId id → RowForm row (.array (fieldTrees row sequence id))

/-- The forms of the body with a row. -/
inductive BodyForm (row : Row) : Tree → Prop
  | object {t : Tree} : RowForm row t → BodyForm row (.ofMembers [("after", t)])
  | array {t : Tree} : RowForm row t → BodyForm row (.array [t])

/-- The forms of a change record with a row. -/
inductive RecordForm (row : Row) : Tree → Prop
  | bare {t : Tree} : BodyForm row t → RecordForm row t
  | wrapped {t : Tree} : BodyForm row t → RecordForm row (.ofMembers [("payload", t)])

section

variable {row : Row} {t : Tree}

theorem RowForm.ne_null (h : RowForm row t) : t ≠ .null := by
  cases h with
  | object => exact nofun
  | array => exact nofun

/-- A bare body is no wrapper, as it has no payload. -/
theorem BodyForm.wrapped? (h : BodyForm row t) : wrapped? t = none := by
  cases h with
  | object => rfl
  | array => rfl

variable (hsequence : isSigned64 row.globalSequence = true)
  (hid : isSigned64 row.aggregateGlobalId = true)

include hsequence hid

theorem RowForm.row? (h : RowForm row t) : row? t = some row := by
  cases h with
  | @object sequence id hs hi =>
    have hkeys : ((rowFields.zip (fieldTrees row sequence id)).map Prod.fst).Nodup := by
      show rowFields.Nodup
      decide
    exact row?_of_fields? (Tree.fields?_ofMembers hkeys rowFields) (hs.integer? hsequence)
      (hi.integer? hid)
  | array hs hi => exact row?_of_fields? rfl (hs.integer? hsequence) (hi.integer? hid)

theorem BodyForm.body? (h : BodyForm row t) : body? t = some (some row) := by
  cases h with
  | object h =>
    rw [body?_of_fields? (Tree.fields?_single "after" _) h.ne_null, h.row? hsequence hid]
    rfl
  | array h =>
    rw [body?_of_fields? rfl h.ne_null, h.row? hsequence hid]
    rfl

theorem RecordForm.record? (h : RecordForm row t) : record? t = some (some row) := by
  unfold Envelope.record?
  cases h with
  | bare h => rw [h.wrapped?, h.body? hsequence hid, Option.none_or]
  | @wrapped body h =>
    have hwrapped : Envelope.wrapped? (.ofMembers [("payload", body)]) = Envelope.body? body := rfl
    rw [hwrapped, h.body? hsequence hid, Option.some_or]

theorem RowForm.readTo (h : RowForm row t) : t.ReadTo 1 := by
  have hfields {sequence id : Tree} (hs : IntegerForm row.globalSequence sequence)
      (hi : IntegerForm row.aggregateGlobalId id) :
      ∀ t ∈ fieldTrees row sequence id, t.ReadTo 0 := by
    simp only [fieldTrees, List.forall_mem_cons]
    exact ⟨Tree.readTo_text _, hs.readTo hsequence, hi.readTo hid, Tree.readTo_text _,
      Tree.readTo_text _, nofun⟩
  cases h with
  | object hs hi =>
    exact Tree.readTo_ofMembers fun m hm => hfields hs hi m.2 (List.of_mem_zip hm).2
  | array hs hi => exact Tree.readTo_array (hfields hs hi)

theorem BodyForm.readTo (h : BodyForm row t) : t.ReadTo 2 := by
  cases h with
  | object h => exact Tree.readTo_single "after" (h.readTo hsequence hid)
  | @array row' h =>
    refine Tree.readTo_array fun u hu => ?_
    rw [List.mem_singleton.1 hu]
    exact h.readTo hsequence hid

theorem RecordForm.isSound (h : RecordForm row t) : isSound t = true := by
  cases h with
  | bare h => exact isSound_of_readTo (h.readTo hsequence hid) (by decide)
  | wrapped h =>
    exact isSound_of_readTo (Tree.readTo_single "payload" (h.readTo hsequence hid)) (by decide)

end

/-- What is decoded from an accepted text of a record with a row. -/
theorem Accepted.decode_of_record? {text : String} {t : Tree} (h : Accepted text t) {row : Row}
    (hrecord : record? t = some (some row)) {metadata : Metadata}
    (hmetadata : Metadata.codec.deserialize row.typeName row.metadata = .ok metadata) :
    decode text.toUTF8 = .ok (some ⟨row.typeName, row.globalSequence, row.aggregateGlobalId,
      row.payload, metadata⟩) := by
  unfold decode
  rw [tree?_toUTF8 h.read h.sound]
  dsimp only
  rw [hrecord]
  show (Metadata.codec.deserialize row.typeName row.metadata >>= _) = _
  rw [hmetadata]
  rfl

/-- **Every form is undone.**  Take a text of a row in any of the forms, with any two
integers of 64 bits and with metadata that can be read.  What is decoded from it has the
five values of the row.  The same is decoded from every text in which members stand in
another order or beside unknown ones. -/
theorem decode_form {row : Row} {text : String} {t : Tree} (hread : Tree.read? text = some t)
    (hform : RecordForm row t) (hsequence : isSigned64 row.globalSequence = true)
    (hid : isSigned64 row.aggregateGlobalId = true) {metadata : Metadata}
    (hmetadata : Metadata.codec.deserialize row.typeName row.metadata = .ok metadata) :
    decode text.toUTF8 = .ok (some ⟨row.typeName, row.globalSequence, row.aggregateGlobalId,
        row.payload, metadata⟩) ∧
      ∀ text' t', Accepted text' t' → Relation.EqvGen Noise t t' →
        decode text'.toUTF8 = .ok (some ⟨row.typeName, row.globalSequence, row.aggregateGlobalId,
          row.payload, metadata⟩) := by
  have haccepted : Accepted text t := ⟨hread, hform.isSound hsequence hid⟩
  have hrow := hform.record? hsequence hid
  refine ⟨haccepted.decode_of_record? hrow hmetadata, fun text' t' haccepted' hnoise => ?_⟩
  exact haccepted'.decode_of_record? ((record?_of_noise hnoise).symm.trans hrow) hmetadata

/-- A row with the least and the greatest integer, and with quotes in its texts. -/
def extremeRow : Row :=
  ⟨"Re\"named\\", Int64.minValue.toInt, Int64.maxValue.toInt, "\x7b\"to\":\"\\u00e9\"\x7d",
    "\x7b\x7d"⟩

/-- The row as an array with both integers as texts, in a body that is an array too. -/
def extremeBody : Tree :=
  .array [.array (fieldTrees extremeRow (.text "\t-009223372036854775808\u00a0")
    (.text "+9223372036854775807"))]

/-- The row is found in a wrapper, and beside a schema as well. -/
theorem decode_extremes :
    decode (Tree.ofMembers [("payload", extremeBody)]).render.toUTF8 =
        .ok (some ⟨extremeRow.typeName, -9223372036854775808, 9223372036854775807,
          extremeRow.payload, Dictionary.empty⟩) ∧
      decode (Tree.ofMembers [("schema", .null), ("payload", extremeBody)]).render.toUTF8 =
        .ok (some ⟨extremeRow.typeName, -9223372036854775808, 9223372036854775807,
          extremeRow.payload, Dictionary.empty⟩) := by
  have hblank {c : Char} (hc : Text.isBlank c = true) : ∀ c' ∈ [c], Text.isBlank c' = true :=
    fun _ h => List.mem_singleton.1 h ▸ hc
  have hsequence : IntegerForm extremeRow.globalSequence (.text "\t-009223372036854775808\u00a0") :=
    @IntegerForm.text _ ['\t'] _ ['\u00a0'] (hblank rfl) (.minus 21 (by decide)) (hblank rfl)
  have hid : IntegerForm extremeRow.aggregateGlobalId (.text "+9223372036854775807") :=
    @IntegerForm.text _ [] _ [] nofun (.plus 0 (by decide)) nofun
  have hform : RecordForm extremeRow (.ofMembers [("payload", extremeBody)]) :=
    .wrapped (.array (.array hsequence hid))
  have hmetadata : Metadata.codec.deserialize extremeRow.typeName extremeRow.metadata =
      .ok Dictionary.empty := Codec.deserialize_render Metadata.codec _ (.object [])
  have hschema : Noise (.ofMembers [("payload", extremeBody)])
      (.ofMembers [("schema", .null), ("payload", extremeBody)]) :=
    .bare (.rearranged (.added [] [(some "payload", extremeBody)] .null (by decide)))
  obtain ⟨hplain, hnoisy⟩ :=
    decode_form (Tree.read?_render _) hform (by decide) (by decide) hmetadata
  exact ⟨hplain, hnoisy _ _ ⟨Tree.read?_render _, by decide⟩ (.rel _ _ hschema)⟩

end Envelope

end Chronicle
