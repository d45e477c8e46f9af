/-
Chronicle/Proofs/Bench/Codec.lean

Counters, labels and their events are read back as they were stored.  What is not stored at
all is the cursed text, where it is guarded against.
-/
import Chronicle.Bench.Vocabulary
import Chronicle.Proofs.Codec
import Chronicle.Proofs.Json.Fields

namespace Chronicle.Bench

open Json

variable {α : Type}

/-! ### Records of one field -/

theorem onlyField_ofMembers (name : String) (c : Codec α) (t : Tree) :
    onlyField name c (.ofMembers [(name, t)]) = c.decode t := by
  simp only [onlyField, Tree.fields?_single, Option.bind_eq_bind, Option.bind_some, Codec.required]

theorem roundTrips_integerRecord (name : String) {get : α → Int64} {make : Int64 → α}
    (h : ∀ a, make (get a) = a) : (integerRecord name get make).RoundTrips := by
  refine Codec.roundTrips_of_tree (fun _ => rfl) fun a => ?_
  simp only [integerRecord, onlyField_ofMembers, Codec.decode_int64, Option.map_some, h]

theorem roundTrips_textRecord (name : String) {get : α → String} {make : String → α}
    (h : ∀ a, make (get a) = a) : (textRecord name get make).RoundTrips := by
  refine Codec.roundTrips_of_tree (fun _ => rfl) fun a => ?_
  simp only [textRecord, onlyField_ofMembers, Codec.decode_text, Option.map_some, h]

/-! ### Guarded records -/

theorem encode_guarded_of_cursed {get : α → String} {a : α} (h : get a = cursed) (c : Codec α) :
    (guarded get c).encode a = .error "cursed text" :=
  if_pos h

theorem encode_guarded_of_ne {get : α → String} {a : α} (h : get a ≠ cursed) (c : Codec α) :
    (guarded get c).encode a = c.encode a :=
  if_neg h

/-- A guard refuses some values, and leaves all others as they are. -/
theorem roundTrips_guarded (get : α → String) {c : Codec α} (hc : c.RoundTrips) :
    (guarded get c).RoundTrips := by
  intro a t h
  by_cases hcursed : get a = cursed
  · rw [encode_guarded_of_cursed hcursed] at h
    cases h
  · rw [encode_guarded_of_ne hcursed] at h
    exact hc a t h

theorem roundTrips_labelCodec : labelCodec.RoundTrips :=
  roundTrips_guarded _ (roundTrips_textRecord "text" fun _ => rfl)

/-- A label is written as an object, if at all. -/
theorem neverNull_labelCodec : labelCodec.NeverNull := by
  intro a h
  by_cases hcursed : a.text = cursed
  · rw [labelCodec, encode_guarded_of_cursed hcursed] at h
    cases h
  · rw [labelCodec, encode_guarded_of_ne hcursed] at h
    cases h

theorem roundTrips_notedCodec : notedCodec.RoundTrips :=
  roundTrips_guarded _ (roundTrips_textRecord "text" fun _ => rfl)

theorem roundTrips_addedCodec : addedCodec.RoundTrips :=
  roundTrips_integerRecord "amount" fun _ => rfl

theorem roundTrips_openedCodec : openedCodec.RoundTrips :=
  Codec.roundTrips_of_tree (fun _ => rfl) fun _ => rfl

/-! ### Counters -/

theorem encode_texts (texts : List String) :
    (Codec.list Codec.text).encode texts = .ok (.array (texts.map .text)) := by
  have hitems : texts.mapM Codec.text.encode = .ok (texts.map .text) := by
    induction texts with
    | nil => rfl
    | cons s rest ih =>
      rw [List.mapM_cons, ih]
      rfl
  show (texts.mapM Codec.text.encode).map Tree.array = _
  rw [hitems]
  rfl

/-- The tree of a counter. -/
def Counter.tree (c : Counter) : Tree :=
  .ofMembers [("value", .int c.value.toInt), ("notes", .array (c.notes.map .text))]

theorem encode_counter (c : Counter) : counterCodec.encode c = .ok c.tree := by
  simp only [counterCodec, encode_texts]
  rfl

theorem roundTrips_counterCodec : counterCodec.RoundTrips := by
  refine Codec.roundTrips_of_tree encode_counter fun c => ?_
  have hfields : c.tree.fields? ["value", "notes"] =
      some [some (.int c.value.toInt), some (.array (c.notes.map .text))] :=
    Tree.fields?_self (show ["value", "notes"].Nodup by decide)
  have hnotes := Codec.roundTrips_text.list c.notes _ (encode_texts c.notes)
  simp only [counterCodec, hfields, Option.bind_eq_bind, Option.bind_some, Codec.required,
    Codec.decode_int64, hnotes]
  rfl

/-- A counter is written as an object. -/
theorem neverNull_counterCodec : counterCodec.NeverNull := by
  intro c h
  rw [encode_counter] at h
  cases h

end Chronicle.Bench
