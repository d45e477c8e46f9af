/-
Chronicle/Proofs/Stream/Noise.lean

What converters may change in a change record without a consequence.

On each of three levels a few names count: in the record `payload` and `after`, in the
body of a wrapper `after`, and in the row its fields.  Members of other names may come
and go, and all members may be put in another order (`Rearranged`).  A body that is
not a wrapper itself may be put into one.  `Noise` lists these changes.

The shape of a record is tried twice, in a wrapper first.  Each lemma is about an
equality of what one attempt gives, so it holds as well where an attempt fails.

Main result: what is decoded is the same, errors included (`noise_is_ignored`).
-/
import Chronicle.Proofs.Json.Fields
import Chronicle.Proofs.Stream.ChangeRecord
import Mathlib.Logic.Relation

namespace Chronicle.Envelope

open Json

/-! ### Changes -/

/-- One change to an object in which members of some names count. -/
inductive Rearranged (names : List String) : Tree → Tree → Prop
  | reordered {members members' : List (Literal × Tree)} : members.Perm members' →
      Rearranged names (.object members) (.object members')
  | added (xs ys : List (Literal × Tree)) {name : String} (t : Tree) : name ∉ names →
      Rearranged names (.object (xs ++ ys)) (.object (xs ++ (some name, t) :: ys))

/-- One change to a body in which members of some names count, or to its row. -/
inductive BodyNoise (names : List String) : Tree → Tree → Prop
  | rearranged {t t' : Tree} : Rearranged names t t' → BodyNoise names t t'
  | row (xs ys : List (Literal × Tree)) {t t' : Tree} : Rearranged rowFields t t' →
      BodyNoise names (.object (xs ++ (some "after", t) :: ys))
        (.object (xs ++ (some "after", t') :: ys))
  | item {t t' : Tree} : Rearranged rowFields t t' → BodyNoise names (.array [t]) (.array [t'])

/-- One change to a change record.  A record that is no wrapper is a body. -/
inductive Noise : Tree → Tree → Prop
  | bare {t t' : Tree} : BodyNoise ["payload", "after"] t t' → Noise t t'
  | payload (xs ys : List (Literal × Tree)) {t t' : Tree} : BodyNoise ["after"] t t' →
      Noise (.object (xs ++ (some "payload", t) :: ys)) (.object (xs ++ (some "payload", t') :: ys))
  | wrapped {t : Tree} :
      (∀ members, t = .object members → ∀ m ∈ members, m.1 ≠ some "payload") →
      Noise t (.object [(some "payload", t)])

/-! ### Rows and bodies -/

section

variable {names : List String} {t t' : Tree}

/-- The fields stay as they are, as long as their names count. -/
theorem Rearranged.fields? (h : Rearranged names t t') {names' : List String}
    (hnames : names' ⊆ names) : t.fields? names' = t'.fields? names' := by
  cases h with
  | reordered hperm => exact Tree.fields?_perm hperm names'
  | added xs ys t hname =>
    exact (Tree.fields?_other (fun hmem => hname (hnames hmem)) t xs ys).symm

theorem Rearranged.field? (h : Rearranged names t t') {name : String} (hname : name ∈ names) :
    t.fields? [name] = t'.fields? [name] :=
  h.fields? fun _ hn => List.mem_singleton.1 hn ▸ hname

theorem Rearranged.row? (h : Rearranged rowFields t t') : row? t = row? t' := by
  unfold Envelope.row?
  rw [h.fields? (List.Subset.refl _)]

/-- A row that is changed was an object and is one, so it is not null. -/
theorem Rearranged.ne_null (h : Rearranged names t t') : t ≠ .null ∧ t' ≠ .null := by
  cases h with
  | reordered => exact ⟨nofun, nofun⟩
  | added => exact ⟨nofun, nofun⟩

/-- The body of something with one field. -/
theorem body?_of_fields? {row : Tree} (h : t.fields? ["after"] = some [some row])
    (hnull : row ≠ .null) : body? t = (row? row).map some := by
  unfold body?
  rw [h, Option.bind_eq_bind, Option.bind_some]
  split
  · rename_i heq
    cases heq
    exact absurd rfl hnull
  · rename_i heq
    cases heq
    exact Option.map_eq_bind.symm
  · rename_i hother
    exact absurd rfl (hother row)

theorem body?_of_fields?_eq_none (h : t.fields? ["after"] = none) : body? t = none := by
  unfold body?
  rw [h]
  rfl

theorem BodyNoise.body? (h : BodyNoise names t t') (hnames : "after" ∈ names) :
    body? t = body? t' := by
  cases h with
  | rearranged h =>
    unfold Envelope.body?
    rw [h.field? hnames]
  | @row xs ys row row' h =>
    -- the member is the one field before and after, or it is not
    obtain ⟨hnull, hnull'⟩ := h.ne_null
    rcases Tree.fields?_only "after" xs ys with hnone | hone
    · rw [body?_of_fields?_eq_none (hnone row), body?_of_fields?_eq_none (hnone row')]
    · rw [body?_of_fields? (hone row) hnull, body?_of_fields? (hone row') hnull', h.row?]
  | @item row row' h =>
    obtain ⟨hnull, hnull'⟩ := h.ne_null
    rw [body?_of_fields? rfl hnull, body?_of_fields? rfl hnull', h.row?]

/-! ### Wrappers -/

/-- What is in a wrapper, by the field that holds it. -/
theorem wrapped?_object (members : List (Literal × Tree)) :
    wrapped? (.object members) = ((Tree.object members).fields? ["payload"]).bind fun
      | [some t] => Envelope.body? t
      | _ => none := rfl

theorem BodyNoise.wrapped? (h : BodyNoise names t t') (hnames : "payload" ∈ names) :
    wrapped? t = wrapped? t' := by
  cases h with
  | rearranged h =>
    have hfields := h.field? hnames
    -- only an object may be a wrapper, and both are objects
    cases h with
    | reordered => rw [wrapped?_object, wrapped?_object, hfields]
    | added => rw [wrapped?_object, wrapped?_object, hfields]
  | @row xs ys row row' h =>
    have hafter : "after" ∉ ["payload"] := by decide
    rw [wrapped?_object, wrapped?_object, Tree.fields?_other hafter, Tree.fields?_other hafter]
  | item => rfl

/-- Something without a payload is no wrapper. -/
theorem wrapped?_eq_none
    (h : ∀ members, t = .object members → ∀ m ∈ members, m.1 ≠ some "payload") :
    Envelope.wrapped? t = none := by
  cases t with
  | object members =>
    have hnil : Tree.valuesOf "payload" members = [] := by
      rw [Tree.valuesOf, List.map_eq_nil_iff, List.filter_eq_nil_iff]
      intro m hm heq
      exact h members rfl m hm (beq_iff_eq.1 heq)
    rw [wrapped?_object, Tree.fields?_object]
    split
    · simp only [List.map_cons, List.map_nil, hnil]
      rfl
    · rfl
  | _ => rfl

/-! ### Records -/

theorem Noise.record? (h : Noise t t') : record? t = record? t' := by
  unfold Envelope.record?
  cases h with
  | bare h =>
    rw [h.wrapped? List.mem_cons_self, h.body? (List.mem_cons_of_mem _ List.mem_cons_self)]
  | @payload xs ys body body' h =>
    have hpayload : "payload" ∉ ["after"] := by decide
    -- beside the payload the wrapper is the same body
    have hbody : Envelope.body? (.object (xs ++ (some "payload", body) :: ys)) =
        Envelope.body? (.object (xs ++ (some "payload", body') :: ys)) := by
      unfold Envelope.body?
      rw [Tree.fields?_other hpayload, Tree.fields?_other hpayload]
    rw [hbody, wrapped?_object, wrapped?_object]
    rcases Tree.fields?_only "payload" xs ys with hnone | hone
    · rw [hnone, hnone]
    · rw [hone, hone]
      show (Envelope.body? body).or _ = (Envelope.body? body').or _
      rw [h.body? List.mem_cons_self]
  | wrapped h =>
    -- a wrapper has no field of a body
    have hwrapper : Envelope.body? (.object [(some "payload", t)]) = none := rfl
    have hwrapped : Envelope.wrapped? (.object [(some "payload", t)]) = Envelope.body? t := rfl
    rw [wrapped?_eq_none h, hwrapper, hwrapped, Option.none_or, Option.or_none]

/-- Any number of changes, made or taken back. -/
theorem record?_of_noise (h : Relation.EqvGen Noise t t') : record? t = record? t' := by
  induction h with
  | rel _ _ h => exact h.record?
  | refl => rfl
  | symm _ _ _ ih => exact ih.symm
  | trans _ _ _ _ _ ih ih' => exact ih.trans ih'

end

/-! ### Texts -/

/-- A text that is accepted as JSON, and its tree: its literals stand for texts, its
numerals for numbers, and it is not nested too deeply. -/
structure Accepted (text : String) (t : Tree) : Prop where
  read : Tree.read? text = some t
  sound : isSound t = true

/-- What is decoded from an accepted text is up to the record that its tree describes. -/
theorem Accepted.decode_congr {text text' : String} {t t' : Tree} (h : Accepted text t)
    (h' : Accepted text' t') (hrecord : record? t = record? t') :
    decode text.toUTF8 = decode text'.toUTF8 := by
  unfold decode
  rw [tree?_toUTF8 h.read h.sound, tree?_toUTF8 h'.read h'.sound]
  dsimp only
  rw [hrecord]

/-- **Noise is ignored.**  Take two texts that are accepted, one of which comes from
the other by changes that converters make, any number of them and in any direction.
What is decoded from both is the same: an event, none, or an error. -/
theorem noise_is_ignored {text text' : String} {t t' : Tree} (h : Accepted text t)
    (h' : Accepted text' t') (hnoise : Relation.EqvGen Noise t t') :
    decode text.toUTF8 = decode text'.toUTF8 :=
  h.decode_congr h' (record?_of_noise hnoise)

/-- A row as an array. -/
def switchedRow : Tree :=
  .array [.text "Switched", .text " +07", .int 3, .text "\x7b\x7d", .text "\x7b\x7d"]

/-- A record with a wrapper whose body is broken, as `after` is in it twice, and with
the row beside it. -/
def brokenWrapper : Tree :=
  .ofMembers [("payload", .ofMembers [("after", .null), ("after", .null)]), ("after", switchedRow)]

/-- The same with more members, in another order. -/
def noisyWrapper : Tree :=
  .ofMembers [("op", .text "c"), ("after", switchedRow), ("op", .array [.null]),
    ("payload", .ofMembers [("after", .null), ("payload", .null), ("after", .null)])]

/-- The row beside the broken wrapper is found in both. -/
theorem noise_around_broken_wrapper :
    decode brokenWrapper.render.toUTF8 = decode noisyWrapper.render.toUTF8 ∧
      record? noisyWrapper = some (some ⟨"Switched", 7, 3, "\x7b\x7d", "\x7b\x7d"⟩) := by
  let row : Literal × Tree := (some "after", switchedRow)
  let wrapper : Literal × Tree :=
    (some "payload", .ofMembers [("after", .null), ("payload", .null), ("after", .null)])
  have hbody : Noise brokenWrapper (.object [wrapper, row]) :=
    .payload [] [row] (.rearranged (.added [(some "after", .null)] [(some "after", .null)] .null
      (by decide)))
  have hswap : Noise (.object [wrapper, row]) (.object [row, wrapper]) :=
    .bare (.rearranged (.reordered (.swap row wrapper [])))
  have hbetween : Noise (.object [row, wrapper])
      (.object [row, (some "op", .array [.null]), wrapper]) :=
    .bare (.rearranged (.added [row] [wrapper] _ (by decide)))
  have hfront : Noise (.object [row, (some "op", .array [.null]), wrapper]) noisyWrapper :=
    .bare (.rearranged (.added [] [row, _, wrapper] _ (by decide)))
  have hnoise : Relation.EqvGen Noise brokenWrapper noisyWrapper :=
    .trans _ _ _ (.rel _ _ hbody) (.trans _ _ _ (.rel _ _ hswap)
      (.trans _ _ _ (.rel _ _ hbetween) (.rel _ _ hfront)))
  exact ⟨noise_is_ignored ⟨Tree.read?_render _, by decide⟩ ⟨Tree.read?_render _, by decide⟩ hnoise,
    by decide⟩

end Chronicle.Envelope
