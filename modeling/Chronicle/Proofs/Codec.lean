/-
Chronicle/Proofs/Codec.lean

Sound codecs, and what they make of texts.

What a sound codec writes for a value is read back as the value.  So whatever text of a
value it reads, what it writes for the value is canonical: it is read as the same value, and
is written again as it is (`Codec.RoundTrips.normalize`).

The codecs of texts, integers, identifiers and dates are sound; lists and optional values
have a sound codec if their items have one.
-/
import Chronicle.Proofs.Date
import Chronicle.Proofs.Json.Values
import Chronicle.Proofs.Uuid

namespace Chronicle

open Json

namespace Codec

variable {α : Type} {c : Codec α}

/-! ### Texts of values -/

/-- A value that is refused is refused with the reason and the name of its type. -/
theorem serialize_of_refused {a : α} {reason : String} (h : c.encode a = .error reason)
    (label : String) : c.serialize label a = .error (.serialization label (.refused reason)) := by
  rw [serialize, h]

/-- The text of a value, which is read back as it. -/
theorem RoundTrips.exists_text (hc : c.RoundTrips) {a : α} {t : Tree} (h : c.encode a = .ok t)
    (label : String) :
    ∃ text, c.serialize label a = .ok text ∧ c.deserialize label text = .ok a := by
  have hwritten : c.serialize label a = .ok t.render := serialize_eq_ok.2 ⟨t, h, rfl⟩
  exact ⟨t.render, hwritten, hc.deserialize hwritten⟩

theorem normalize_of_deserialize {label text : String} {a : α}
    (h : c.deserialize label text = .ok a) : c.normalize label text = c.serialize label a := by
  rw [normalize, h]
  rfl

/-- The text that is written for a value is the canonical one of all texts of the value. -/
theorem RoundTrips.normalize (hc : c.RoundTrips) {label text canonical : String} {a : α}
    (hread : c.deserialize label text = .ok a) (hwritten : c.serialize label a = .ok canonical) :
    c.normalize label text = .ok canonical ∧ c.deserialize label canonical = .ok a ∧
      c.normalize label canonical = .ok canonical := by
  have hback := hc.deserialize hwritten
  exact ⟨(normalize_of_deserialize hread).trans hwritten, hback,
    (normalize_of_deserialize hback).trans hwritten⟩

/-! ### Single values -/

/-- A codec that refuses nothing, and reads the tree that it writes for a value. -/
theorem roundTrips_of_tree {tree : α → Tree} (hencode : ∀ a, c.encode a = .ok (tree a))
    (hdecode : ∀ a, c.decode (tree a) = some a) : c.RoundTrips := by
  intro a t h
  rw [hencode] at h
  cases h
  exact hdecode a

theorem decode_text (s : String) : text.decode (.text s) = some s := rfl

theorem decode_uuid (id : Uuid) : uuid.decode (.text id.toString) = some id := by
  simp only [uuid, Tree.text, Option.bind_some, id.parse?_toString]

theorem decode_date (d : Date) : date.decode (.text d.toString) = some d := by
  simp only [date, Tree.text, Option.bind_some, d.parse?_toString]

theorem decode_int64 (n : Int64) : int64.decode (.int n.toInt) = some n := by
  have hsigned : isSigned64 n.toInt = true := by
    rw [isSigned64, Bool.and_eq_true, decide_eq_true_iff, decide_eq_true_iff]
    exact ⟨Int64.le_toInt n, Int64.toInt_le n⟩
  simp only [int64, Tree.int, number?_ofInt (exact_of_isSigned64 hsigned), hsigned, if_true,
    Int64.ofInt_toInt]

theorem roundTrips_text : text.RoundTrips := roundTrips_of_tree (fun _ => rfl) decode_text

/-! ### Lists and optional values -/

/-- Items are read back one by one. -/
theorem RoundTrips.mapM (hc : c.RoundTrips) : ∀ {as : List α} {ts : List Tree},
    as.mapM c.encode = .ok ts → ts.mapM c.decode = some as
  | [], ts, h => by
    cases h
    rfl
  | a :: as, ts, h => by
    rw [List.mapM_cons] at h
    rcases hencode : c.encode a with reason | t
    · rw [hencode] at h
      cases h
    · rcases hrest : as.mapM c.encode with reason | ts'
      · rw [hencode, hrest] at h
        cases h
      · rw [hencode, hrest] at h
        cases h
        rw [List.mapM_cons, hc a t hencode, RoundTrips.mapM hc hrest]
        rfl

theorem RoundTrips.list (hc : c.RoundTrips) : (list c).RoundTrips := by
  intro as t h
  have h : (as.mapM c.encode).map Tree.array = .ok t := h
  rcases hencode : as.mapM c.encode with reason | ts
  · rw [hencode] at h
    cases h
  · rw [hencode] at h
    cases h
    exact hc.mapM hencode

/-- A present value is told from an absent one if no value is written as null. -/
theorem RoundTrips.optional (hc : c.RoundTrips) (hnull : c.NeverNull) : c.optional.RoundTrips := by
  intro o t h
  rcases o with _ | a
  · cases h
    rfl
  · have hdecode : c.decode t = some a := hc a t h
    cases t with
    | null => exact absurd h (hnull a)
    | _ =>
      show (c.decode _).map some = _
      rw [hdecode]
      rfl

end Codec

end Chronicle
