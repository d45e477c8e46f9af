/-
Chronicle/Proofs/Driver/Codec.lean

Drivers are read back as they were stored, and so are their views and events.
-/
import Chronicle.Driver.ReadModel
import Chronicle.Proofs.Codec
import Chronicle.Proofs.Json.Fields

namespace Chronicle.Driver

open Json

/-! ### Drivers -/

/-- What is written for a driver. -/
def members (d : Driver) : List (String × Tree) :=
  [("id", .text d.id.toString), ("name", .text d.name),
   ("date_of_birth", (d.dateOfBirth.map fun date => Tree.text date.toString).getD .null)]

/-- The tree of a driver. -/
def tree (d : Driver) : Tree := .ofMembers d.members

theorem encode_eq (d : Driver) : codec.encode d = .ok d.tree := by
  rcases d with ⟨id, name, _ | date⟩
  · rfl
  · rfl

theorem decode_tree (d : Driver) : codec.decode d.tree = some d := by
  have hfields : d.tree.fields? ["id", "name", "date_of_birth"] =
      some (d.members.map fun m => some m.2) :=
    Tree.fields?_self (show ["id", "name", "date_of_birth"].Nodup by decide)
  have hdate : Codec.date.orAbsent
      (some ((d.dateOfBirth.map fun date => Tree.text date.toString).getD .null)) =
        some d.dateOfBirth := by
    rcases d.dateOfBirth with _ | date
    · rfl
    · show (Codec.date.decode (.text date.toString)).map some = _
      rw [Codec.decode_date]
      rfl
  simp only [codec, hfields, members, List.map_cons, List.map_nil, Option.bind_eq_bind,
    Option.bind_some, Codec.required, hdate, Codec.decode_uuid, Codec.decode_text]
  rfl

theorem roundTrips_codec : codec.RoundTrips := Codec.roundTrips_of_tree encode_eq decode_tree

/-- A driver is written as an object. -/
theorem neverNull_codec : codec.NeverNull := by
  intro d h
  rw [encode_eq] at h
  cases h

/-! ### Views and events -/

/-- The fields of a registration, which are also those of a view. -/
theorem fields?_registration (id : Uuid) (name : String) (date : Date) :
    (Tree.ofMembers [("driver_id", .text id.toString), ("name", .text name),
      ("date_of_birth", .text date.toString)]).fields? ["driver_id", "name", "date_of_birth"] =
      some [some (.text id.toString), some (.text name), some (.text date.toString)] :=
  Tree.fields?_self (show ["driver_id", "name", "date_of_birth"].Nodup by decide)

theorem roundTrips_registeredCodec : registeredCodec.RoundTrips := by
  refine Codec.roundTrips_of_tree (fun _ => rfl) fun e => ?_
  simp only [registeredCodec, fields?_registration, Option.bind_eq_bind, Option.bind_some,
    Codec.required, Codec.decode_uuid, Codec.decode_text, Codec.decode_date]
  rfl

theorem roundTrips_viewCodec : viewCodec.RoundTrips := by
  refine Codec.roundTrips_of_tree (fun _ => rfl) fun v => ?_
  simp only [viewCodec, fields?_registration, Option.bind_eq_bind, Option.bind_some,
    Codec.required, Codec.decode_uuid, Codec.decode_text, Codec.decode_date]
  rfl

theorem roundTrips_nameAmendedCodec : nameAmendedCodec.RoundTrips := by
  refine Codec.roundTrips_of_tree (fun _ => rfl) fun e => ?_
  have hfields : (Tree.ofMembers [("driver_id", .text e.driverId.toString),
      ("name", .text e.name)]).fields? ["driver_id", "name"] =
      some [some (.text e.driverId.toString), some (.text e.name)] :=
    Tree.fields?_self (show ["driver_id", "name"].Nodup by decide)
  simp only [nameAmendedCodec, hfields, Option.bind_eq_bind, Option.bind_some, Codec.required,
    Codec.decode_uuid, Codec.decode_text]
  rfl

end Chronicle.Driver
