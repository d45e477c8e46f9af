/-
Chronicle/Proofs/StoredTypes.lean

The types whose values are stored or streamed, and their texts.

All of their codecs are sound, and refuse at most the cursed text where it is guarded
against.

Main result: `stored_values_round_trip`.
-/
import Chronicle.Proofs.Bench.Codec
import Chronicle.Proofs.Driver.Codec

namespace Chronicle

/-- The types of values that are stored or streamed. -/
inductive StoredType where
  | driver
  | optionalDriver
  | driverView
  | driverRegistered
  | driverNameAmended
  | counter
  | optionalCounter
  | label
  | added
  | noted
  | opened
  deriving DecidableEq, Repr

namespace StoredType

/-- The values of a type. -/
def Value : StoredType → Type
  | driver => Driver
  | optionalDriver => Option Driver
  | driverView => Driver.DriverView
  | driverRegistered => Driver.DriverRegistered
  | driverNameAmended => Driver.DriverNameAmended
  | counter => Bench.Counter
  | optionalCounter => Option Bench.Counter
  | label => Bench.Label
  | added => Bench.Added
  | noted => Bench.Noted
  | opened => Unit

/-- How the values of a type are stored. -/
def codec : (t : StoredType) → Codec t.Value
  | driver => Driver.codec
  | optionalDriver => Driver.codec.optional
  | driverView => Driver.viewCodec
  | driverRegistered => Driver.registeredCodec
  | driverNameAmended => Driver.nameAmendedCodec
  | counter => Bench.counterCodec
  | optionalCounter => Bench.counterCodec.optional
  | label => Bench.labelCodec
  | added => Bench.addedCodec
  | noted => Bench.notedCodec
  | opened => Bench.openedCodec

/-- The values that are refused: those with the cursed text, where it is guarded against. -/
def Refuses : (t : StoredType) → t.Value → Prop
  | label, a => a.text = Bench.cursed
  | noted, a => a.text = Bench.cursed
  | _, _ => False

theorem roundTrips_codec (t : StoredType) : t.codec.RoundTrips := by
  cases t with
  | driver => exact Driver.roundTrips_codec
  | optionalDriver => exact Driver.roundTrips_codec.optional Driver.neverNull_codec
  | driverView => exact Driver.roundTrips_viewCodec
  | driverRegistered => exact Driver.roundTrips_registeredCodec
  | driverNameAmended => exact Driver.roundTrips_nameAmendedCodec
  | counter => exact Bench.roundTrips_counterCodec
  | optionalCounter => exact Bench.roundTrips_counterCodec.optional Bench.neverNull_counterCodec
  | label => exact Bench.roundTrips_labelCodec
  | added => exact Bench.roundTrips_addedCodec
  | noted => exact Bench.roundTrips_notedCodec
  | opened => exact Bench.roundTrips_openedCodec

/-- Whatever is not refused has a tree. -/
theorem exists_tree {t : StoredType} {a : t.Value} (h : ¬t.Refuses a) :
    ∃ tree, t.codec.encode a = .ok tree := by
  cases t with
  | driver => exact ⟨_, Driver.encode_eq a⟩
  | optionalDriver =>
    rcases a with _ | d
    · exact ⟨_, rfl⟩
    · exact ⟨_, Driver.encode_eq d⟩
  | counter => exact ⟨_, Bench.encode_counter a⟩
  | optionalCounter =>
    rcases a with _ | c
    · exact ⟨_, rfl⟩
    · exact ⟨_, Bench.encode_counter c⟩
  | label => exact ⟨_, Bench.encode_guarded_of_ne h _⟩
  | noted => exact ⟨_, Bench.encode_guarded_of_ne h _⟩
  | driverView | driverRegistered | driverNameAmended | added | opened => exact ⟨_, rfl⟩

theorem encode_of_refuses {t : StoredType} {a : t.Value} (h : t.Refuses a) :
    t.codec.encode a = .error "cursed text" := by
  cases t with
  | label => exact Bench.encode_guarded_of_cursed h _
  | noted => exact Bench.encode_guarded_of_cursed h _
  | _ => exact h.elim

/-- **Stored values round-trip.**  For every type and every label:

* every value that is not refused has a text, which is read back as this value;
* a value that is refused is reported as that, with the label;
* whatever text of a value is read, the text that is written for the value is read as the
  same value, and is written again as it is, unless the value is refused. -/
theorem stored_values_round_trip (t : StoredType) (label : String) :
    (∀ a, ¬t.Refuses a → ∃ text, t.codec.serialize label a = .ok text ∧
      t.codec.deserialize label text = .ok a) ∧
    (∀ a, t.Refuses a →
      t.codec.serialize label a = .error (.serialization label (.refused "cursed text"))) ∧
    ∀ text a, t.codec.deserialize label text = .ok a → ¬t.Refuses a →
      ∃ canonical, t.codec.normalize label text = .ok canonical ∧
        t.codec.serialize label a = .ok canonical ∧
        t.codec.deserialize label canonical = .ok a ∧
        t.codec.normalize label canonical = .ok canonical := by
  have hround {a : t.Value} (ha : ¬t.Refuses a) : ∃ text, t.codec.serialize label a = .ok text ∧
      t.codec.deserialize label text = .ok a := by
    obtain ⟨tree, hencode⟩ := exists_tree ha
    exact t.roundTrips_codec.exists_text hencode label
  refine ⟨fun a => hround, fun a ha => Codec.serialize_of_refused (encode_of_refuses ha) label,
    fun text a hread ha => ?_⟩
  obtain ⟨canonical, hwritten, -⟩ := hround ha
  obtain ⟨hnormal, hback, hagain⟩ := t.roundTrips_codec.normalize hread hwritten
  exact ⟨canonical, hnormal, hwritten, hback, hagain⟩

end StoredType

end Chronicle
