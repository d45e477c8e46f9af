/-
Chronicle/Proofs/Config.lean

What the variables settle.

A number is read from exactly the texts that denote one up to the limit
(`numberUpTo?_eq_some_iff`): `NumberText` says which texts these are, and for which number
they stand.  A number beyond the limit is none, and does not become a smaller one.

Every field of the settings depends on one variable only (`Config.get_ofLookup`), and no two
fields depend on the same (`Config.Field.key_injective`).

Main result: `Config.settings_of_variables`.
-/
import Chronicle.Config
import Chronicle.Proofs.Text
import Mathlib.Logic.Function.Basic

namespace Chronicle

/-! ### Numbers -/

/-- A run of ASCII digits, at least one, and the number that it denotes: the last digit
counts once, the one in front of it ten times, and so on. -/
structure Decimals (n : Nat) (ds : List Char) : Prop where
  nonempty : ds ≠ []
  ascii : ∀ c ∈ ds, '0' ≤ c ∧ c ≤ '9'
  value : n = Nat.ofDigits 10 (ds.reverse.map fun c => c.toNat - '0'.toNat)

/-- The texts of a number in a variable: its digits, maybe behind zeros, with one plus sign
or none in front of them, and white space around all of it. -/
inductive NumberText (n : Nat) : List Char → Prop
  | mk {before sign ds behind : List Char} : (∀ c ∈ before, Text.isBlank c = true) →
      sign = [] ∨ sign = ['+'] → Decimals n ds → (∀ c ∈ behind, Text.isBlank c = true) →
      NumberText n (before ++ (sign ++ ds) ++ behind)

section

variable {limit n m : Nat} {cs : List Char}

theorem number?_eq_some_iff : Text.number? cs = some n ↔ Decimals n cs := by
  have hdigits : cs.all Text.isDigit = true ↔ ∀ c ∈ cs, '0' ≤ c ∧ c ≤ '9' := by
    rw [List.all_eq_true]
    exact forall₂_congr fun _ _ => Text.isDigit_iff
  rw [Text.number?, Option.ite_none_right_eq_some, hdigits, Text.number_eq_ofDigits,
    Option.some.injEq]
  constructor
  · rintro ⟨⟨hne, hascii⟩, hvalue⟩
    exact ⟨hne, hascii, hvalue.symm⟩
  · intro h
    exact ⟨⟨h.nonempty, h.ascii⟩, h.value.symm⟩

/-- One plus sign is left out at most. -/
theorem exists_sign_append (cs : List Char) :
    ∃ sign, (sign = [] ∨ sign = ['+']) ∧ cs = sign ++ withoutPlus cs := by
  unfold withoutPlus
  split
  · exact ⟨['+'], .inr rfl, rfl⟩
  · exact ⟨[], .inl rfl, rfl⟩

theorem withoutPlus_append {sign : List Char} (hsign : sign = [] ∨ sign = ['+'])
    (h : Decimals n cs) : withoutPlus (sign ++ cs) = cs := by
  rcases hsign with rfl | rfl
  · -- the first digit is no plus sign
    obtain ⟨c, cs, rfl⟩ := List.exists_cons_of_ne_nil h.nonempty
    have hdigit := Text.isDigit_iff.2 (h.ascii c List.mem_cons_self)
    rw [List.nil_append]
    unfold withoutPlus
    split
    · rename_i heq
      exact absurd (List.cons.inj heq).1 (Text.not_mark_of_isDigit hdigit).2.2
    · rfl
  · rfl

/-- Neither the sign nor the digits are white space. -/
theorem Decimals.not_blank (h : Decimals n cs) {sign : List Char}
    (hsign : sign = [] ∨ sign = ['+']) : ∀ c ∈ sign ++ cs, Text.isBlank c = false := by
  have hcs : ∀ c ∈ cs, Text.isBlank c = false := fun c hc =>
    (Text.not_mark_of_isDigit (Text.isDigit_iff.2 (h.ascii c hc))).1
  rcases hsign with rfl | rfl
  · exact hcs
  · exact List.forall_mem_cons.2 ⟨rfl, hcs⟩

/-- **Reading a number** succeeds on its texts, if it is not beyond the limit, and on no
others. -/
theorem numberUpTo?_eq_some_iff {text : String} :
    numberUpTo? limit text = some n ↔ NumberText n text.toList ∧ n ≤ limit := by
  rw [numberUpTo?, Option.filter_eq_some_iff, number?_eq_some_iff, decide_eq_true_eq]
  refine and_congr_left fun _ => ⟨fun h => ?_, fun h => ?_⟩
  · obtain ⟨before, behind, htext, hbefore, hbehind⟩ := Text.exists_append_trimChars text.toList
    obtain ⟨sign, hsign, htrimmed⟩ := exists_sign_append (Text.trimChars text.toList)
    rw [htext, htrimmed]
    exact .mk hbefore hsign h hbehind
  · generalize htext : text.toList = cs at h ⊢
    obtain ⟨hbefore, hsign, hds, hbehind⟩ := h
    rw [Text.trimChars_between hbefore (hds.not_blank hsign)
      (List.append_ne_nil_of_right_ne_nil _ hds.nonempty) hbehind, withoutPlus_append hsign hds]
    exact hds

/-- A text denotes one number at most. -/
theorem NumberText.unique (h : NumberText n cs) (h' : NumberText m cs) : n = m := by
  have hread {k : Nat} (hk : NumberText k cs) (hle : k ≤ max n m) :
      numberUpTo? (max n m) (String.ofList cs) = some k :=
    numberUpTo?_eq_some_iff.2 ⟨by rwa [String.toList_ofList], hle⟩
  exact Option.some.inj ((hread h (Nat.le_max_left n m)).symm.trans
    (hread h' (Nat.le_max_right n m)))

end

/-! ### Numeric settings -/

/-- What a variable makes of a numeric setting: the number that its text denotes, if it
denotes one up to the limit, and otherwise the default. -/
structure Settled (given : Option String) (limit standard value : Nat) : Prop where
  number : ∀ {text n}, given = some text → NumberText n text.toList → n ≤ limit → value = n
  otherwise : (∀ text n, given = some text → NumberText n text.toList → limit < n) →
    value = standard

theorem settled (given : Option String) (limit standard : Nat) :
    Settled given limit standard ((given.bind (numberUpTo? limit)).getD standard) where
  number := by
    rintro text n rfl htext hn
    rw [Option.bind_some, numberUpTo?_eq_some_iff.2 ⟨htext, hn⟩, Option.getD_some]
  otherwise := by
    intro hnone
    -- a number that is read would be one up to the limit
    have hread : given.bind (numberUpTo? limit) = none := by
      rw [Option.eq_none_iff_forall_ne_some]
      intro n hn
      obtain ⟨text, hgiven, hnumber⟩ := Option.bind_eq_some_iff.1 hn
      obtain ⟨htext, hle⟩ := numberUpTo?_eq_some_iff.1 hnumber
      exact absurd (hnone text n hgiven htext) (Nat.not_lt.2 hle)
    rw [hread, Option.getD_none]

namespace Config

/-! ### Brokers -/

/-- Brokers are named by a text with a character in it that is not white space, and their
names are the whole text. -/
theorem brokers_ofLookup {lookup : String → Option String} {text : String} :
    (ofLookup lookup).brokers = some text ↔
      lookup "KAFKA_BROKERS" = some text ∧ ∃ c ∈ text.toList, Text.isBlank c = false := by
  show (lookup "KAFKA_BROKERS").filter (fun text => !Text.isAllBlank text) = some text ↔ _
  rw [Option.filter_eq_some_iff, Bool.not_eq_true', Text.isAllBlank, List.all_eq_false]
  simp only [Bool.not_eq_true]

/-! ### Fields -/

/-- The fields of the settings. -/
inductive Field
  | databaseUrl
  | databaseMaxConnections
  | brokers
  | eventTopic
  | consumerGroupPrefix
  | pollTimeout
  | maxPollRecords
  | backoff

namespace Field

/-- The variable of a field. -/
def key : Field → String
  | databaseUrl => "DATABASE_URL"
  | databaseMaxConnections => "DATABASE_MAX_CONNECTIONS"
  | brokers => "KAFKA_BROKERS"
  | eventTopic => "EVENT_TOPIC"
  | consumerGroupPrefix => "CONSUMER_GROUP_PREFIX"
  | pollTimeout => "STREAM_POLL_TIMEOUT_MS"
  | maxPollRecords => "STREAM_MAX_POLL_RECORDS"
  | backoff => "STREAM_BACKOFF_MS"

/-- The values of a field. -/
def Value : Field → Type
  | databaseUrl | eventTopic | consumerGroupPrefix => String
  | databaseMaxConnections | pollTimeout | maxPollRecords | backoff => Nat
  | brokers => Option String

/-- Each field has a variable of its own. -/
theorem key_injective : Function.Injective key := by
  intro f g
  cases f <;> cases g <;> simp [key]

end Field

/-- The value of a field. -/
def get (c : Config) : (f : Field) → f.Value
  | .databaseUrl => c.databaseUrl
  | .databaseMaxConnections => c.databaseMaxConnections
  | .brokers => c.brokers
  | .eventTopic => c.eventTopic
  | .consumerGroupPrefix => c.consumerGroupPrefix
  | .pollTimeout => c.stream.pollTimeout
  | .maxPollRecords => c.stream.maxPollRecords
  | .backoff => c.stream.backoff

/-- There are no other fields. -/
theorem ext_get {c c' : Config} (h : ∀ f, c.get f = c'.get f) : c = c' := by
  obtain ⟨url, connections, brokers, topic, groupPrefix, timeout, records, backoff⟩ := c
  obtain ⟨url', connections', brokers', topic', groupPrefix', timeout', records', backoff'⟩ := c'
  cases h .databaseUrl
  cases h .databaseMaxConnections
  cases h .brokers
  cases h .eventTopic
  cases h .consumerGroupPrefix
  cases h .pollTimeout
  cases h .maxPollRecords
  cases h .backoff
  rfl

/-- A field is as it would be if all variables were set like its own. -/
theorem get_ofLookup (lookup : String → Option String) (f : Field) :
    (ofLookup lookup).get f = (ofLookup fun _ => lookup f.key).get f := by
  cases f with
  | databaseUrl => rfl
  | databaseMaxConnections => rfl
  | brokers => rfl
  | eventTopic => rfl
  | consumerGroupPrefix => rfl
  | pollTimeout => rfl
  | maxPollRecords => rfl
  | backoff => rfl

theorem get_update_of_ne {f : Field} {key : String} (h : f.key ≠ key)
    (lookup : String → Option String) (given : Option String) :
    (ofLookup (Function.update lookup key given)).get f = (ofLookup lookup).get f := by
  rw [get_ofLookup, get_ofLookup lookup, Function.update_of_ne h]

/-- A variable of no field changes nothing. -/
theorem ofLookup_update_of_ne {key : String} (h : ∀ f : Field, f.key ≠ key)
    (lookup : String → Option String) (given : Option String) :
    ofLookup (Function.update lookup key given) = ofLookup lookup :=
  ext_get fun f => get_update_of_ne (h f) lookup given

/-! ### All settings -/

/-- What variables settle.  The greatest number of connections is that of 32 bits, and
everywhere else it is that of 64 bits; a batch is raised to one record. -/
structure SettledBy (lookup : String → Option String) (c : Config) : Prop where
  connections : Settled (lookup "DATABASE_MAX_CONNECTIONS") (2 ^ 32 - 1) 5
    c.databaseMaxConnections
  pollTimeout : Settled (lookup "STREAM_POLL_TIMEOUT_MS") (2 ^ 64 - 1) 1000 c.stream.pollTimeout
  maxPollRecords : ∃ n, Settled (lookup "STREAM_MAX_POLL_RECORDS") (2 ^ 64 - 1) 50 n ∧
    c.stream.maxPollRecords = max 1 n
  backoff : Settled (lookup "STREAM_BACKOFF_MS") (2 ^ 64 - 1) 1000 c.stream.backoff
  streamEnabled : c.streamEnabled = true ↔
    ∃ text, lookup "KAFKA_BROKERS" = some text ∧ ∃ ch ∈ text.toList, Text.isBlank ch = false
  brokers : ∀ text, c.brokers = some text ↔
    lookup "KAFKA_BROKERS" = some text ∧ ∃ ch ∈ text.toList, Text.isBlank ch = false

theorem settledBy_ofLookup (lookup : String → Option String) :
    SettledBy lookup (ofLookup lookup) where
  connections := settled _ _ _
  pollTimeout := settled _ _ _
  maxPollRecords := ⟨_, settled _ _ _, rfl⟩
  backoff := settled _ _ _
  streamEnabled := by
    rw [streamEnabled, Option.isSome_iff_exists]
    exact exists_congr fun _ => brokers_ofLookup
  brokers := fun _ => brokers_ofLookup

/-- **Settings of variables.**  Whatever the variables are,

* a numeric setting is the number that the text of its variable denotes, if that is not
  beyond the limit, and otherwise its default, and batches are raised to one record;
* streaming is enabled if and only if brokers are named by a text that is not white space
  only, and their names are that text as it stands;
* every field has a variable of its own: if another one is set, removed or changed, the
  field stays, and a variable of no field changes nothing. -/
theorem settings_of_variables (lookup : String → Option String) :
    SettledBy lookup (ofLookup lookup) ∧ Function.Injective Field.key ∧
      ∀ (key : String) (given : Option String),
        (∀ f : Field, f.key ≠ key →
          (ofLookup (Function.update lookup key given)).get f = (ofLookup lookup).get f) ∧
        ((∀ f : Field, f.key ≠ key) →
          ofLookup (Function.update lookup key given) = ofLookup lookup) := by
  refine ⟨settledBy_ofLookup lookup, Field.key_injective, fun key given => ⟨?_, ?_⟩⟩
  · intro f hf
    exact get_update_of_ne hf lookup given
  · intro hkey
    exact ofLookup_update_of_ne hkey lookup given

/-- Variables with one connection more than 32 bits can count, no record in a batch, and a
sign, zeros and white space in other places. -/
def oddVariables : String → Option String
  | "DATABASE_MAX_CONNECTIONS" => some "4294967296"
  | "KAFKA_BROKERS" => some " kafka:9092\t"
  | "STREAM_MAX_POLL_RECORDS" => some "0"
  | "STREAM_BACKOFF_MS" => some "\u2003+00250\n"
  | _ => none

/-- The default stands for the connections, the batch has one record, and the brokers keep
the white space around them. -/
theorem oddVariables_settle :
    let c := ofLookup oddVariables
    c.databaseMaxConnections = 5 ∧ c.stream.backoff = 250 ∧ c.stream.maxPollRecords = 1 ∧
      c.brokers = some " kafka:9092\t" ∧ c.streamEnabled = true ∧
      (ofLookup (Function.update oddVariables "STREAM_BACKOFF_MS" none)).databaseMaxConnections =
        5 := by
  intro c
  obtain ⟨hsettled, -, hothers⟩ := settings_of_variables oddVariables
  have hkafka : ∃ ch ∈ " kafka:9092\t".toList, Text.isBlank ch = false := ⟨'k', by decide⟩
  have hfive : c.databaseMaxConnections = 5 := by
    refine hsettled.connections.otherwise ?_
    rintro text n ⟨⟩ htext
    -- the text denotes no other number than the one that is too great
    have hgreat : numberUpTo? (2 ^ 32) "4294967296" = some (2 ^ 32) := by decide +kernel
    rw [htext.unique (numberUpTo?_eq_some_iff.1 hgreat).1]
    decide
  refine ⟨hfive, ?_, ?_, (hsettled.brokers _).2 ⟨rfl, hkafka⟩,
    hsettled.streamEnabled.2 ⟨_, rfl, hkafka⟩, ?_⟩
  · have hread : numberUpTo? (2 ^ 64 - 1) "\u2003+00250\n" = some 250 := by decide +kernel
    obtain ⟨htext, hlimit⟩ := numberUpTo?_eq_some_iff.1 hread
    exact hsettled.backoff.number rfl htext hlimit
  · have hread : numberUpTo? (2 ^ 64 - 1) "0" = some 0 := by decide +kernel
    obtain ⟨htext, hlimit⟩ := numberUpTo?_eq_some_iff.1 hread
    obtain ⟨n, hbatch, hrecords⟩ := hsettled.maxPollRecords
    obtain rfl : n = 0 := hbatch.number rfl htext hlimit
    exact hrecords
  · exact ((hothers "STREAM_BACKOFF_MS" none).1 .databaseMaxConnections (by decide)).trans hfive

end Config

end Chronicle
