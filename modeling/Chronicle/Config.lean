/-
Chronicle/Config.lean

Settings, each read from one named variable.  A text that is no number in range
leaves the default.
-/
import Chronicle.Text.Blank
import Chronicle.Text.Digits

namespace Chronicle

/-- How stream workers poll.  Times are in milliseconds. -/
structure StreamConfig where
  pollTimeout : Nat
  maxPollRecords : Nat
  backoff : Nat
  deriving DecidableEq, Repr

namespace StreamConfig

/-- The defaults. -/
def standard : StreamConfig := ⟨1000, 50, 1000⟩

/-- The digits behind a decimal point, without the zeros at the end. -/
def decimals (milliseconds : Nat) : List Char :=
  let ds := [milliseconds / 100, milliseconds / 10 % 10, milliseconds % 10]
  ((ds.reverse.dropWhile (· == 0)).reverse).map Nat.digitChar

/-- A time in its largest fitting unit. -/
def describeTime (milliseconds : Nat) : String :=
  if milliseconds = 0 then "0ns"
  else if milliseconds < 1000 then s!"{milliseconds}ms"
  else
    let rest := decimals (milliseconds % 1000)
    let point := if rest.isEmpty then "" else "."
    s!"{milliseconds / 1000}{point}{String.ofList rest}s"

end StreamConfig

/-- The settings of an engine. -/
structure Config where
  databaseUrl : String
  databaseMaxConnections : Nat
  brokers : Option String
  eventTopic : String
  consumerGroupPrefix : String
  stream : StreamConfig
  deriving DecidableEq, Repr

/-! ### Reading -/

/-- The characters behind an optional plus sign. -/
def withoutPlus : List Char → List Char
  | '+' :: cs => cs
  | cs => cs

/-- The number of a text: white space around an optional plus sign and ASCII
digits, at most `limit`. -/
def numberUpTo? (limit : Nat) (text : String) : Option Nat :=
  (Text.number? (withoutPlus (Text.trimChars text.toList))).filter (· ≤ limit)

namespace Config

/-- The greatest number of 32 bits. -/
def max32 : Nat := 0xffffffff

/-- The greatest number of 64 bits. -/
def max64 : Nat := 0xffffffffffffffff

/-- The settings that the variables give. -/
def ofLookup (lookup : String → Option String) : Config where
  databaseUrl := (lookup "DATABASE_URL").getD "sqlite::memory:"
  databaseMaxConnections := ((lookup "DATABASE_MAX_CONNECTIONS").bind (numberUpTo? max32)).getD 5
  brokers := (lookup "KAFKA_BROKERS").filter fun text => !Text.isAllBlank text
  eventTopic := (lookup "EVENT_TOPIC").getD "dbserver1.public.event"
  consumerGroupPrefix := (lookup "CONSUMER_GROUP_PREFIX").getD "ddd-engine"
  stream :=
    { pollTimeout := ((lookup "STREAM_POLL_TIMEOUT_MS").bind (numberUpTo? max64)).getD
        StreamConfig.standard.pollTimeout
      maxPollRecords := max 1 (((lookup "STREAM_MAX_POLL_RECORDS").bind (numberUpTo? max64)).getD
        StreamConfig.standard.maxPollRecords)
      backoff := ((lookup "STREAM_BACKOFF_MS").bind (numberUpTo? max64)).getD
        StreamConfig.standard.backoff }

/-- Whether a broker is named, so that events can be streamed. -/
def streamEnabled (c : Config) : Bool := c.brokers.isSome

end Config

end Chronicle
