/-
Chronicle/Metrics/Exposition.lean

Metrics as text: for each family a line with its help, a line with its type, and
a line for every value.  Families are in the order of their names and values in
the order of their label values.  A family with labels appears once it has a
value.
-/
import Chronicle.Decimal.Notation
import Chronicle.Metrics

namespace Chronicle

/-! ### Parts of a line -/

/-- A double in positional notation with the fewest digits, and without a point
when it is whole.  Of two equally near decimals the greater one stands for it. -/
def doubleText (x : Float) : String :=
  let sign (negative : Bool) := if negative then "-" else ""
  match Decimal.parts x with
  | .zero negative => sign negative ++ "0"
  | .finite negative b =>
    let p := (b.shortest .away).positional
    let fraction := p.fraction.map fun d => Nat.digitChar d.val
    let point := if fraction.isEmpty then "" else "."
    s!"{sign negative}{p.whole}{point}{String.ofList fraction}"
  | .infinite negative => sign negative ++ "inf"
  | .nan => "NaN"

/-- An integer as the double that holds it. -/
def integerText (n : Int) : String := doubleText (Float.ofInt n)

/-- How a character is written in a label value. -/
def escapeLabel (c : Char) : List Char :=
  if c = '\\' then ['\\', '\\']
  else if c = '"' then ['\\', '"']
  else if c = '\n' then ['\\', 'n']
  else [c]

/-- One label with its value. -/
def labelText (name value : String) : String :=
  name ++ "=\"" ++ String.ofList (value.toList.flatMap escapeLabel) ++ "\""

/-- A line of a value. -/
def sampleLine (name : String) (labels : List (String × String)) (value : String) : String :=
  if labels.isEmpty then s!"{name} {value}\n"
  else
    name ++ "\x7b" ++ ",".intercalate (labels.map fun l => labelText l.1 l.2) ++ "\x7d " ++ value
      ++ "\n"

/-- Labels with their names, in the order of the names. -/
def namedLabels (names values : List String) : List (String × String) :=
  (names.zip values).mergeSort fun a b => a.1 ≤ b.1

/-- Whether labels are written before others of the same names: in the order of
the first value in which they differ. -/
def labelsBefore : List (String × String) → List (String × String) → Bool
  | a :: as, b :: bs => a.2 < b.2 || (a.2 == b.2 && labelsBefore as bs)
  | [], _ => true
  | _, [] => false

/-- The values of a series with their named labels, in the order in which they
are written. -/
def Series.sorted {α : Type} (names : List String) (s : Series α) :
    List (List (String × String) × α) :=
  (s.map fun p => (namedLabels names p.1, p.2)).mergeSort fun a b => labelsBefore a.1 b.1

/-! ### Families -/

/-- A family that has values: its name and all of its lines. -/
structure Family where
  name : String
  help : String
  kind : String
  samples : String

/-- The text of a family. -/
def Family.text (f : Family) : String :=
  s!"# HELP {f.name} {f.help}\n# TYPE {f.name} {f.kind}\n{f.samples}"

/-- The family of a series, if it has a value. -/
def seriesFamily? {α : Type} (name help kind : String) (names : List String)
    (line : List (String × String) → α → String) (s : Series α) : List Family :=
  if s.isEmpty then []
  else [⟨name, help, kind, String.join ((s.sorted names).map fun p => line p.1 p.2)⟩]

/-- The lines of a histogram: counts up to each bound, the sum and the count. -/
def histogramLines (name : String) (labels : List (String × String)) (h : Histogram) : String :=
  let marks := Histogram.bounds.map (·.2) ++ ["+Inf"]
  let line (mark : String) (n : Nat) :=
    sampleLine (name ++ "_bucket") (labels ++ [("le", mark)]) (integerText n)
  String.join ((marks.zip (upTo 0 h.buckets)).map fun p => line p.1 p.2)
    ++ sampleLine (name ++ "_sum") labels (doubleText h.sum)
    ++ sampleLine (name ++ "_count") labels (integerText h.count)
where
  /-- The sums of the first counts. -/
  upTo (sum : Nat) : List Nat → List Nat
    | [] => []
    | n :: ns => (sum + n) :: upTo (sum + n) ns

namespace Metrics

/-- The families that have values, in the order of their names. -/
def families (m : Metrics) : List Family :=
  let counts (name help : String) (labels : List String) (s : Series Nat) :=
    seriesFamily? name help "counter" labels
      (fun ls (n : Nat) => sampleLine name ls (integerText n)) s
  seriesFamily? "command_duration_seconds" "End-to-end command processing duration" "histogram"
      ["command"] (histogramLines "command_duration_seconds") m.durations
    ++ counts "commands_total" "Commands sent through the gateway" ["command", "outcome"] m.commands
    ++ [⟨"critical_sections_occupied", "Aggregate ids with an in-flight or waiting command",
          "gauge", sampleLine "critical_sections_occupied" [] (integerText m.occupied)⟩]
    ++ counts "events_appended_total" "Events appended to the event store" ["event_type"] m.appended
    ++ [⟨"optimistic_conflicts_total", "Aggregate saves rejected by the optimistic sequence check",
          "counter", sampleLine "optimistic_conflicts_total" [] (integerText m.conflicts)⟩]
    ++ counts "stream_backoffs_total" "Back-off pauses taken by stream workers" ["group"] m.backoffs
    ++ seriesFamily? "stream_committed_offset" "Last committed offset per partition" "gauge"
      ["group", "topic", "partition"]
      (fun ls n => sampleLine "stream_committed_offset" ls (integerText n)) m.committed
    ++ counts "stream_records_failed_total" "Stream records that failed and will be redelivered"
      ["group", "reason"] m.failed
    ++ counts "stream_records_processed_total" "Stream records handled successfully"
      ["group", "event_type"] m.processed

/-- All families as text. -/
def text (m : Metrics) : String := String.join (m.families.map Family.text)

/-- The lines of the values, without those of durations that depend on a clock. -/
def steadyLines (m : Metrics) : List String :=
  (m.text.splitOn "\n").filter fun line =>
    !line.isEmpty && !line.startsWith "#" && !line.startsWith "command_duration_seconds_bucket"
      && !line.startsWith "command_duration_seconds_sum"

end Metrics

end Chronicle
