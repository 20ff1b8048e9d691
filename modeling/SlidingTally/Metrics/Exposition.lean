import SlidingTally.Journal
import SlidingTally.Value.Access

/-!
# Metrics for Prometheus

A `Sink` adds observations up in four counters and writes them in the text format that
Prometheus scrapes. A counter is a family of series in the order of their first use. Series
are told apart by the marks of their labels, one behind the other, so labels with the same
marks share a series.

The counters are those of a metrics library. What is taken from it is that an amount is added
to the series of its labels alone (`value?_add`), that a series comes into being with its first
amount, except for the one without labels, which is there from the start (`Sink.new`), and that
the text has one line for each series behind the help and the type of its counter (`Sink.text`).
-/

namespace SlidingTally.Metrics

inductive Family where
  | increments
  | queries
  | bucketReads
  | keyValue
deriving DecidableEq

namespace Family

def all : List Family := [.increments, .queries, .bucketReads, .keyValue]

def name : Family → String
  | .increments => "velocity_counter_increments_total"
  | .queries => "velocity_counter_queries_total"
  | .bucketReads => "velocity_counter_bucket_reads_total"
  | .keyValue => "velocity_counter_kv_operations_total"

def help : Family → String
  | .increments => "Number of sliding-window increments by outcome"
  | .queries => "Number of sliding-window queries by outcome"
  | .bucketReads => "Number of bucket keys read from the store (total keys, not requests)"
  | .keyValue => "Number of typed KV operations by outcome"

def labelNames : Family → List String
  | .increments => ["status"]
  | .queries => ["status"]
  | .bucketReads => []
  | .keyValue => ["operation", "status"]

end Family

/-- The value of a label: a text, any other value as it is written, or none at all. -/
inductive Label where
  | text (s : String)
  | other (written : String)
  | missing
deriving DecidableEq

namespace Label

def ofValue : Value → Except Fault Label
  | .undefined => .ok missing
  | .text s => .ok (text s)
  | value => value.asText.map other

/-- What of a label tells series apart: its name and its text, and nothing if it is missing. -/
def mark (name : String) : Label → String
  | text s => name ++ ":" ++ s ++ ","
  | other written => name ++ ":" ++ written ++ ","
  | missing => ""

def escape (s : String) : String :=
  s.toList.foldl (fun text c =>
    if c = '\\' then text ++ "\\\\"
    else if c = '"' then text ++ "\\\""
    else if c = '\n' then text ++ "\\n"
    else text.push c) ""

def written : Label → String
  | text s => escape s
  | other written => written
  | missing => "undefined"

end Label

structure SeriesId where
  family : Family
  marks : String
deriving DecidableEq

def SeriesId.ofLabels (family : Family) (labels : List Label) : SeriesId :=
  ⟨family, String.join ((family.labelNames.zip labels).map fun (name, label) => label.mark name)⟩

structure Series where
  labels : List Label
  total : Binary64

structure Sink where
  series : List (SeriesId × Series)

namespace Sink

def new : Sink := ⟨[(.ofLabels .bucketReads [], ⟨[], .zero⟩)]⟩

/-- Adds to a series, which comes into being with its first amount. -/
def addTo (id : SeriesId) (labels : List Label) (amount : Binary64) :
    List (SeriesId × Series) → List (SeriesId × Series)
  | [] => [(id, ⟨labels, amount⟩)]
  | (other, series) :: rest =>
    if other = id then (other, { series with total := series.total + amount }) :: rest
    else (other, series) :: addTo id labels amount rest

def add (sink : Sink) (family : Family) (labels : List Label) (amount : Binary64) : Sink :=
  ⟨addTo (.ofLabels family labels) labels amount sink.series⟩

def value? (sink : Sink) (id : SeriesId) : Option Binary64 :=
  (sink.series.find? fun entry => entry.1 = id).map fun entry => entry.2.total

theorem value?_add (sink : Sink) (family : Family) (labels : List Label) (amount : Binary64)
    (other : SeriesId) :
    (sink.add family labels amount).value? other =
      if other = .ofLabels family labels then
        some (match sink.value? (.ofLabels family labels) with
          | some total => total + amount
          | none => amount)
      else sink.value? other := by
  obtain ⟨series⟩ := sink
  simp only [add, value?]
  generalize SeriesId.ofLabels family labels = id
  induction series with
  | nil =>
    by_cases h : other = id
    · simp [addTo, h]
    · simp [addTo, h, Ne.symm h]
  | cons entry rest ih =>
    obtain ⟨k, total⟩ := entry
    by_cases hk : k = id
    · subst hk
      by_cases h : other = k
      · simp [addTo, h]
      · simp [addTo, h, Ne.symm h]
    · by_cases ho : k = other
      · subst ho
        simp [addTo, hk]
      · simp [addTo, hk, ho, ih]

-- ---------------------------------------------------------------------------
-- Recording
-- ---------------------------------------------------------------------------

def count (sink : Sink) (family : Family) (labels : List Value) : Except Fault Sink := do
  return sink.add family (← labels.mapM Label.ofValue) 1

def recordIncrement (sink : Sink) (status : Value) : Except Fault Sink :=
  sink.count .increments [status]

def recordQuery (sink : Sink) (status : Value) : Except Fault Sink :=
  sink.count .queries [status]

def recordKeyValue (sink : Sink) (operation status : Value) : Except Fault Sink :=
  sink.count .keyValue [operation, status]

def notNumber (written : String) : Fault :=
  .wrongType ("Value is not a valid number: " ++ written)

def addedLabel : Fault := .plain "Added label \"0\" is not included in initial labelset: []"

/-- The amount that a value stands for. Values with parts are taken for labels, which the
counter of reads does not have; an instant has no parts and stands for one. -/
def amountOf : Value → Except Fault Binary64
  | .number x => if x.isFinite then .ok x else .error (notNumber x.text)
  | .instant _ => .ok 1
  | .list _ => .error addedLabel
  | .bytes _ => .error addedLabel
  | value => do throw (notNumber (← value.asText))

def recordBucketReads (sink : Sink) (count : Value) : Except Fault Sink := do
  if Binary64.zero.lt (← count.asNumber) then
    return sink.add .bucketReads [] (← amountOf count)
  else return sink

def record (sink : Sink) : Metric → Sink
  | .increment status => sink.add .increments [.text status.name] 1
  | .query status => sink.add .queries [.text status.name] 1
  | .reads count => if 0 < count then sink.add .bucketReads [] (.ofNat count) else sink
  | .keyValue operation status => sink.add .keyValue [.text operation.name, .text status.name] 1

-- ---------------------------------------------------------------------------
-- Text
-- ---------------------------------------------------------------------------

/-- How totals are written: as elsewhere, but infinity by its sign. -/
def amountText (x : Binary64) : String :=
  match x with
  | .nan => "Nan"
  | .infinite negative => if negative then "-Inf" else "+Inf"
  | x => x.text

def labelText (names : List String) (labels : List Label) : String :=
  if names.isEmpty then ""
  else
    let pairs := (names.zip labels).map fun (name, label) =>
      name ++ "=\"" ++ label.written ++ "\""
    "\x7b" ++ ",".intercalate pairs ++ "\x7d"

def seriesLine (family : Family) (series : Series) : String :=
  family.name ++ labelText family.labelNames series.labels ++ " " ++ amountText series.total

def familyLines (sink : Sink) (family : Family) : List String :=
  ["# HELP " ++ family.name ++ " " ++ family.help, "# TYPE " ++ family.name ++ " counter"] ++
    (sink.series.filter fun entry => entry.1.family = family).map fun entry =>
      seriesLine family entry.2

def text (sink : Sink) : String :=
  "\n\n".intercalate (Family.all.map fun family => "\n".intercalate (sink.familyLines family))
    ++ "\n"

end Sink

-- ---------------------------------------------------------------------------
-- Endpoint
-- ---------------------------------------------------------------------------

structure Endpoint where
  path : String
  route : String
  headers : List (String × String)

def endpoint : Endpoint :=
  ⟨"velocity-counter", "metrics", [("Content-Type", "text/plain; version=0.0.4; charset=utf-8")]⟩

end SlidingTally.Metrics
