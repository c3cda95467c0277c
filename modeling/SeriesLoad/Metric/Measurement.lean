import SeriesLoad.Metric.Distribution
import SeriesLoad.Point

/-!
# Measurements

A `Measurement` is a named list of metrics with a clock of its own. A tick moves the clock and then
every metric, in order; it fails if the clock leaves the range of instants or a metric cannot be
drawn.
-/

namespace SeriesLoad

/-- How the state of a metric is shown. -/
inductive MetricKind where
  | float
  /-- Truncated toward zero. -/
  | int
deriving DecidableEq, Repr

/-- One field of a measurement. -/
structure Metric where
  key : String
  kind : MetricKind
  distribution : Distribution

namespace Metric

/-- A field with a double. -/
def float (key : String) (d : Distribution) : Metric := ⟨key, .float, d⟩

/-- A field with an integer. -/
def int (key : String) (d : Distribution) : Metric := ⟨key, .int, d⟩

/-- The current value of the field. -/
def value (m : Metric) : FieldValue :=
  match m.kind with
  | .float => .float (.ofFloat m.distribution.value)
  | .int => .int m.distribution.value.toInt64

/-- Moves the metric by one step. -/
def advance {γ : Type} [Words γ] (m : Metric) : Draw γ Metric := do
  return { m with distribution := ← m.distribution.advance }

/-- Moves metrics by one step each, in order. -/
def advanceAll {γ : Type} [Words γ] : List Metric → Draw γ (List Metric)
  | [] => return []
  | m :: rest => do
    let m ← m.advance
    let rest ← advanceAll rest
    return m :: rest

end Metric

/-- Metrics that are sampled together. -/
structure Measurement where
  name : String
  /-- The time of the next sample. -/
  time : Instant
  metrics : List Metric

namespace Measurement

/-- The names of the fields. -/
def keys (m : Measurement) : List String := m.metrics.map (·.key)

/-- The fields with their current values. -/
def fields (m : Measurement) : List (String × FieldValue) :=
  m.metrics.map fun metric => (metric.key, metric.value)

/-- The measurement with its clock moved on. -/
def moveClock (m : Measurement) (d : Span) : Except Fault Measurement :=
  match m.time.add? d with
  | some time => .ok { m with time }
  | none => .error .instantRange

/-- The measurement with every metric moved by one step. -/
def moveMetrics {γ : Type} [Words γ] (m : Measurement) (words : γ) :
    Except Fault (Measurement × γ) :=
  if m.metrics.all fun metric => metric.distribution.isDrawable then
    let (metrics, words) := (Metric.advanceAll m.metrics).run words
    .ok ({ m with metrics }, words)
  else .error .emptyRange

/-- Moves the clock, then the metrics. -/
def tick {γ : Type} [Words γ] (m : Measurement) (d : Span) (words : γ) :
    Except Fault (Measurement × γ) := do
  (← m.moveClock d).moveMetrics words

/-- Puts name, time and fields into a point. -/
def fill (m : Measurement) (p : Point) : Point :=
  m.fields.foldl (fun p field => p.addField field.1 field.2)
    ((p.setName m.name).setTimestamp m.time)

end Measurement

end SeriesLoad
