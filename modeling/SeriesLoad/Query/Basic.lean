import SeriesLoad.Json.Basic
import SeriesLoad.Metric.Cpu
import SeriesLoad.Host
import SeriesLoad.Random.Sample
import SeriesLoad.Time.Interval

/-!
# Benchmark queries

A `QueryType` asks for processor readings of some hosts in a window of time. `QueryType.draw` picks
the window and the hosts at random, and a `Dialect` phrases what was picked for one engine. All
dialects phrase the same draw, so with the same words they ask for the same readings.
-/

namespace SeriesLoad

/-- What a query asks for. -/
inductive QueryType where
  /-- Readings with a high `usage_user` in twelve hours, of so many hosts, or of all if there are
  none. -/
  | highCpu (hosts : Nat)
  /-- The greatest value in each minute of the first metrics, for some hosts and hours. -/
  | maxByMinute (metrics hosts : Nat) (hours : Int)
deriving DecidableEq, Repr

/-- Why a query was not made. -/
inductive QueryError where
  | tooManyHosts (requested available : Nat)
  | interval (e : IntervalError)
deriving DecidableEq

namespace QueryError

/-- The words for an error. -/
def message : QueryError → String
  | .tooManyHosts requested available =>
    "number of hosts (" ++ Nat.repr requested ++ ") cannot be greater than scale ("
      ++ Nat.repr available ++ ")"
  | .interval e => "invalid time range: " ++ e.message

/-- The words for an error and for what caused it. -/
def chain : QueryError → String
  | .interval e => message (.interval e) ++ ": " ++ e.message
  | e => e.message

end QueryError

/-- What was picked for a query. -/
structure Selection where
  window : Interval
  /-- The names of the hosts, in the order in which they were drawn. -/
  hosts : List String
deriving DecidableEq

namespace QueryType

/-- The metrics of a query by minute. -/
def metricNames (count : Nat) : List String := Metric.Cpu.keys.take count

/-- The hours of a query for high readings. -/
def highCpuHours : Int := 12

/-- Above this `usage_user` is high. -/
def threshold : Float := 90.0

/-- The nanoseconds of a minute, in which readings are put together. -/
def minuteNanos : Int := 60 * nanosPerSecond

/-- The number of hours of the window. -/
def hours : QueryType → Int
  | .highCpu _ => highCpuHours
  | .maxByMinute _ _ hours => hours

/-- A span in hours, minutes and seconds. -/
def spanLabel (d : Span) : String :=
  let secs := d.wholeSeconds
  Int.repr (secs.tdiv 3600) ++ "h" ++ Int.repr ((secs.tmod 3600).tdiv 60) ++ "m"
    ++ Int.repr (secs.tmod 60) ++ "s"

/-- How many hosts a query for high readings is about. -/
def hostsLabel (hosts : Nat) : String :=
  if hosts = 0 then "all hosts" else Nat.repr hosts ++ " host(s)"

/-- What a query asks for, in words. -/
def label : QueryType → String
  | .highCpu hosts => "CPU over threshold, " ++ hostsLabel hosts
  | .maxByMinute metrics hosts hours =>
    Nat.repr (metricNames metrics).length ++ " cpu metric(s), random " ++ Nat.repr hosts
      ++ " hosts, random " ++ spanLabel ⟨hours * 3600 * nanosPerSecond⟩ ++ " by 1m"

variable {γ : Type} [Words γ]

/-- Draws the names of different hosts out of a population. -/
def drawHosts (available requested : Nat) (words : γ) :
    Except Fault (Except QueryError (List String) × γ) :=
  if available < requested then .ok (.error (.tooManyHosts requested available), words)
  else do
    Draw.requireSampleable available requested
    let (indices, words) := (Draw.sample available requested).run words
    return (.ok (indices.map HostTags.nameOf), words)

/-- Draws the hosts of a query. -/
def drawOwnHosts (t : QueryType) (available : Nat) (words : γ) :
    Except Fault (Except QueryError (List String) × γ) :=
  match t with
  | .highCpu 0 => .ok (.ok [], words)
  | .highCpu hosts => drawHosts available hosts words
  | .maxByMinute _ hosts _ => drawHosts available hosts words

/-- Draws the window and then the hosts of a query. -/
def draw (t : QueryType) (all : Interval) (available : Nat) (words : γ) :
    Except Fault (Except QueryError Selection × γ) :=
  match Span.ofHours? t.hours with
  | none => .error .spanRange
  | some length => do
    match ← all.randomWindow length words with
    | (.error e, words) => .ok (.error (.interval e), words)
    | (.ok window, words) =>
      match ← t.drawOwnHosts available words with
      | (.error e, words) => .ok (.error e, words)
      | (.ok hosts, words) => .ok (.ok ⟨window, hosts⟩, words)

end QueryType

/-- The two texts of a query for people. -/
structure Heading where
  /-- Groups queries of one kind. -/
  label : String := ""
  /-- The label with what was drawn. -/
  description : String := ""
deriving DecidableEq, Repr

/-- Adds the texts for one more query. The description repeats the whole label. -/
def Heading.add (h : Heading) (engine : String) (t : QueryType) (window : Interval) : Heading :=
  let label := h.label ++ engine ++ " " ++ t.label
  { label, description := h.description ++ label ++ ": " ++ window.startText }

/-- The queries of one engine. A query object is filled by adding to what it holds, so that an
empty one becomes the query. -/
class Dialect (q : Type) where
  /-- A query object with nothing in it. -/
  empty : q
  /-- Takes everything out of a query object. -/
  reset : q → q
  /-- The texts for people. -/
  heading : q → Heading
  /-- The query as JSON. -/
  toJson : q → Json
  /-- Adds a query against a database to a query object. -/
  fill (database : String) (t : QueryType) (s : Selection) : q → q

end SeriesLoad
