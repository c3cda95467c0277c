import SeriesLoad.Query.Engine
import SeriesLoad.Settings

/-!
# Query jobs

A `QueryJob` writes a number of queries of one type, phrased for one engine, as one JSON document in
each line, and counts them by their labels. `QueryJob.ofSettings` checks its settings: the format
first, then the query type and the two ends of time.
-/

namespace SeriesLoad

/-- The settings of a query job, as they are given. -/
structure QuerySettings where
  format : String := ""
  queryType : String := ""
  hosts : Nat := 1
  count : Nat := 1000
  seed : Int64 := 0
  database : String := "benchmark_db"
  start : String := Settings.defaultStart
  stop : String := Settings.defaultStop
deriving DecidableEq, Repr

/-- A job that writes queries. -/
structure QueryJob where
  format : Format
  queryType : QueryType
  /-- Hosts in the data that the queries are about. -/
  hosts : Nat
  /-- How many queries to write. -/
  count : Nat
  database : String
  seed : UInt64
  start : Instant
  stop : Instant

/-- Why a query job failed. -/
inductive QueryJobError where
  /-- The data covers no time. -/
  | interval (e : IntervalError)
  /-- A query was not made. -/
  | query (index : Nat) (e : QueryError)
  | sinkFull
  | fault (f : Fault)
deriving DecidableEq

/-- The words for an error and for what caused it. -/
def QueryJobError.chain : QueryJobError → String
  | .interval e => (QueryError.interval e).chain
  | .query index e => "Failed to generate query " ++ Nat.repr index ++ ": " ++ e.chain
  | .sinkFull => Sink.fullMessage
  | .fault f => f.message

namespace QueryJob

/-- The job with checked settings. The clock stands in for a seed of zero. -/
def ofSettings (clock : UInt64) (s : QuerySettings) : Except SettingError QueryJob := do
  let format ← Settings.format s.format
  let queryType ← Settings.queryType s.queryType
  let start ← Settings.instant s.start
  let stop ← Settings.instant s.stop
  return {
    format
    queryType
    hosts := s.hosts
    count := s.count
    database := s.database
    seed := Settings.seed clock s.seed
    start
    stop }

/-- How many queries were written, by label, in the order of the labels. -/
abbrev Counts := List (String × Nat)

/-- Counts one more query with a label. -/
def Counts.add (label : String) : Counts → Counts
  | [] => [(label, 1)]
  | (l, n) :: rest =>
    if l = label then (l, n + 1) :: rest
    else if label < l then (label, 1) :: (l, n) :: rest
    else (l, n) :: add label rest

variable {γ q ω : Type} [Words γ] [Dialect q] [Output ω]

/-- The line of a query. -/
def line (x : q) : String := (Dialect.toJson x).render ++ "\n"

/-- Makes and writes so many more queries, of which the next one has an index. -/
def loop (t : QueryType) (hosts : Nat) :
    Nat → Nat → Engine γ q → Counts → ω → ω × Except QueryJobError Counts
  | 0, _, _, counts, output => (output, .ok counts)
  | more + 1, index, engine, counts, output =>
    match engine.dispatch t hosts with
    | .error f => (output, .error (.fault f))
    | .ok (.error e, _) => (output, .error (.query index e))
    | .ok (.ok x, engine) =>
      match Output.write output (line x).toUTF8 with
      | (output, false) => (output, .error .sinkFull)
      | (output, true) =>
        loop t hosts more (index + 1) engine (counts.add (Dialect.heading x).label) output

/-- Writes the queries of a job in one dialect. -/
def generateIn (q : Type) [Dialect q] (j : QueryJob) (output : ω) :
    ω × Except QueryJobError Counts :=
  match Interval.between j.start j.stop with
  | .error e => (output, .error (.interval e))
  | .ok interval =>
    let engine : Engine ChaCha q := .start j.database interval (ChaCha.ofSeed j.seed)
    loop j.queryType j.hosts j.count 0 engine [] output

/-- Writes the queries of a job. -/
def generate (j : QueryJob) (output : ω) : ω × Except QueryJobError Counts :=
  match j.format with
  | .cassandra => j.generateIn SeriesPlan output
  | .influx => j.generateIn LineRequest output
  | .mongo => j.generateIn Pipeline output
  | .timescaledb => j.generateIn SqlStatement output

end QueryJob

end SeriesLoad
