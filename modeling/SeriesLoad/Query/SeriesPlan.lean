import SeriesLoad.Query.Basic

/-!
# Plans over series tables

The engine has no grouping by time of its own, so a query is a plan for its client: what to read,
between which times, of which series, and how to aggregate.
-/

namespace SeriesLoad

/-- A plan that the client carries out. -/
structure SeriesPlan where
  heading : Heading := {}
  keyspace : String := ""
  measurement : String := ""
  fields : List String := []
  /-- `max`, or `none` for the readings themselves. -/
  aggregation : String := ""
  /-- A condition on the readings, empty if there is none. -/
  condition : String := ""
  startNanos : Int := 0
  stopNanos : Int := 0
  /-- The length of a bucket, zero for a single one. -/
  bucketNanos : Int := 0
  /-- Tags of which a series needs one in each set. -/
  tagSets : List (List String) := []
deriving DecidableEq, Repr

namespace SeriesPlan

/-- The tags that select hosts. -/
def hostTags (hosts : List String) : List String := hosts.map ("hostname=" ++ ·)

/-- What both kinds of query share. -/
def addCommon (p : SeriesPlan) (database : String) (t : QueryType) (window : Interval) :
    SeriesPlan :=
  { p with
    heading := p.heading.add "Cassandra" t window
    keyspace := p.keyspace ++ database
    measurement := p.measurement ++ Metric.Cpu.name
    startNanos := window.start.unixNanos
    stopNanos := window.stop.unixNanos }

/-- Adds a query. -/
def fill (database : String) (t : QueryType) (s : Selection) (p : SeriesPlan) : SeriesPlan :=
  let p := p.addCommon database t s.window
  match t with
  | .highCpu hosts =>
    { p with
      fields := p.fields ++ ["usage_user"]
      aggregation := p.aggregation ++ "none"
      condition := p.condition ++ "usage_user > 90.0"
      tagSets := if hosts = 0 then p.tagSets else p.tagSets ++ [hostTags s.hosts] }
  | .maxByMinute metrics _ _ =>
    { p with
      fields := p.fields ++ QueryType.metricNames metrics
      aggregation := p.aggregation ++ "max"
      bucketNanos := QueryType.minuteNanos
      tagSets := p.tagSets ++ [hostTags s.hosts] }

/-- Takes everything out. -/
def reset (p : SeriesPlan) : SeriesPlan :=
  { p with
    heading := {}, keyspace := "", measurement := "", fields := [], aggregation := ""
    condition := "", startNanos := 0, stopNanos := 0, bucketNanos := 0, tagSets := [] }

/-- The plan as JSON. -/
def toJson (p : SeriesPlan) : Json :=
  .obj [
    ("human_label", .str p.heading.label),
    ("human_description", .str p.heading.description),
    ("keyspace", .str p.keyspace),
    ("measurement_name", .str p.measurement),
    ("field_names", .arr (p.fields.map .str)),
    ("aggregation_type", .str p.aggregation),
    ("condition", .str p.condition),
    ("time_start_ns", .int p.startNanos),
    ("time_end_ns", .int p.stopNanos),
    ("group_by_duration_ns", .int p.bucketNanos),
    ("tag_sets", .arr (p.tagSets.map fun tags => .arr (tags.map .str)))]

instance : Dialect SeriesPlan where
  empty := {}
  reset
  heading
  toJson
  fill

end SeriesPlan

end SeriesLoad
