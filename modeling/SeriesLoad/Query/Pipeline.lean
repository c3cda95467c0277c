import SeriesLoad.Query.Basic

/-!
# Aggregation pipelines

A query is a pipeline of stages over a collection of documents, as they are written for points.
-/

namespace SeriesLoad

/-- A pipeline over a collection. -/
structure Pipeline where
  heading : Heading := {}
  database : String := ""
  collection : String := ""
  stages : List Json := []

namespace Pipeline

/-- The collection that holds the points. -/
def pointCollection : String := "point_data"

/-- The conditions that every query has: the measurement and the window. -/
def windowConditions (window : Interval) : List (String × Json) :=
  [("measurement", .str Metric.Cpu.name),
   ("timestamp_ns", .obj [
     ("$gte", .int window.start.unixNanos),
     ("$lt", .int window.stop.unixNanos)])]

/-- The condition that selects hosts. -/
def hostCondition (hosts : List String) : String × Json :=
  ("tags.hostname", .obj [("$in", .arr (hosts.map .str))])

/-- The conditions of a query. -/
def conditions (t : QueryType) (s : Selection) : List (String × Json) :=
  match t with
  | .highCpu hosts =>
    windowConditions s.window
      ++ [("fields.usage_user", .obj [("$gt", .float QueryType.threshold)])]
      ++ (if hosts = 0 then [] else [hostCondition s.hosts])
  | .maxByMinute _ _ _ => windowConditions s.window ++ [hostCondition s.hosts]

/-- The start of the minute that a document is in. -/
def minuteStart : Json :=
  .obj [("$subtract", .arr [
    .str "$timestamp_ns",
    .obj [("$mod", .arr [.str "$timestamp_ns", .int QueryType.minuteNanos])]])]

/-- The greatest value of a metric. -/
def greatest (metric : String) : String × Json :=
  ("max_" ++ metric, .obj [("$max", .str ("$fields." ++ metric))])

/-- The stages of a query. -/
def stagesFor (t : QueryType) (s : Selection) : List Json :=
  let matching : Json := .obj [("$match", .obj (conditions t s))]
  match t with
  | .highCpu _ => [matching]
  | .maxByMinute metrics _ _ =>
    [matching,
     .obj [("$group", .obj (("_id", minuteStart)
       :: (QueryType.metricNames metrics).map greatest))],
     .obj [("$sort", .obj [("_id", .int 1)])]]

/-- Adds a query. -/
def fill (database : String) (t : QueryType) (s : Selection) (p : Pipeline) : Pipeline :=
  { p with
    heading := p.heading.add "Mongo" t s.window
    database := p.database ++ database
    collection := p.collection ++ pointCollection
    stages := p.stages ++ stagesFor t s }

/-- Takes everything out. -/
def reset (p : Pipeline) : Pipeline :=
  { p with heading := {}, database := "", collection := "", stages := [] }

/-- The pipeline as JSON. -/
def toJson (p : Pipeline) : Json :=
  .obj [
    ("human_label", .str p.heading.label),
    ("human_description", .str p.heading.description),
    ("database_name", .str p.database),
    ("collection_name", .str p.collection),
    ("pipeline", .arr p.stages)]

instance : Dialect Pipeline where
  empty := {}
  reset
  heading
  toJson
  fill

end Pipeline

end SeriesLoad
