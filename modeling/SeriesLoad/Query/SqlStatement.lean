import SeriesLoad.Query.Basic

/-!
# SQL statements

A query is one statement against a table of readings, in the dialect of an engine that can group by
time.
-/

namespace SeriesLoad

/-- A statement against a table. -/
structure SqlStatement where
  heading : Heading := {}
  database : String := ""
  table : String := ""
  text : String := ""
deriving DecidableEq, Repr

namespace SqlStatement

/-- The condition that selects hosts. -/
def hostCondition (hosts : List String) : String :=
  "hostname IN (" ++ String.intercalate "," (hosts.map fun h => "'" ++ h ++ "'") ++ ")"

/-- The condition that selects a window. -/
def timeCondition (window : Interval) : String :=
  "time >= '" ++ window.startText ++ "' AND time < '" ++ window.stopText ++ "'"

/-- The column with the greatest value of a metric. -/
def greatest (metric : String) : String := ", max(" ++ metric ++ ") AS max_" ++ metric

/-- The text of a query. -/
def textFor (t : QueryType) (s : Selection) : String :=
  match t with
  | .highCpu _ =>
    "SELECT * FROM cpu WHERE usage_user > 90.0 AND " ++ timeCondition s.window
      ++ (if s.hosts.isEmpty then "" else " AND " ++ hostCondition s.hosts)
  | .maxByMinute metrics _ _ =>
    "SELECT time_bucket('1 minute', time) AS minute"
      ++ String.join ((QueryType.metricNames metrics).map greatest)
      ++ " FROM cpu WHERE " ++ hostCondition s.hosts ++ " AND " ++ timeCondition s.window
      ++ " GROUP BY minute ORDER BY minute ASC"

/-- Adds a query. -/
def fill (database : String) (t : QueryType) (s : Selection) (q : SqlStatement) : SqlStatement :=
  { q with
    heading := q.heading.add "TimescaleDB" t s.window
    database := q.database ++ database
    table := q.table ++ Metric.Cpu.name
    text := q.text ++ textFor t s }

/-- Takes everything out. -/
def reset (q : SqlStatement) : SqlStatement :=
  { q with heading := {}, database := "", table := "", text := "" }

/-- The statement as JSON. -/
def toJson (q : SqlStatement) : Json :=
  .obj [
    ("human_label", .str q.heading.label),
    ("human_description", .str q.heading.description),
    ("database", .str q.database),
    ("hypertable", .str q.table),
    ("sql_query", .str q.text)]

instance : Dialect SqlStatement where
  empty := {}
  reset
  heading
  toJson
  fill

end SqlStatement

end SeriesLoad
