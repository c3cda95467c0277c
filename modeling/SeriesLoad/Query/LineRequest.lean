import SeriesLoad.Query.Basic

/-!
# Requests to a line protocol engine

A query is a request to the engine's web interface, with a statement in the engine's own language.
-/

namespace SeriesLoad

/-- A request to `/query`. -/
structure LineRequest where
  heading : Heading := {}
  method : String := ""
  path : String := ""
  database : String := ""
  statement : String := ""
deriving DecidableEq, Repr

namespace LineRequest

/-- The condition that selects hosts. -/
def hostCondition (hosts : List String) : String :=
  "(" ++ String.intercalate " or " (hosts.map fun h => "hostname = '" ++ h ++ "'") ++ ")"

/-- The condition that selects a window. -/
def timeCondition (window : Interval) : String :=
  "time >= '" ++ window.startText ++ "' and time < '" ++ window.stopText ++ "'"

/-- The statement of a query. -/
def statementFor (t : QueryType) (s : Selection) : String :=
  match t with
  | .highCpu _ =>
    "SELECT * from cpu where usage_user > 90.0"
      ++ (if s.hosts.isEmpty then "" else " and " ++ hostCondition s.hosts)
      ++ " and " ++ timeCondition s.window
  | .maxByMinute metrics _ _ =>
    "SELECT "
      ++ String.intercalate "," ((QueryType.metricNames metrics).map fun m => "max(" ++ m ++ ")")
      ++ " from cpu where " ++ hostCondition s.hosts ++ " and " ++ timeCondition s.window
      ++ " group by time(1m)"

/-- Adds a query. -/
def fill (database : String) (t : QueryType) (s : Selection) (r : LineRequest) : LineRequest :=
  { r with
    heading := r.heading.add "Influx" t s.window
    method := r.method ++ "GET"
    path := r.path ++ "/query"
    database := r.database ++ database
    statement := r.statement ++ statementFor t s }

/-- Takes everything out. -/
def reset (r : LineRequest) : LineRequest :=
  { r with heading := {}, method := "", path := "", database := "", statement := "" }

/-- The request as JSON. -/
def toJson (r : LineRequest) : Json :=
  .obj [
    ("human_label", .str r.heading.label),
    ("human_description", .str r.heading.description),
    ("method", .str r.method),
    ("path", .str r.path),
    ("database", .str r.database),
    ("influxql", .str r.statement)]

instance : Dialect LineRequest where
  empty := {}
  reset
  heading
  toJson
  fill

end LineRequest

end SeriesLoad
