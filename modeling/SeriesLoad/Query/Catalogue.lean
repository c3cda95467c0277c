import SeriesLoad.Query.Basic

/-!
# The catalogue of query types

The query types that can be asked for by name. A name spells out the parameters: the number of
hosts, or the numbers of metrics, hosts and hours.
-/

namespace SeriesLoad.QueryType

/-- All query types that have a name. -/
def catalogue : List QueryType :=
  [.highCpu 1, .highCpu 0,
   .maxByMinute 1 1 1, .maxByMinute 1 1 12, .maxByMinute 1 8 1,
   .maxByMinute 5 1 1, .maxByMinute 5 1 12, .maxByMinute 5 8 1]

/-- The name of a query type. -/
def name : QueryType → String
  | .highCpu hosts => "high-cpu-" ++ (if hosts = 0 then "all" else Nat.repr hosts)
  | .maxByMinute metrics hosts hours =>
    "single-groupby-" ++ Nat.repr metrics ++ "-" ++ Nat.repr hosts ++ "-" ++ Int.repr hours

/-- The query type of a name. -/
def ofName? (s : String) : Option QueryType := catalogue.find? fun t => t.name == s

/-- What is said of a name that no query type has. -/
def unknownMessage (s : String) : String :=
  "unknown query type: '" ++ s ++ "' (valid choices: "
    ++ String.intercalate ", " (catalogue.map name) ++ ")"

end SeriesLoad.QueryType
