import Mathlib.Data.List.Nodup
import SeriesLoad.Proofs.Time.Arithmetic
import SeriesLoad.Query.LineRequest
import SeriesLoad.Query.Pipeline
import SeriesLoad.Query.SeriesPlan
import SeriesLoad.Query.SqlStatement

/-!
# Questions and how engines phrase them

A `Question` is what a query asks for, whatever engine it is for: a window, some hosts and some
metrics. It says nothing of how the query came about. `asking` is the query of an engine for a
question, written out in full; an empty list of hosts stands for all of them in a question about
high readings.

The engines fill query objects by adding to them, and go by the type of the query where `asking`
goes by the question. **Filling an empty object gives the query that asks the question**
(`fill_empty`), if as many hosts were drawn as the type says and the window has its length.
-/

namespace SeriesLoad

/-! ## Questions -/

/-- What is asked about the metrics. -/
inductive Question.Kind where
  /-- The readings above the threshold. -/
  | high
  /-- The greatest reading of each minute. -/
  | byMinute
deriving DecidableEq

/-- What a query asks for. -/
structure Question where
  kind : Question.Kind
  window : Interval
  /-- The names of the hosts, in the order in which they are named. -/
  hosts : List String
  metrics : List String

namespace QueryType

/-- What a type of query asks about its metrics. -/
def kind : QueryType → Question.Kind
  | .highCpu _ => .high
  | .maxByMinute _ _ _ => .byMinute

/-- How many hosts a type of query names. -/
def hostCount : QueryType → Nat
  | .highCpu hosts => hosts
  | .maxByMinute _ hosts _ => hosts

/-- The metrics of a type of query: the one that has a threshold, or the first ones of the
processor. -/
def metrics : QueryType → List String
  | .highCpu _ => ["usage_user"]
  | .maxByMinute count _ _ => Metric.Cpu.keys.take count

theorem metrics_subset (t : QueryType) : ∀ metric ∈ t.metrics, metric ∈ Metric.Cpu.keys := by
  cases t with
  | highCpu hosts => exact List.forall_mem_singleton.mpr (.head _)
  | maxByMinute count hosts hours => exact fun metric hmetric => List.mem_of_mem_take hmetric

theorem nodup_metrics (t : QueryType) : t.metrics.Nodup := by
  have hkeys : Metric.Cpu.keys.Nodup := by decide
  cases t with
  | highCpu hosts => exact List.nodup_singleton _
  | maxByMinute count hosts hours => exact hkeys.sublist (List.take_sublist _ _)

/-- The length of the window. -/
def span (t : QueryType) : Span := ⟨t.hours * 3600 * nanosPerSecond⟩

/-- The question for what was picked. -/
def question (t : QueryType) (s : Selection) : Question where
  kind := t.kind
  window := s.window
  hosts := s.hosts
  metrics := t.metrics

/-- What was picked is what the type of query asks for. -/
structure Picks (t : QueryType) (s : Selection) : Prop where
  length : s.window.length = t.span
  hosts : s.hosts.length = t.hostCount

theorem Picks.hosts_eq_nil_iff {t : QueryType} {s : Selection} (h : t.Picks s) :
    s.hosts = [] ↔ t.hostCount = 0 := by
  rw [← h.hosts, List.length_eq_zero_iff]

end QueryType

namespace Question

/-- The question in words. -/
def label (q : Question) : String :=
  match q.kind with
  | .high => "CPU over threshold, " ++ QueryType.hostsLabel q.hosts.length
  | .byMinute =>
    Nat.repr q.metrics.length ++ " cpu metric(s), random " ++ Nat.repr q.hosts.length
      ++ " hosts, random " ++ QueryType.spanLabel q.window.length ++ " by 1m"

/-- The texts for people, as one engine has them. -/
def heading (engine : String) (q : Question) : Heading where
  label := engine ++ " " ++ q.label
  description := engine ++ " " ++ q.label ++ ": " ++ q.window.startText

end Question

theorem QueryType.label_question {t : QueryType} {s : Selection} (h : t.Picks s) :
    (t.question s).label = t.label := by
  obtain ⟨hlength, hhosts⟩ := h
  cases t with
  | highCpu hosts =>
    change "CPU over threshold, " ++ hostsLabel s.hosts.length = _
    rw [hhosts]
    rfl
  | maxByMinute metrics hosts hours =>
    change Nat.repr (metricNames metrics).length ++ " cpu metric(s), random "
      ++ Nat.repr s.hosts.length ++ " hosts, random " ++ spanLabel s.window.length ++ " by 1m" = _
    rw [hhosts, hlength]
    rfl

theorem Heading.add_empty {t : QueryType} {s : Selection} (h : t.Picks s) (engine : String) :
    Heading.add {} engine t s.window = (t.question s).heading engine := by
  rw [Heading.add, Question.heading, QueryType.label_question h]
  simp only [QueryType.question, String.empty_append]

/-! ## Plans -/

namespace SeriesPlan

/-- The plan that asks a question. -/
def asking (database : String) (q : Question) : SeriesPlan where
  heading := q.heading "Cassandra"
  keyspace := database
  measurement := "cpu"
  fields := q.metrics
  aggregation := match q.kind with
    | .high => "none"
    | .byMinute => "max"
  condition := match q.kind with
    | .high => String.intercalate " and " (q.metrics.map fun m => m ++ " > 90.0")
    | .byMinute => ""
  startNanos := q.window.start.unixNanos
  stopNanos := q.window.stop.unixNanos
  bucketNanos := match q.kind with
    | .high => 0
    | .byMinute => 60000000000
  tagSets :=
    if q.kind = .high ∧ q.hosts = [] then [] else [q.hosts.map fun h => "hostname=" ++ h]

theorem fill_empty (database : String) {t : QueryType} {s : Selection} (h : t.Picks s) :
    Dialect.fill database t s (Dialect.empty : SeriesPlan) = asking database (t.question s) := by
  have hhosts := h.hosts_eq_nil_iff
  simp only [Dialect.fill, Dialect.empty, fill, addCommon, asking, Heading.add_empty h]
  cases t <;> simp_all [QueryType.question, QueryType.kind, QueryType.metrics, QueryType.hostCount,
    QueryType.metricNames, QueryType.minuteNanos, hostTags, Metric.Cpu.name]

end SeriesPlan

/-! ## Requests -/

namespace LineRequest

/-- The request that asks a question. -/
def asking (database : String) (q : Question) : LineRequest where
  heading := q.heading "Influx"
  method := "GET"
  path := "/query"
  database
  statement := match q.kind with
    | .high =>
      "SELECT * from cpu where "
        ++ String.intercalate " and " (q.metrics.map fun m => m ++ " > 90.0")
        ++ (if q.hosts = [] then "" else " and " ++ hostCondition q.hosts)
        ++ " and " ++ timeCondition q.window
    | .byMinute =>
      "SELECT " ++ String.intercalate "," (q.metrics.map fun m => "max(" ++ m ++ ")")
        ++ " from cpu where " ++ hostCondition q.hosts ++ " and " ++ timeCondition q.window
        ++ " group by time(1m)"

theorem statementFor_eq (database : String) (t : QueryType) (s : Selection) :
    statementFor t s = (asking database (t.question s)).statement := by
  cases t with
  | highCpu hosts =>
    have hcondition : "SELECT * from cpu where " ++ String.intercalate " and "
        (["usage_user"].map fun m => m ++ " > 90.0") =
        "SELECT * from cpu where usage_user > 90.0" := by decide
    change "SELECT * from cpu where usage_user > 90.0"
      ++ (if s.hosts.isEmpty then "" else " and " ++ hostCondition s.hosts)
      ++ " and " ++ timeCondition s.window =
      "SELECT * from cpu where " ++ String.intercalate " and "
        (["usage_user"].map fun m => m ++ " > 90.0")
      ++ (if s.hosts = [] then "" else " and " ++ hostCondition s.hosts)
      ++ " and " ++ timeCondition s.window
    rw [hcondition]
    simp only [List.isEmpty_iff]
  | maxByMinute metrics hosts hours => rfl

theorem fill_empty (database : String) {t : QueryType} {s : Selection} (h : t.Picks s) :
    Dialect.fill database t s (Dialect.empty : LineRequest) = asking database (t.question s) := by
  simp only [Dialect.fill, Dialect.empty, fill, Heading.add_empty h, String.empty_append]
  rw [statementFor_eq database t s]
  rfl

end LineRequest

/-! ## Pipelines -/

namespace Pipeline

/-- The pipeline that asks a question. -/
def asking (database : String) (q : Question) : Pipeline where
  heading := q.heading "Mongo"
  database
  collection := "point_data"
  stages := match q.kind with
    | .high =>
      [.obj [("$match", .obj (windowConditions q.window
        ++ q.metrics.map (fun m => ("fields." ++ m, .obj [("$gt", .float 90.0)]))
        ++ if q.hosts = [] then [] else [hostCondition q.hosts]))]]
    | .byMinute =>
      [.obj [("$match", .obj (windowConditions q.window ++ [hostCondition q.hosts]))],
       .obj [("$group", .obj (("_id", .obj [("$subtract", .arr [.str "$timestamp_ns",
           .obj [("$mod", .arr [.str "$timestamp_ns", .int 60000000000])]])])
         :: q.metrics.map fun m => ("max_" ++ m, .obj [("$max", .str ("$fields." ++ m))])))],
       .obj [("$sort", .obj [("_id", .int 1)])]]

theorem fill_empty (database : String) {t : QueryType} {s : Selection} (h : t.Picks s) :
    Dialect.fill database t s (Dialect.empty : Pipeline) = asking database (t.question s) := by
  simp only [Dialect.fill, Dialect.empty, fill, asking, Heading.add_empty h, String.empty_append,
    List.nil_append]
  cases t with
  | highCpu hosts =>
    have hhosts : s.hosts = [] ↔ hosts = 0 := h.hosts_eq_nil_iff
    simp [pointCollection, stagesFor, conditions, QueryType.question, QueryType.kind,
      QueryType.metrics, QueryType.threshold, hhosts]
  | maxByMinute metrics hosts hours => rfl

end Pipeline

/-! ## Statements -/

namespace SqlStatement

/-- The statement that asks a question. -/
def asking (database : String) (q : Question) : SqlStatement where
  heading := q.heading "TimescaleDB"
  database
  table := "cpu"
  text := match q.kind with
    | .high =>
      "SELECT * FROM cpu WHERE "
        ++ String.intercalate " AND " (q.metrics.map fun m => m ++ " > 90.0")
        ++ " AND " ++ timeCondition q.window
        ++ if q.hosts = [] then "" else " AND " ++ hostCondition q.hosts
    | .byMinute =>
      "SELECT time_bucket('1 minute', time) AS minute"
        ++ String.join (q.metrics.map fun m => ", max(" ++ m ++ ") AS max_" ++ m)
        ++ " FROM cpu WHERE " ++ hostCondition q.hosts ++ " AND " ++ timeCondition q.window
        ++ " GROUP BY minute ORDER BY minute ASC"

theorem textFor_eq (database : String) (t : QueryType) (s : Selection) :
    textFor t s = (asking database (t.question s)).text := by
  cases t with
  | highCpu hosts =>
    have hcondition : "SELECT * FROM cpu WHERE " ++ String.intercalate " AND "
        (["usage_user"].map fun m => m ++ " > 90.0") ++ " AND " =
        "SELECT * FROM cpu WHERE usage_user > 90.0 AND " := by decide
    change "SELECT * FROM cpu WHERE usage_user > 90.0 AND " ++ timeCondition s.window
      ++ (if s.hosts.isEmpty then "" else " AND " ++ hostCondition s.hosts) =
      "SELECT * FROM cpu WHERE " ++ String.intercalate " AND "
        (["usage_user"].map fun m => m ++ " > 90.0")
      ++ " AND " ++ timeCondition s.window
      ++ if s.hosts = [] then "" else " AND " ++ hostCondition s.hosts
    rw [hcondition]
    simp only [List.isEmpty_iff]
  | maxByMinute metrics hosts hours => rfl

theorem fill_empty (database : String) {t : QueryType} {s : Selection} (h : t.Picks s) :
    Dialect.fill database t s (Dialect.empty : SqlStatement) = asking database (t.question s) := by
  simp only [Dialect.fill, Dialect.empty, fill, Heading.add_empty h, String.empty_append]
  rw [textFor_eq database t s]
  rfl

end SqlStatement

/-! ## All dialects -/

/-- A dialect whose query objects can be emptied, and are filled with the query for what was
picked. -/
class FaithfulDialect (q : Type) [Dialect q] where
  /-- The query of the engine for a question. -/
  asking : String → Question → q
  reset_eq : ∀ x : q, Dialect.reset x = Dialect.empty
  fill_empty : ∀ (database : String) {t : QueryType} {s : Selection}, t.Picks s →
    Dialect.fill database t s Dialect.empty = asking database (t.question s)

instance : FaithfulDialect SeriesPlan where
  asking := SeriesPlan.asking
  reset_eq _ := rfl
  fill_empty := SeriesPlan.fill_empty

instance : FaithfulDialect LineRequest where
  asking := LineRequest.asking
  reset_eq _ := rfl
  fill_empty := LineRequest.fill_empty

instance : FaithfulDialect Pipeline where
  asking := Pipeline.asking
  reset_eq _ := rfl
  fill_empty := Pipeline.fill_empty

instance : FaithfulDialect SqlStatement where
  asking := SqlStatement.asking
  reset_eq _ := rfl
  fill_empty := SqlStatement.fill_empty

end SeriesLoad
