import SeriesLoad.Proofs.Json.Scaling
import SeriesLoad.Proofs.Query.Engines

/-!
# Queries as documents

A query is printed as one JSON object. **Whatever the name of the database, the object is read back
from its text** (`PrintedDialect.readable`): all of its numbers fit 64 bits, and the one double in it
is the threshold for high readings (`readsBack_threshold`).

`PrintedDialect` is what the four dialects have in common as documents. The label is a member of each
query, and so is the database under the key of its engine.
-/

namespace SeriesLoad

open Json (Readable ReadsBack)

/-- The members of an object. -/
def Json.members : Json → List (String × Json)
  | .obj members => members
  | _ => []

/-! ## Numbers in queries -/

/-- The threshold for high readings is read back. -/
theorem readsBack_threshold : ReadsBack 90.0 :=
  Json.readsBack_of_isShort (by decide +kernel)
    ⟨by decide +kernel, by decide +kernel, by decide +kernel⟩

theorem readable_unixNanos (depth : Nat) (t : Instant) : Readable depth (.int t.unixNanos) := by
  obtain ⟨hmin, hmax⟩ := t.unixNanos_mem
  refine .int depth hmin ?_
  simp only [Instant.maxWord] at hmax
  omega

theorem readable_strings (depth : Nat) (texts : List String) :
    Readable (depth + 1) (.arr (texts.map .str)) := by
  apply Readable.arr
  intro j hj
  obtain ⟨text, -, rfl⟩ := List.mem_map.mp hj
  exact .str depth text

/-- An object with one member. -/
theorem readable_single {depth : Nat} (key : String) {j : Json} (h : Readable depth j) :
    Readable (depth + 1) (.obj [(key, j)]) := by
  apply Readable.obj
  intro m hm
  rw [List.mem_singleton.mp hm]
  exact h

/-! ## The queries of each engine -/

namespace SeriesPlan

theorem bucketNanos_asking (database : String) (q : Question) :
    (asking database q).bucketNanos = 0 ∨ (asking database q).bucketNanos = 60000000000 := by
  unfold asking
  cases q.kind with
  | high => exact .inl rfl
  | byMinute => exact .inr rfl

theorem readable_asking (database : String) (q : Question) :
    ∀ m ∈ (asking database q).toJson.members, Readable 126 m.2 := by
  have hbucket : Readable 126 (.int (asking database q).bucketNanos) := by
    rcases bucketNanos_asking database q with h | h
    · exact h ▸ .int 126 (by decide) (by decide)
    · exact h ▸ .int 126 (by decide) (by decide)
  have htags : Readable (125 + 1)
      (.arr ((asking database q).tagSets.map fun tags => .arr (tags.map .str))) := by
    apply Readable.arr
    intro j hj
    obtain ⟨tags, -, rfl⟩ := List.mem_map.mp hj
    exact readable_strings 124 tags
  simp only [toJson, Json.members, List.forall_mem_cons, List.not_mem_nil, false_implies,
    implies_true, and_true]
  exact ⟨.str _ _, .str _ _, .str _ _, .str _ _, readable_strings 125 _, .str _ _, .str _ _,
    readable_unixNanos _ _, readable_unixNanos _ _, hbucket, htags⟩

end SeriesPlan

namespace LineRequest

theorem readable_toJson (r : LineRequest) : ∀ m ∈ r.toJson.members, Readable 126 m.2 := by
  simp only [toJson, Json.members, List.forall_mem_cons, List.not_mem_nil, false_implies,
    implies_true, and_true]
  exact ⟨.str _ _, .str _ _, .str _ _, .str _ _, .str _ _, .str _ _⟩

end LineRequest

namespace SqlStatement

theorem readable_toJson (q : SqlStatement) : ∀ m ∈ q.toJson.members, Readable 126 m.2 := by
  simp only [toJson, Json.members, List.forall_mem_cons, List.not_mem_nil, false_implies,
    implies_true, and_true]
  exact ⟨.str _ _, .str _ _, .str _ _, .str _ _, .str _ _⟩

end SqlStatement

namespace Pipeline

theorem readable_windowConditions (depth : Nat) (window : Interval) :
    ∀ m ∈ windowConditions window, Readable (depth + 1) m.2 := by
  have hbounds : Readable (depth + 1) (.obj [
      ("$gte", .int window.start.unixNanos), ("$lt", .int window.stop.unixNanos)]) := by
    refine .obj ?_
    simp only [List.forall_mem_cons, List.not_mem_nil, false_implies, implies_true, and_true]
    exact ⟨readable_unixNanos _ _, readable_unixNanos _ _⟩
  simp only [windowConditions, List.forall_mem_cons, List.not_mem_nil, false_implies, implies_true,
    and_true]
  exact ⟨.str _ _, hbounds⟩

theorem readable_hostCondition (depth : Nat) (hosts : List String) :
    Readable (depth + 2) (hostCondition hosts).2 :=
  readable_single "$in" (readable_strings depth hosts)

theorem readable_minuteStart (depth : Nat) : Readable (depth + 4) minuteStart := by
  have hminute : Readable (depth + 1) (.arr [.str "$timestamp_ns", .int QueryType.minuteNanos]) := by
    refine .arr ?_
    simp only [List.forall_mem_cons, List.not_mem_nil, false_implies, implies_true, and_true]
    exact ⟨.str _ _, .int _ (by decide) (by decide)⟩
  have hrest : Readable (depth + 2)
      (.obj [("$mod", .arr [.str "$timestamp_ns", .int QueryType.minuteNanos])]) :=
    readable_single "$mod" hminute
  apply readable_single "$subtract"
  apply Readable.arr
  simp only [List.forall_mem_cons, List.not_mem_nil, false_implies, implies_true, and_true]
  exact ⟨.str _ _, hrest⟩

/-- The stages of a question nest six levels deep at most. -/
theorem readable_stages (depth : Nat) (database : String) (q : Question) :
    ∀ stage ∈ (asking database q).stages, Readable (depth + 6) stage := by
  unfold asking
  have hwindow := readable_windowConditions (depth + 3) q.window
  have hhosts := readable_hostCondition (depth + 2) q.hosts
  cases q.kind with
  | high =>
    simp only [List.forall_mem_cons, List.not_mem_nil, false_implies, implies_true, and_true]
    apply readable_single "$match"
    apply Readable.obj
    rw [List.forall_mem_append, List.forall_mem_append]
    refine ⟨⟨hwindow, ?_⟩, ?_⟩
    · intro m hm
      obtain ⟨metric, -, rfl⟩ := List.mem_map.mp hm
      exact readable_single "$gt" (.float _ readsBack_threshold)
    · intro m hm
      split_ifs at hm
      · exact absurd hm List.not_mem_nil
      · rw [List.mem_singleton.mp hm]
        exact hhosts
  | byMinute =>
    simp only [List.forall_mem_cons, List.not_mem_nil, false_implies, implies_true, and_true]
    refine ⟨readable_single "$match" (.obj ?_), readable_single "$group" (.obj ?_),
      readable_single "$sort" (readable_single "_id" (.int _ (by decide) (by decide)))⟩
    · rw [List.forall_mem_append]
      refine ⟨hwindow, ?_⟩
      intro m hm
      rw [List.mem_singleton.mp hm]
      exact hhosts
    · rw [List.forall_mem_cons]
      refine ⟨readable_minuteStart depth, ?_⟩
      intro m hm
      obtain ⟨metric, -, rfl⟩ := List.mem_map.mp hm
      exact readable_single "$max" (.str _ _)

theorem readable_asking (database : String) (q : Question) :
    ∀ m ∈ (asking database q).toJson.members, Readable 126 m.2 := by
  have hstages : Readable (125 + 1) (.arr (asking database q).stages) :=
    .arr (readable_stages 119 database q)
  simp only [toJson, Json.members, List.forall_mem_cons, List.not_mem_nil, false_implies,
    implies_true, and_true]
  exact ⟨.str _ _, .str _ _, .str _ _, .str _ _, hstages⟩

end Pipeline

/-! ## All dialects -/

/-- A dialect whose queries are printed as objects that have the label and the database among their
members. -/
class PrintedDialect (q : Type) [Dialect q] [FaithfulDialect q] where
  /-- The engine, as labels have it. -/
  engine : String
  /-- The key of the database. -/
  databaseKey : String
  heading_asking : ∀ (database : String) (question : Question),
    Dialect.heading (FaithfulDialect.asking database question : q) = question.heading engine
  toJson_eq : ∀ x : q, Dialect.toJson x = .obj (Dialect.toJson x).members
  label_mem : ∀ x : q, ("human_label", .str (Dialect.heading x).label) ∈ (Dialect.toJson x).members
  database_mem : ∀ (database : String) (question : Question), (databaseKey, .str database) ∈
    (Dialect.toJson (FaithfulDialect.asking database question : q)).members
  readable_members : ∀ (database : String) (question : Question),
    ∀ m ∈ (Dialect.toJson (FaithfulDialect.asking database question : q)).members,
      Readable 126 m.2

instance : PrintedDialect SeriesPlan where
  engine := "Cassandra"
  databaseKey := "keyspace"
  heading_asking _ _ := rfl
  toJson_eq _ := rfl
  label_mem _ := List.mem_cons_self
  database_mem _ _ := .tail _ (.tail _ (.head _))
  readable_members := SeriesPlan.readable_asking

instance : PrintedDialect LineRequest where
  engine := "Influx"
  databaseKey := "database"
  heading_asking _ _ := rfl
  toJson_eq _ := rfl
  label_mem _ := List.mem_cons_self
  database_mem _ _ := .tail _ (.tail _ (.tail _ (.tail _ (.head _))))
  readable_members database question := LineRequest.readable_toJson (.asking database question)

instance : PrintedDialect Pipeline where
  engine := "Mongo"
  databaseKey := "database_name"
  heading_asking _ _ := rfl
  toJson_eq _ := rfl
  label_mem _ := List.mem_cons_self
  database_mem _ _ := .tail _ (.tail _ (.head _))
  readable_members := Pipeline.readable_asking

instance : PrintedDialect SqlStatement where
  engine := "TimescaleDB"
  databaseKey := "database"
  heading_asking _ _ := rfl
  toJson_eq _ := rfl
  label_mem _ := List.mem_cons_self
  database_mem _ _ := .tail _ (.tail _ (.head _))
  readable_members database question := SqlStatement.readable_toJson (.asking database question)

namespace PrintedDialect

variable {q : Type} [Dialect q] [FaithfulDialect q] [PrintedDialect q]

/-- A query is read back from its text. -/
theorem readable (database : String) (question : Question) :
    Readable Json.maxDepth (Dialect.toJson (FaithfulDialect.asking database question : q)) := by
  rw [toJson_eq]
  exact .obj (readable_members database question)

end PrintedDialect

end SeriesLoad
