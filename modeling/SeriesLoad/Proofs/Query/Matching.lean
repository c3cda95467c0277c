import SeriesLoad.Proofs.Encoding.DocumentOutput
import SeriesLoad.Proofs.Query.Bounds

/-!
# Documents that a pipeline selects

The first stage of a pipeline is a list of conditions. Each is about the value at the end of a path,
whose keys have points between them, and gives the value that it has to be or the operators that it
has to meet. `Pipeline.selects` evaluates them on a document:

* A path leads through documents in documents (`valueAt?`); there are no arrays in them. A condition
  on a path that leads nowhere does not hold.
* A value compares only with values of its kind (`Value.compare?`). Numbers are of one kind, whole
  or not.

The keys of a point are spelled in its document and once more in the conditions, and so are the
types of its values. **A query selects the documents of the points that it is to select**
(`Pipeline.selects_fill`), as long as no key of a point is there twice and its fields are doubles.
Of a key that is there twice a lookup in the point finds the first value, and a condition the last.
-/

namespace SeriesLoad

namespace Bson

/-! ## Comparisons -/

/-- How a whole number compares with a double, both taken exactly. NaN does not compare. -/
def compareIntFloat (n : Int) (x : Float) : Option Ordering :=
  if x.isNaN then none
  else if x.isInf then some (if 0 < x then .lt else .gt)
  else
    let b := Decimal.Binary.ofBits x.toBits.toNat
    let m : Int := if b.negative then -b.mantissa else b.mantissa
    some (compare (n * 2 ^ (-b.exponent).toNat) (m * 2 ^ b.exponent.toNat))

/-- How two doubles compare. NaN is equal to NaN and does not compare with numbers. -/
def compareFloats (x y : Float) : Option Ordering :=
  if y < x then some .gt
  else if x < y then some .lt
  else if x == y || (x.isNaN && y.isNaN) then some .eq
  else none

namespace Value

/-- How a value of a document compares with a value of a condition, if they are of one kind. -/
def compare? : Value → Json → Option Ordering
  | .int64 n, .int m => some (compare n.toInt m)
  | .int64 n, .float x => compareIntFloat n.toInt x
  | .double x, .int m => (compareIntFloat m x.toFloat).map Ordering.swap
  | .double x, .float y => compareFloats x.toFloat y
  | .string s, .str t => some (compare s t)
  | .boolean a, .bool b => some (compare a b)
  | _, _ => none

/-- Whether a value is the one of a condition. -/
def equals (v : Value) (j : Json) : Bool := v.compare? j == some .eq

/-- Whether a value meets an operator of a condition. -/
def meets (v : Value) : String × Json → Bool
  | ("$gte", j) => (v.compare? j).any Ordering.isGE
  | ("$gt", j) => (v.compare? j).any Ordering.isGT
  | ("$lt", j) => (v.compare? j).any Ordering.isLT
  | ("$in", .arr items) => items.any v.equals
  | _ => false

/-- Whether a value is as a condition wants it: it meets all operators, or is the value that is
written there. -/
def satisfies (v : Value) : Json → Bool
  | .obj operators => operators.all v.meets
  | j => v.equals j

theorem equals_string {s t : String} : (Value.string s).equals (.str t) = true ↔ s = t := by
  simp [equals, compare?]

theorem satisfies_string {s t : String} : (Value.string s).satisfies (.str t) = true ↔ s = t :=
  equals_string

theorem satisfies_obj {v : Value} {operators : List (String × Json)} :
    v.satisfies (.obj operators) = true ↔ ∀ o ∈ operators, v.meets o = true :=
  List.all_eq_true

theorem meets_gte_int {n : Int64} {m : Int} :
    (Value.int64 n).meets ("$gte", .int m) = true ↔ m ≤ n.toInt := by
  simp [meets, compare?, Std.isGE_compare]

theorem meets_lt_int {n : Int64} {m : Int} :
    (Value.int64 n).meets ("$lt", .int m) = true ↔ n.toInt < m := by
  simp [meets, compare?, Int.compare_eq_lt]

theorem meets_gt_float {x : Binary64} {y : Float} :
    (Value.double x).meets ("$gt", .float y) = true ↔ y < x.toFloat := by
  by_cases h : y < x.toFloat
  · simp [meets, compare?, compareFloats, h]
  · simp only [meets, compare?, compareFloats, h, if_false, iff_false]
    split_ifs <;> simp

theorem meets_in {s : String} {texts : List String} :
    (Value.string s).meets ("$in", .arr (texts.map .str)) = true ↔ s ∈ texts := by
  simp [meets, equals_string]

end Value

/-! ## Paths -/

/-- The value at the end of a path of keys. -/
def valueAt? : List String → Document → Option Value
  | [], _ => none
  | [key], d => d.lookup key
  | key :: next :: rest, d =>
    match d.lookup key with
    | some (.document members) => valueAt? (next :: rest) members
    | _ => none

/-- The keys of a path. -/
def keysOf (path : String) : List String := (path.toList.splitOn '.').map String.ofList

/-- Whether a condition holds of a document. -/
def Document.holds (d : Document) (condition : String × Json) : Bool :=
  (valueAt? (keysOf condition.1) d).any fun v => v.satisfies condition.2

theorem Document.holds_eq {d : Document} {path : String} {v : Value}
    (h : valueAt? (keysOf path) d = some v) (j : Json) : d.holds (path, j) = v.satisfies j := by
  rw [holds, h, Option.any_some]

theorem Document.holds_eq_false {d : Document} {path : String}
    (h : valueAt? (keysOf path) d = none) (j : Json) : d.holds (path, j) = false := by
  rw [holds, h, Option.any_none]

end Bson

/-- Whether the first stage of a pipeline lets a document through: all its conditions hold. -/
def Pipeline.selects (x : Pipeline) (d : Bson.Document) : Bool :=
  match x.stages.head?.bind (Json.member? "$match") with
  | some (.obj conditions) => conditions.all d.holds
  | _ => false

/-! ## Documents of points -/

/-- The value of a key is the one of its first pair. -/
theorem lookup_eq_find? {α : Type} (key : String) (pairs : List (String × α)) :
    pairs.lookup key = (pairs.find? fun pair => pair.1 == key).map (·.2) := by
  induction pairs with
  | nil => rfl
  | cons pair rest ih =>
    rw [Bson.lookup_cons, List.find?_cons, ih]
    by_cases h : key = pair.1
    · simp [h]
    · rw [if_neg h, beq_eq_false_iff_ne.mpr (Ne.symm h)]

/-- If no key is there twice, the value of a key is the one of its last pair, too. -/
theorem lookup_reverse {α : Type} {pairs : List (String × α)} (h : (pairs.map (·.1)).Nodup)
    (key : String) : pairs.reverse.lookup key = pairs.lookup key := by
  induction pairs with
  | nil => rfl
  | cons pair rest ih =>
    rw [List.map_cons, List.nodup_cons] at h
    rw [List.reverse_cons, List.lookup_append, ih h.2, Bson.lookup_cons, Bson.lookup_cons]
    by_cases hkey : key = pair.1
    · have hnone : rest.lookup key = none := by
        rw [List.lookup_eq_none_iff]
        intro other hother
        rw [bne_iff_ne]
        rintro rfl
        exact h.1 (hkey ▸ List.mem_map_of_mem hother)
      rw [if_pos hkey, if_pos hkey, hnone, Option.none_or]
    · rw [if_neg hkey, if_neg hkey, List.lookup_nil, Option.or_none]

theorem Point.nanos_mem (q : Point) : Instant.minWord ≤ q.nanos ∧ q.nanos ≤ Instant.maxWord :=
  q.time.unixNanos_mem

/-- A point has no key twice, neither a tag nor a field, and all its fields are doubles. -/
structure Point.Plain (q : Point) : Prop where
  tags : (q.tags.toList.map (·.1)).Nodup
  fields : (q.fields.toList.map (·.1)).Nodup
  floats : ∀ field ∈ q.fields.toList, ∃ x, field.2 = .float x

theorem Point.Plain.exists_float {q : Point} (h : q.Plain) {key : String} {v : FieldValue}
    (hv : q.field? key = some v) : ∃ x, v = .float x := by
  obtain ⟨field, hfind, rfl⟩ := Option.map_eq_some_iff.mp hv
  exact h.floats field (Array.mem_toList_iff.mpr (Array.mem_of_find?_eq_some hfind))

namespace PointDocument

open Bson

variable {q : Point}

theorem valueAt?_tag (h : q.Plain) (key : String) :
    valueAt? ["tags", key] (ofPoint q) = (q.tag? key).map .string := by
  change (tags q.tags.toList).lookup key = _
  rw [tags, Document.lookup_foldl_insert Value.string q.tags.toList,
    lookup_reverse h.tags, lookup_eq_find?, Array.find?_toList, Point.tag?]

theorem valueAt?_field (h : q.Plain) (key : String) :
    valueAt? ["fields", key] (ofPoint q) = (q.field? key).map fieldValue := by
  change (fields q.fields.toList).lookup key = _
  rw [fields, Document.lookup_foldl_insert fieldValue q.fields.toList,
    lookup_reverse h.fields, lookup_eq_find?, Array.find?_toList, Point.field?]

theorem holds_measurement (q : Point) (name : String) :
    (ofPoint q).holds ("measurement", .str name) = true ↔ q.name = name := by
  have hvalue : valueAt? (keysOf "measurement") (ofPoint q) = some (.string q.name) := rfl
  rw [Document.holds_eq hvalue, Value.satisfies_string]

theorem holds_time (q : Point) (first last : Int) :
    (ofPoint q).holds ("timestamp_ns", .obj [("$gte", .int first), ("$lt", .int last)]) = true ↔
      first ≤ q.nanos ∧ q.nanos < last := by
  have hvalue : valueAt? (keysOf "timestamp_ns") (ofPoint q) =
      some (.int64 (Int64.ofInt q.nanos)) := rfl
  obtain ⟨hmin, hmax⟩ := q.nanos_mem
  have hnanos : (Int64.ofInt q.nanos).toInt = q.nanos :=
    Int64.toInt_ofInt_of_le hmin (Int.lt_of_le_sub_one hmax)
  rw [Document.holds_eq hvalue, Value.satisfies_obj, List.forall_mem_cons,
    List.forall_mem_singleton, Value.meets_gte_int, Value.meets_lt_int, hnanos]

theorem holds_host (h : q.Plain) (hosts : List String) :
    (ofPoint q).holds (Pipeline.hostCondition hosts) = true ↔
      ∃ host ∈ hosts, q.tag? "hostname" = some host := by
  have hkeys : keysOf "tags.hostname" = ["tags", "hostname"] := by decide
  have hvalue := valueAt?_tag h "hostname"
  rw [← hkeys] at hvalue
  cases htag : q.tag? "hostname" with
  | none =>
    rw [htag, Option.map_none] at hvalue
    simp [Pipeline.hostCondition, Document.holds_eq_false hvalue]
  | some host =>
    rw [htag, Option.map_some] at hvalue
    rw [Pipeline.hostCondition, Document.holds_eq hvalue, Value.satisfies_obj,
      List.forall_mem_singleton, Value.meets_in]
    simp

theorem holds_over (h : q.Plain) (bound : Float) :
    (ofPoint q).holds ("fields.usage_user", .obj [("$gt", .float bound)]) = true ↔
      ∃ x, q.field? "usage_user" = some (.float x) ∧ bound < x.toFloat := by
  have hkeys : keysOf "fields.usage_user" = ["fields", "usage_user"] := by decide
  have hvalue := valueAt?_field h "usage_user"
  rw [← hkeys] at hvalue
  cases hfield : q.field? "usage_user" with
  | none =>
    rw [hfield, Option.map_none] at hvalue
    simp [Document.holds_eq_false hvalue]
  | some v =>
    obtain ⟨x, rfl⟩ := h.exists_float hfield
    rw [hfield, Option.map_some, fieldValue] at hvalue
    rw [Document.holds_eq hvalue, Value.satisfies_obj, List.forall_mem_singleton,
      Value.meets_gt_float]
    simp

end PointDocument

/-! ## Conditions of queries -/

/-- What a query is to select for what was picked: readings of the processor in the window, of the
hosts that were drawn, unless it is about all hosts, and only high ones if it asks for those. -/
structure QueryType.Selects (t : QueryType) (s : Selection) (q : Point) : Prop where
  name : q.name = "cpu"
  first_le : s.window.start.exactNanos ≤ q.nanos
  lt_last : q.nanos < s.window.stop.exactNanos
  host : t ≠ .highCpu 0 → ∃ host ∈ s.hosts, q.tag? "hostname" = some host
  high : t.kind = .high → ∃ x, q.field? "usage_user" = some (.float x) ∧ 90.0 < x.toFloat

namespace Pipeline

open PointDocument

variable {t : QueryType} {s : Selection} {q : Point}

theorem all_windowConditions (window : Interval) (q : Point) :
    (windowConditions window).all (ofPoint q).holds = true ↔
      q.name = "cpu" ∧ window.start.unixNanos ≤ q.nanos ∧ q.nanos < window.stop.unixNanos := by
  rw [windowConditions, List.all_cons, List.all_cons, List.all_nil, Bool.and_true,
    Bool.and_eq_true, holds_measurement, holds_time, Metric.Cpu.name]

theorem windowConditions_subset (t : QueryType) (s : Selection) :
    windowConditions s.window ⊆ conditions t s := by
  cases t with
  | highCpu hosts =>
    rw [conditions, List.append_assoc]
    exact List.subset_append_left _ _
  | maxByMinute metrics hosts hours => exact List.subset_append_left _ _

theorem all_conditions (h : q.Plain) :
    (conditions t s).all (ofPoint q).holds = true ↔
      (windowConditions s.window).all (ofPoint q).holds = true
        ∧ (t.kind = .high → ∃ x, q.field? "usage_user" = some (.float x) ∧ 90.0 < x.toFloat)
        ∧ (t ≠ .highCpu 0 → ∃ host ∈ s.hosts, q.tag? "hostname" = some host) := by
  cases t with
  | highCpu hosts =>
    by_cases hzero : hosts = 0
    · simp [conditions, hzero, holds_over h, QueryType.kind, QueryType.threshold]
    · simp [conditions, hzero, holds_over h, holds_host h, QueryType.kind, QueryType.threshold]
  | maxByMinute metrics hosts hours =>
    simp [conditions, holds_host h, QueryType.kind]

theorem stages_fill (database : String) (t : QueryType) (s : Selection) :
    (Dialect.fill database t s (Dialect.empty : Pipeline)).stages.head? =
      some (.obj [("$match", .obj (conditions t s))]) := by
  cases t <;> rfl

/-- The query for what was picked selects what it is to select. -/
theorem selects_fill (database : String) (hplain : q.name = "cpu" → q.Plain)
    (hfirst : s.window.start.InWord) (hlast : s.window.stop.exactNanos ≤ Instant.maxWord) :
    (Dialect.fill database t s (Dialect.empty : Pipeline)).selects (ofPoint q) = true ↔
      t.Selects s q := by
  have hwindow := all_windowConditions s.window q
  rw [Instant.unixNanos_of_inWord hfirst,
    Instant.lt_unixNanos_iff hlast q.nanos_mem.1] at hwindow
  have hselects : (Dialect.fill database t s (Dialect.empty : Pipeline)).selects (ofPoint q) =
      (conditions t s).all (ofPoint q).holds := by
    rw [selects, stages_fill]
    rfl
  rw [hselects]
  by_cases hname : q.name = "cpu"
  · rw [all_conditions (hplain hname), hwindow]
    constructor
    · rintro ⟨⟨-, hge, hlt⟩, hhigh, hhost⟩
      exact ⟨hname, hge, hlt, hhost, hhigh⟩
    · rintro ⟨-, hge, hlt, hhost, hhigh⟩
      exact ⟨⟨hname, hge, hlt⟩, hhigh, hhost⟩
  · constructor
    · intro hall
      have hwindowAll : (windowConditions s.window).all (ofPoint q).holds = true :=
        List.all_eq_true.mpr fun condition hcondition =>
          List.all_eq_true.mp hall condition (windowConditions_subset t s hcondition)
      exact absurd (hwindow.mp hwindowAll).1 hname
    · exact fun h => absurd h.name hname

end Pipeline

end SeriesLoad
