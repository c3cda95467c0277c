import SeriesLoad.Proofs.Query.Questions
import SeriesLoad.Proofs.Query.Quotes
import SeriesLoad.Proofs.Query.Window
import SeriesLoad.Settings

/-!
# The bounds of a query, read back

`Text.boundAfter?` splits a statement at its quotes, takes the first text that is quoted behind a
mark and reads it as settings read instants. **In the statements for a question it finds both bounds
of the window** (`LineRequest.bounds_asking`, `SqlStatement.bounds_asking`). A plan and a pipeline
have the counts of nanoseconds of the same instants (`SeriesPlan.bounds_asking`,
`Pipeline.bounds_asking`).
-/

namespace SeriesLoad

/-- The instant that is quoted behind a mark. -/
def Text.boundAfter? (mark statement : String) : Option Instant :=
  (quotedAfter? mark.toList (statement.toList.splitOn quoteMark)).bind fun cs =>
    (Settings.instant (String.ofList cs)).toOption

/-! ## Texts of instants -/

/-- The text of an instant has digits and a few marks in it, no other character. -/
theorem Rfc3339.not_mem_chars {c : Char} (hdigit : c.isDigit = false)
    (hmark : c ∉ ['-', '+', '.', ':', 'T', 'Z']) (t : Instant) : c ∉ chars t := by
  have hpadded : ∀ width n, c ∉ Text.padded width n := by
    intro width n hmem
    rw [Text.isDigit_of_mem_padded hmem] at hdigit
    cases hdigit
  simp only [List.mem_cons, List.not_mem_nil, or_false, not_or] at hmark
  have hfraction : ∀ nanos, c ∉ fractionChars nanos := by
    intro nanos
    unfold fractionChars
    split_ifs <;> simp [hpadded, hmark]
  have hyear : c ∉ Date.yearChars t.date.year := by
    unfold Date.yearChars
    split_ifs <;> simp [hpadded, hmark]
  simp [chars, Date.chars, hpadded, hfraction, hyear, hmark]

theorem Rfc3339.quoteMark_not_mem_chars (t : Instant) : Text.quoteMark ∉ chars t :=
  not_mem_chars (by decide) (by decide) t

theorem Instant.Fits.boundAfter? {t : Instant} (h : t.Fits) {mark statement : String}
    (hquoted : Text.quotedAfter? mark.toList (statement.toList.splitOn Text.quoteMark) =
      some (Rfc3339.chars t)) : Text.boundAfter? mark statement = some t := by
  have hread : Settings.instant (Rfc3339.render t) = .ok t := by
    rw [Settings.instant, h.parse_render]
  rw [Text.boundAfter?, hquoted, Option.bind_some, ← Rfc3339.render, hread]
  rfl

/-- What is quoted for a window that fits is read back as its bounds. -/
theorem Interval.Fits.boundAfter? {window : Interval} (h : window.Fits) {statement : String}
    (hquotes : Text.Quotes statement.toList (Rfc3339.chars window.start)
      (Rfc3339.chars window.stop)) :
    Text.boundAfter? "time >= " statement = some window.start
      ∧ Text.boundAfter? "time < " statement = some window.stop :=
  ⟨h.start.boundAfter? hquotes.1, h.stop.boundAfter? hquotes.2⟩

/-! ## Statements -/

namespace Question

/-- Names that can stand in quotes. -/
structure Quotable (q : Question) : Prop where
  hosts : ∀ host ∈ q.hosts, Text.quoteMark ∉ host.toList
  metrics : ∀ metric ∈ q.metrics, Text.quoteMark ∉ metric.toList

/-- The conditions on metrics have no quotes. -/
theorem Quotable.over {q : Question} (h : q.Quotable) {sep : String}
    (hsep : Text.quoteMark ∉ sep.toList) :
    Text.quoteMark ∉ (String.intercalate sep (q.metrics.map fun m => m ++ " > 90.0")).toList := by
  refine Text.quoteMark_not_mem_intercalate hsep (List.forall_mem_map.mpr fun m hm => ?_)
  exact Text.quoteMark_not_mem_append.mpr ⟨h.metrics m hm, by decide⟩

end Question

namespace LineRequest

theorem toList_timeCondition (window : Interval) (rest : List Char) :
    (timeCondition window).toList ++ rest = Text.boundChars " and ".toList
      (Rfc3339.chars window.start) (Rfc3339.chars window.stop) rest := by
  unfold Text.boundChars
  simp [timeCondition, Interval.startText, Interval.stopText, Rfc3339.render, Text.quoteMark]

theorem toList_hostCondition (hosts : List String) :
    (hostCondition hosts).toList = "(".toList ++ " or ".toList.intercalate (hosts.map fun h =>
      "hostname = ".toList ++ Text.quoteMark :: (h.toList ++ [Text.quoteMark])) ++ ")".toList := by
  simp [hostCondition, Text.quoteMark, Function.comp_def]

/-- Behind the condition on hosts the bounds are found. -/
theorem quotes_conditions (window : Interval) {hosts : List String}
    (hhosts : ∀ host ∈ hosts, Text.quoteMark ∉ host.toList) {lead : List Char}
    (hlead : Text.quoteMark ∉ lead) (rest : List Char) :
    Text.Quotes (lead ++ ((hostCondition hosts).toList ++ (" and ".toList ++
      ((timeCondition window).toList ++ rest))))
      (Rfc3339.chars window.start) (Rfc3339.chars window.stop) := by
  have hopened : Text.Harmless (lead ++ "(".toList ++ "hostname = ".toList) := by
    rw [List.append_assoc]
    exact Text.Harmless.append hlead (by decide) (by decide)
  have hbehind := Text.Quotes.boundsBehind " or ".toList (")".toList ++ " and ".toList)
    " and ".toList (by decide) hopened hhosts (by decide) (by decide)
    (Rfc3339.quoteMark_not_mem_chars window.start) (Rfc3339.quoteMark_not_mem_chars window.stop)
    rest
  rw [toList_hostCondition, toList_timeCondition]
  simpa only [List.append_assoc] using hbehind

/-- The bounds in the statement for a question are those of its window. -/
theorem quotes_asking (database : String) {q : Question} (h : q.Quotable) :
    Text.Quotes (asking database q).statement.toList (Rfc3339.chars q.window.start)
      (Rfc3339.chars q.window.stop) := by
  cases hkind : q.kind with
  | high =>
    have hlead : Text.quoteMark ∉ ("SELECT * from cpu where " ++ String.intercalate " and "
        (q.metrics.map fun m => m ++ " > 90.0") ++ " and ").toList := by
      rw [Text.quoteMark_not_mem_append, Text.quoteMark_not_mem_append]
      exact ⟨⟨by decide, h.over (by decide)⟩, by decide⟩
    by_cases hhosts : q.hosts = []
    · have := Text.Quotes.bounds " and ".toList hlead (by decide)
        (Rfc3339.quoteMark_not_mem_chars q.window.start)
        (Rfc3339.quoteMark_not_mem_chars q.window.stop) []
      rw [← toList_timeCondition, List.append_nil] at this
      simp only [asking, hkind, if_pos hhosts, String.append_empty]
      simpa only [String.toList_append, List.append_assoc] using this
    · have := quotes_conditions q.window h.hosts hlead []
      rw [List.append_nil] at this
      simp only [asking, hkind, if_neg hhosts]
      simpa only [String.toList_append, List.append_assoc] using this
  | byMinute =>
    have hlead : Text.quoteMark ∉ ("SELECT " ++ String.intercalate ","
        (q.metrics.map fun m => "max(" ++ m ++ ")") ++ " from cpu where ").toList := by
      rw [Text.quoteMark_not_mem_append, Text.quoteMark_not_mem_append]
      refine ⟨⟨by decide, Text.quoteMark_not_mem_intercalate (by decide) ?_⟩, by decide⟩
      refine List.forall_mem_map.mpr fun m hm => ?_
      rw [Text.quoteMark_not_mem_append, Text.quoteMark_not_mem_append]
      exact ⟨⟨by decide, h.metrics m hm⟩, by decide⟩
    have := quotes_conditions q.window h.hosts hlead " group by time(1m)".toList
    simp only [asking, hkind]
    simpa only [String.toList_append, List.append_assoc] using this

/-- The bounds in the request for a question are read back. -/
theorem bounds_asking (database : String) {q : Question} (h : q.Quotable)
    (hwindow : q.window.Fits) :
    Text.boundAfter? "time >= " (asking database q).statement = some q.window.start
      ∧ Text.boundAfter? "time < " (asking database q).statement = some q.window.stop :=
  hwindow.boundAfter? (quotes_asking database h)

end LineRequest

namespace SqlStatement

theorem toList_timeCondition (window : Interval) (rest : List Char) :
    (timeCondition window).toList ++ rest = Text.boundChars " AND ".toList
      (Rfc3339.chars window.start) (Rfc3339.chars window.stop) rest := by
  unfold Text.boundChars
  simp [timeCondition, Interval.startText, Interval.stopText, Rfc3339.render, Text.quoteMark]

theorem toList_hostCondition (hosts : List String) :
    (hostCondition hosts).toList = "hostname IN (".toList ++ ",".toList.intercalate (hosts.map
      fun h => [] ++ Text.quoteMark :: (h.toList ++ [Text.quoteMark])) ++ ")".toList := by
  simp [hostCondition, Text.quoteMark, Function.comp_def]

/-- Behind the condition on hosts the bounds are found. -/
theorem quotes_conditions (window : Interval) {hosts : List String}
    (hhosts : ∀ host ∈ hosts, Text.quoteMark ∉ host.toList) {lead : List Char}
    (hlead : Text.quoteMark ∉ lead) (rest : List Char) :
    Text.Quotes (lead ++ ((hostCondition hosts).toList ++ (" AND ".toList ++
      ((timeCondition window).toList ++ rest))))
      (Rfc3339.chars window.start) (Rfc3339.chars window.stop) := by
  have hopened : Text.Harmless (lead ++ "hostname IN (".toList ++ []) := by
    rw [List.append_nil]
    exact Text.Harmless.append hlead (by decide) (by decide)
  have hbehind := Text.Quotes.boundsBehind ",".toList (")".toList ++ " AND ".toList)
    " AND ".toList (by decide) hopened hhosts (by decide) (by decide)
    (Rfc3339.quoteMark_not_mem_chars window.start) (Rfc3339.quoteMark_not_mem_chars window.stop)
    rest
  rw [toList_hostCondition, toList_timeCondition]
  simpa only [List.append_assoc] using hbehind

/-- The bounds in the statement for a question are those of its window. -/
theorem quotes_asking (database : String) {q : Question} (h : q.Quotable) :
    Text.Quotes (asking database q).text.toList (Rfc3339.chars q.window.start)
      (Rfc3339.chars q.window.stop) := by
  cases hkind : q.kind with
  | high =>
    have hlead : Text.quoteMark ∉ ("SELECT * FROM cpu WHERE " ++ String.intercalate " AND "
        (q.metrics.map fun m => m ++ " > 90.0") ++ " AND ").toList := by
      rw [Text.quoteMark_not_mem_append, Text.quoteMark_not_mem_append]
      exact ⟨⟨by decide, h.over (by decide)⟩, by decide⟩
    have := Text.Quotes.bounds " AND ".toList hlead (by decide)
      (Rfc3339.quoteMark_not_mem_chars q.window.start)
      (Rfc3339.quoteMark_not_mem_chars q.window.stop)
      (if q.hosts = [] then "" else " AND " ++ hostCondition q.hosts).toList
    rw [← toList_timeCondition] at this
    simp only [asking, hkind]
    simpa only [String.toList_append, List.append_assoc] using this
  | byMinute =>
    -- the length of a bucket is in quotes as well
    have hbucket : "SELECT time_bucket('1 minute', time) AS minute".toList =
        "SELECT time_bucket(".toList ++ Text.quoteMark :: ("1 minute".toList ++ Text.quoteMark ::
          ", time) AS minute".toList) := by decide
    have hlead : Text.quoteMark ∉ (", time) AS minute"
        ++ String.join (q.metrics.map fun m => ", max(" ++ m ++ ") AS max_" ++ m)
        ++ " FROM cpu WHERE ").toList := by
      rw [Text.quoteMark_not_mem_append, Text.quoteMark_not_mem_append, String.toList_join]
      refine ⟨⟨by decide, ?_⟩, by decide⟩
      simp only [List.mem_flatMap, List.mem_map, not_exists, not_and]
      rintro _ ⟨m, hm, rfl⟩
      rw [Text.quoteMark_not_mem_append, Text.quoteMark_not_mem_append,
        Text.quoteMark_not_mem_append]
      exact ⟨⟨⟨by decide, h.metrics m hm⟩, by decide⟩, h.metrics m hm⟩
    have := quotes_conditions q.window h.hosts hlead " GROUP BY minute ORDER BY minute ASC".toList
    have houtside : Text.Harmless "SELECT time_bucket(".toList := by decide
    have hinside : Text.quoteMark ∉ "1 minute".toList := by decide
    have := Text.Quotes.skip houtside hinside this
    simp only [asking, hkind]
    simpa only [String.toList_append, hbucket, List.append_assoc, List.cons_append] using this

/-- The bounds in the statement for a question are read back. -/
theorem bounds_asking (database : String) {q : Question} (h : q.Quotable)
    (hwindow : q.window.Fits) :
    Text.boundAfter? "time >= " (asking database q).text = some q.window.start
      ∧ Text.boundAfter? "time < " (asking database q).text = some q.window.stop :=
  hwindow.boundAfter? (quotes_asking database h)

end SqlStatement

/-! ## Counts -/

/-- The value of a member of an object. -/
def Json.member? (key : String) : Json → Option Json
  | .obj members => members.lookup key
  | _ => none

namespace Pipeline

/-- The number that times are compared with in the first stage. -/
def bound? (comparison : String) (p : Pipeline) : Option Int :=
  match ((p.stages.head?.bind (Json.member? "$match")).bind
    (Json.member? "timestamp_ns")).bind (Json.member? comparison) with
  | some (.int n) => some n
  | _ => none

/-- The bounds in the pipeline for a question are counts of the bounds of its window. -/
theorem bounds_asking (database : String) {q : Question} (hwindow : q.window.Fits) :
    (asking database q).bound? "$gte" = some q.window.start.exactNanos
      ∧ (asking database q).bound? "$lt" = some q.window.stop.exactNanos := by
  rw [← hwindow.start.unixNanos_eq, ← hwindow.stop.unixNanos_eq]
  cases hkind : q.kind with
  | high =>
    simp only [asking, hkind]
    exact ⟨rfl, rfl⟩
  | byMinute =>
    simp only [asking, hkind]
    exact ⟨rfl, rfl⟩

end Pipeline

/-- The bounds in the plan for a question are counts of the bounds of its window. -/
theorem SeriesPlan.bounds_asking (database : String) {q : Question} (hwindow : q.window.Fits) :
    (asking database q).startNanos = q.window.start.exactNanos
      ∧ (asking database q).stopNanos = q.window.stop.exactNanos :=
  ⟨hwindow.start.unixNanos_eq, hwindow.stop.unixNanos_eq⟩

end SeriesLoad
