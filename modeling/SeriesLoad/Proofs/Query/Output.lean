import SeriesLoad.Proofs.Query.Documents
import SeriesLoad.Proofs.Run.Course
import SeriesLoad.QueryJob

/-!
# Query jobs write all or nothing

A query job makes its queries one after the other, and has written the earlier ones when a later one
fails. But whether a query can be made depends on the interval, the number of hosts and the type of
the query, which are the same for all queries of a job, and not on what is drawn
(`Engine.At.dispatch_cases`). So **a job fails before its first line or not at all**
(`queries_all_or_nothing`); if it does not fail then its output is a line for each query, which is
read back as the object of the query.
-/

namespace SeriesLoad

variable {γ : Type} [Words γ]

/-! ## Types of query that have a name -/

/-- Few numbers can be drawn of any length. -/
theorem Draw.requireSampleable_of_lt {amount : Nat} (h : amount < wideLength) (length : Nat) :
    requireSampleable length amount = .ok () := by
  have hroom : amount ≤ roomLimit := Nat.le_of_lt (Nat.lt_trans h (by decide))
  have hnot : ¬ (wideLength ≤ length ∧ length ≤ amount) := by omega
  rw [requireSampleable, requireRoom, if_pos hroom]
  simp only [if_neg hnot, bind, Except.bind, pure, Except.pure]

namespace QueryType

/-- What is used of a type of query in the catalogue: few hosts, and a window of twelve hours or
less. -/
structure Small (t : QueryType) : Prop where
  hosts : t.hostCount < Draw.wideLength
  hours_pos : 0 < t.hours
  hours_le : t.hours ≤ 12

theorem small_of_mem_catalogue {t : QueryType} (h : t ∈ catalogue) : t.Small := by
  have hall : ∀ t ∈ catalogue,
      t.hostCount < Draw.wideLength ∧ 0 < t.hours ∧ t.hours ≤ 12 := by decide
  obtain ⟨hhosts, hpos, hle⟩ := hall t h
  exact ⟨hhosts, hpos, hle⟩

theorem Small.askable {t : QueryType} (h : t.Small) {all : Interval} (hall : all.Fits) :
    t.Askable all := by
  cases t with
  | highCpu hosts => trivial
  | maxByMinute metrics hosts hours =>
    have hpos : 0 < hours := h.hours_pos
    have hle : hours ≤ 12 := h.hours_le
    have hspan : Span.ofHours? hours = some ⟨hours * 3600000 * 1000000⟩ := by
      rw [Span.ofHours?, Span.ofMillis?, if_pos]
      simp only [Span.maxMillis]
      omega
    refine ⟨hpos, _, hspan, ?_⟩
    have hmin := hall.stop.min_le
    have hmax := hall.stop.le_max
    rw [Instant.add?_of_not_leap hall.stop.not_leap]
    obtain ⟨last, hlast, -⟩ := Instant.ofNanos?_of_mem
      (n := all.stop.exactNanos + -(hours * 3600000 * 1000000))
      (by simp only [Instant.minNanos, Instant.minWord, nanosPerSecond] at *; omega)
      (by simp only [Instant.maxNanos, Instant.maxWord, nanosPerSecond] at *; omega)
    exact Option.isSome_iff_exists.mpr ⟨last, hlast⟩

/-- All questions of a type have its label. -/
theorem Asks.label_eq {t : QueryType} {all : Interval} {q : Question} (h : t.Asks all q) :
    q.label = t.label := by
  have hpicks : t.Picks ⟨q.window, q.hosts⟩ := ⟨h.length, h.hosts⟩
  have hquestion : t.question ⟨q.window, q.hosts⟩ = q := by
    rw [question, ← h.kind, ← h.metrics]
  rw [← label_question hpicks, hquestion]

end QueryType

/-! ## One query -/

namespace Engine

variable {q : Type} [Dialect q] [FaithfulDialect q] {e : Engine γ q} {database : String}
  {all : Interval} {words : γ} {t : QueryType} {n : Nat}

/-- The engine makes a query where one is possible, and has an error where none is. Which of both it
is does not depend on the words. -/
theorem At.dispatch_cases (h : e.At database all words) (hall : all.Fits) (ht : t.Small) :
    (t.Possible all n ∧ ∃ question words' e',
        e.dispatch t n = .ok (.ok (FaithfulDialect.asking database question), e')
        ∧ t.Asks all question ∧ e'.At database all words')
      ∨ (¬ t.Possible all n ∧ ∃ err e', e.dispatch t n = .ok (.error err, e')) := by
  have hask := ht.askable hall
  have hroom := Draw.requireSampleable_of_lt ht.hosts n
  rcases QueryType.draw_cases hall hask n words with
    ⟨f, -, hnone⟩ | ⟨hnot, err, words₁, hdraw⟩ | ⟨hpossible, s, words₁, hdraw, -, hasks⟩
  · rw [hroom] at hnone
    cases hnone
  · rcases h.dispatch hall hask n with ⟨f, hfault, -⟩ | ⟨result, words', e', hdrawn, hmade, -⟩
    · rw [hdraw] at hfault
      cases hfault
    · rw [hdraw] at hdrawn
      cases hdrawn
      exact .inr ⟨hnot, err, e', hmade⟩
  · rcases h.dispatch hall hask n with ⟨f, hfault, -⟩ | ⟨result, words', e', hdrawn, hmade, hat⟩
    · rw [hdraw] at hfault
      cases hfault
    · rw [hdraw] at hdrawn
      cases hdrawn
      exact .inl ⟨hpossible, t.question s, words₁, e', hmade, hasks, hat⟩

end Engine

/-! ## All queries of a job -/

namespace QueryJob

/-- The counts after so many queries with one label. -/
def tally (label : String) (n : Nat) : Counts := if n = 0 then [] else [(label, n)]

theorem add_tally (label : String) (n : Nat) : (tally label n).add label = tally label (n + 1) := by
  unfold tally
  by_cases hzero : n = 0
  · rw [if_pos hzero, hzero]
    rfl
  · rw [if_neg hzero, if_neg (Nat.succ_ne_zero n), Counts.add, if_pos rfl]

/-- The characters of the line of a query, without its end. -/
def lineChars {q : Type} [Dialect q] (x : q) : List Char := (Dialect.toJson x).chars

theorem line_eq {q : Type} [Dialect q] (x : q) : line x = String.ofList (lineChars x ++ ['\n']) := by
  rw [line, Json.render, lineChars, String.ofList_append]

theorem generateIn_of_le {q : Type} [Dialect q] {j : QueryJob} (h : j.stop ≤ j.start) (out : Sink) :
    j.generateIn q out = (out, .error (.interval (.inverted j.start j.stop))) := by
  rw [generateIn, Interval.between, if_pos h]

theorem generateIn_of_lt {q : Type} [Dialect q] {j : QueryJob} (h : j.start < j.stop) (out : Sink) :
    j.generateIn q out = loop j.queryType j.hosts j.count 0 (Engine.start j.database
      ⟨j.start, j.stop⟩ (ChaCha.ofSeed j.seed) : Engine ChaCha q) [] out := by
  rw [generateIn, Interval.between, if_neg (Instant.not_le.mpr h)]

section Dialects

variable {q : Type} [Dialect q] [FaithfulDialect q] [PrintedDialect q] {database : String}
  {all : Interval} {t : QueryType} {n : Nat}

/-- The label of all queries of a type. -/
def labelIn (q : Type) [Dialect q] [FaithfulDialect q] [PrintedDialect q] (t : QueryType) : String :=
  PrintedDialect.engine q ++ " " ++ t.label

theorem label_asking {question : Question} (h : t.Asks all question) (database : String) :
    (Dialect.heading (FaithfulDialect.asking database question : q)).label = labelIn q t := by
  rw [PrintedDialect.heading_asking, Question.heading, h.label_eq, labelIn]

/-- Where a query is possible, all queries are made and written. -/
theorem loop_possible (hall : all.Fits) (ht : t.Small) (hpossible : t.Possible all n)
    (more index done : Nat) {e : Engine γ q} {words : γ} (he : e.At database all words) {out : Sink}
    (hcap : out.capacity = none) :
    ∃ questions : List Question, questions.length = more
      ∧ (∀ question ∈ questions, t.Asks all question)
      ∧ loop t n more index e (tally (labelIn q t) done) out =
        ({ out with received := out.received ++ joined (questions.map fun question =>
            (line (FaithfulDialect.asking database question : q)).toUTF8) },
          .ok (tally (labelIn q t) (done + more)))
      ∧ ∀ i question, questions[i]? = some question →
        e.answer t (List.replicate i n) n = .ok (.ok (FaithfulDialect.asking database question)) := by
  induction more generalizing index done e words out with
  | zero =>
    refine ⟨[], rfl, List.forall_mem_nil _, ?_, fun i question h => by cases h⟩
    simp [loop]
  | succ more ih =>
    rcases he.dispatch_cases hall ht (n := n) with
      ⟨-, question, words', e', hmade, hasks, hat⟩ | ⟨hnot, -⟩
    · have hcap' : ({ out with received := out.received ++
          (line (FaithfulDialect.asking database question : q)).toUTF8 } : Sink).capacity = none :=
        hcap
      obtain ⟨questions, hlength, hall', hloop, hanswer⟩ := ih (index + 1) (done + 1) hat hcap'
      refine ⟨question :: questions, by rw [List.length_cons, hlength],
        List.forall_mem_cons.mpr ⟨hasks, hall'⟩, ?_, ?_⟩
      · rw [loop, hmade]
        simp only [Output.write, Sink.write_unlimited hcap, label_asking hasks, add_tally, hloop]
        simp only [List.map_cons, joined_cons, ByteArray.append_assoc, Nat.add_assoc,
          Nat.add_comm 1]
      · intro i other hother
        cases i with
        | zero =>
          cases hother
          rw [List.replicate_zero, Engine.answer, hmade]
          rfl
        | succ i =>
          rw [List.replicate_succ, Engine.answer, hmade]
          exact hanswer i other hother
    · exact absurd hpossible hnot

omit [PrintedDialect q] in
/-- Where none is possible, the first query is not made and nothing is written. -/
theorem loop_impossible (hall : all.Fits) (ht : t.Small) (hnot : ¬ t.Possible all n)
    (more index : Nat) {e : Engine γ q} {words : γ} (he : e.At database all words) (counts : Counts)
    (out : Sink) :
    ∃ err, loop t n (more + 1) index e counts out = (out, .error (.query index err)) := by
  rcases he.dispatch_cases hall ht (n := n) with ⟨hpossible, -⟩ | ⟨-, err, e', hmade⟩
  · exact absurd hpossible hnot
  · exact ⟨err, by rw [loop, hmade]⟩

end Dialects

/-! ## All or nothing -/

/-- Query `i` of a job as a document, in one dialect: what its engine answers after `i` queries. -/
def documentIn (q : Type) [Dialect q] (j : QueryJob) (i : Nat) :
    Except Fault (Except QueryError Json) :=
  ((Engine.start j.database ⟨j.start, j.stop⟩ (ChaCha.ofSeed j.seed) : Engine ChaCha q).answer
    j.queryType (List.replicate i j.hosts) j.hosts).map fun answer => answer.map Dialect.toJson

/-- Query `i` of a job as a document. -/
def document (j : QueryJob) : Nat → Except Fault (Except QueryError Json) :=
  match j.format with
  | .cassandra => j.documentIn SeriesPlan
  | .influx => j.documentIn LineRequest
  | .mongo => j.documentIn Pipeline
  | .timescaledb => j.documentIn SqlStatement

/-- The key of the database in the queries of a job. -/
def databaseKey (j : QueryJob) : String :=
  match j.format with
  | .cassandra => "keyspace"
  | .influx => "database"
  | .mongo => "database_name"
  | .timescaledb => "database"

/-- Lines of text, each with its end. -/
def linesChars (lines : List (List Char)) : List Char := lines.flatMap fun line => line ++ ['\n']

/-- A line is read back as an object with the members of a query, the database and the label among
them. -/
structure ReadsAs (line : List Char) (answer : Except Fault (Except QueryError Json))
    (database : String × Json) (label : String) : Prop where
  one_line : '\n' ∉ line
  object : ∃ members, answer = .ok (.ok (.obj members))
    ∧ Json.parse? (String.ofList line) = some (.obj members)
    ∧ database ∈ members ∧ ("human_label", .str label) ∈ members

/-- There is nothing to be made, or the window is shorter than the time from start to stop and there
are as many hosts as a query names. -/
def HasChance (j : QueryJob) : Prop :=
  j.count = 0 ∨ j.queryType.span.nanos < (j.stop.since j.start).nanos
    ∧ j.queryType.hostCount ≤ j.hosts

/-- What a job with a list of documents has done: it succeeds if and only if it has a chance to, it
writes nothing if it fails, and if it succeeds then it writes its documents, a line each, and counts
them under one label. -/
structure AllOrNothing (j : QueryJob) (key : String)
    (document : Nat → Except Fault (Except QueryError Json))
    (outcome : Sink × Except QueryJobError Counts) : Prop where
  succeeds : (∃ counts, outcome.2 = .ok counts) ↔
    j.start < j.stop ∧ j.HasChance
  fails : ∀ e, outcome.2 = .error e → outcome.1.received = .empty
  writes : ∀ counts, outcome.2 = .ok counts → ∃ label lines,
    counts = (if j.count = 0 then [] else [(label, j.count)])
      ∧ outcome.1.received = (String.ofList (linesChars lines)).toUTF8
      ∧ lines.length = j.count
      ∧ ∀ i line, lines[i]? = some line → ReadsAs line (document i) (key, .str j.database) label

theorem joined_lines {q : Type} [Dialect q] (xs : List q) :
    joined (xs.map fun x => (line x).toUTF8) =
      (String.ofList (linesChars (xs.map lineChars))).toUTF8 := by
  have hlines : (fun x : q => (line x).toUTF8) =
      fun x => (String.ofList (lineChars x ++ ['\n'])).toUTF8 := by
    funext x
    rw [line_eq]
  rw [hlines, joined_toUTF8, linesChars, List.flatMap_map]

variable {q : Type} [Dialect q] [FaithfulDialect q] [PrintedDialect q]

theorem readsAs_asking {j : QueryJob} {i : Nat} {question : Question}
    (h : j.queryType.Asks ⟨j.start, j.stop⟩ question)
    (hanswer : (Engine.start j.database ⟨j.start, j.stop⟩ (ChaCha.ofSeed j.seed) :
      Engine ChaCha q).answer j.queryType (List.replicate i j.hosts) j.hosts =
      .ok (.ok (FaithfulDialect.asking j.database question))) :
    ReadsAs (lineChars (FaithfulDialect.asking j.database question : q)) (j.documentIn q i)
      (PrintedDialect.databaseKey q, .str j.database) (labelIn q j.queryType) where
  one_line := Json.newline_not_mem_chars (PrintedDialect.readable j.database question)
  object := by
    have hread := Json.parse?_render (PrintedDialect.readable (q := q) j.database question)
    have hlabel := PrintedDialect.label_mem (FaithfulDialect.asking j.database question : q)
    rw [label_asking h] at hlabel
    refine ⟨(Dialect.toJson (FaithfulDialect.asking j.database question : q)).members, ?_, ?_,
      PrintedDialect.database_mem j.database question, hlabel⟩
    · rw [documentIn, hanswer, ← PrintedDialect.toJson_eq]
      rfl
    · rw [← PrintedDialect.toJson_eq]
      exact hread

theorem allOrNothing_of_failed {j : QueryJob} {key : String}
    {document : Nat → Except Fault (Except QueryError Json)} {e : QueryJobError}
    (h : ¬ (j.start < j.stop ∧ j.HasChance)) :
    AllOrNothing j key document (({} : Sink), .error e) where
  succeeds := by
    refine ⟨?_, fun hchance => absurd hchance h⟩
    rintro ⟨counts, hcounts⟩
    cases hcounts
  fails _ _ := rfl
  writes counts hcounts := by cases hcounts

theorem allOrNothing_of_made {j : QueryJob} {questions : List Question}
    (hchance : j.start < j.stop ∧ j.HasChance) (hlength : questions.length = j.count)
    (hasks : ∀ question ∈ questions, j.queryType.Asks ⟨j.start, j.stop⟩ question)
    (hanswer : ∀ i question, questions[i]? = some question →
      (Engine.start j.database ⟨j.start, j.stop⟩ (ChaCha.ofSeed j.seed) :
        Engine ChaCha q).answer j.queryType (List.replicate i j.hosts) j.hosts =
        .ok (.ok (FaithfulDialect.asking j.database question)))
    {out : Sink} (hout : out.received = joined (questions.map fun question =>
      (line (FaithfulDialect.asking j.database question : q)).toUTF8)) :
    AllOrNothing j (PrintedDialect.databaseKey q) (j.documentIn q)
      (out, .ok (tally (labelIn q j.queryType) j.count)) where
  succeeds := ⟨fun _ => hchance, fun _ => ⟨_, rfl⟩⟩
  fails e he := by cases he
  writes counts hcounts := by
    cases hcounts
    refine ⟨labelIn q j.queryType, (questions.map fun question =>
      (FaithfulDialect.asking j.database question : q)).map lineChars, rfl, ?_,
      by rw [List.length_map, List.length_map, hlength], ?_⟩
    · rw [← joined_lines, List.map_map, hout]
      rfl
    · intro i line hline
      rw [List.map_map, List.getElem?_map, Option.map_eq_some_iff] at hline
      obtain ⟨question, hquestion, rfl⟩ := hline
      exact readsAs_asking (hasks question (List.mem_of_getElem? hquestion))
        (hanswer i question hquestion)

theorem generateIn_allOrNothing {j : QueryJob} (ht : j.queryType.Small)
    (hall : Interval.Fits ⟨j.start, j.stop⟩) :
    AllOrNothing j (PrintedDialect.databaseKey q) (j.documentIn q) (j.generateIn q ({} : Sink)) := by
  have hat := Engine.at_start (q := q) j.database ⟨j.start, j.stop⟩ (ChaCha.ofSeed j.seed)
  have hchance : j.HasChance ↔
      j.count = 0 ∨ j.queryType.Possible ⟨j.start, j.stop⟩ j.hosts := by
    rw [HasChance, Instant.since_of_not_leap hall.stop.not_leap hall.start.not_leap]
    rfl
  by_cases hle : j.stop ≤ j.start
  · rw [generateIn_of_le hle]
    exact allOrNothing_of_failed fun h => Instant.not_le.mpr h.1 hle
  · have hlt : j.start < j.stop := Instant.not_le.mp hle
    rw [generateIn_of_lt hlt]
    by_cases hpossible : j.queryType.Possible ⟨j.start, j.stop⟩ j.hosts
    · obtain ⟨questions, hlength, hasks, hloop, hanswer⟩ :=
        loop_possible hall ht hpossible j.count 0 0 hat
          (rfl : ({} : Sink).capacity = none)
      rw [Nat.zero_add] at hloop
      refine hloop.symm ▸ allOrNothing_of_made ⟨hlt, hchance.mpr (.inr hpossible)⟩ hlength hasks
        hanswer ?_
      exact ByteArray.empty_append
    · cases hcount : j.count with
      | zero =>
        have hnone : ([] : List Question).length = j.count := hcount.symm
        have hmade := allOrNothing_of_made (q := q) ⟨hlt, hchance.mpr (.inl hcount)⟩ hnone
          (List.forall_mem_nil _) (fun i question h => by cases h)
          (rfl : ({} : Sink).received = .empty)
        rw [hcount] at hmade
        exact hmade
      | succ more =>
        obtain ⟨e, hloop⟩ := loop_impossible hall ht hpossible more 0 hat [] ({} : Sink)
        rw [hloop]
        apply allOrNothing_of_failed
        intro h
        rcases hchance.mp h.2 with hzero | hcan
        · rw [hcount] at hzero
          cases hzero
        · exact hpossible hcan

/-- The type of query of a job has a name. -/
theorem queryType_mem_catalogue {clock : UInt64} {st : QuerySettings} {j : QueryJob}
    (h : ofSettings clock st = .ok j) : j.queryType ∈ QueryType.catalogue := by
  obtain ⟨format, -, h⟩ := Except.bind_eq_ok.mp h
  obtain ⟨queryType, hqueryType, h⟩ := Except.bind_eq_ok.mp h
  obtain ⟨start, -, h⟩ := Except.bind_eq_ok.mp h
  obtain ⟨stop, -, h⟩ := Except.bind_eq_ok.mp h
  cases h
  unfold Settings.queryType at hqueryType
  split at hqueryType
  · rename_i t hname
    cases hqueryType
    exact List.mem_of_find?_eq_some hname
  · cases hqueryType

/-- Settings with quotes and the end of a line in the name of the database. -/
def quotedSettings : QuerySettings where
  format := "mongo"
  queryType := "single-groupby-5-8-1"
  hosts := 100
  count := 2
  seed := 11
  database := "bench\"\nmark\x27"
  start := "2018-03-01T00:00:00Z"
  stop := "2018-03-02T06:00:00Z"

/-- The job of those settings. -/
def quotedJob : QueryJob where
  format := .mongo
  queryType := .maxByMinute 5 8 1
  hosts := 100
  count := 2
  database := "bench\"\nmark\x27"
  seed := 11
  start := .ofSecs 1519862400
  stop := .ofSecs 1519970400

theorem ofSettings_quoted : ofSettings 0 quotedSettings = .ok quotedJob := by rfl

end QueryJob

end SeriesLoad
