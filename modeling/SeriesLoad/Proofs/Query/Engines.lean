import SeriesLoad.Proofs.Query.Draws
import SeriesLoad.Proofs.Query.Names
import SeriesLoad.Query.Engine

/-!
# Engines that ask the same

The engines of the four dialects share no state. Each has words and a pool of its own, and a query
that fails leaves its marks on both. **Started with the same words and asked for the same numbers of
hosts, they answer the same**, one after the other (`answers_agree`): they all fail in the same way,
or there is one question that all of them ask. The bounds, the hosts and the metrics are read back
from each of the four queries.

* `QueryPool.Clean` — idle query objects are empty, so that a query holds nothing of earlier ones.
* `Engine.At` — an engine stands at a point of its words; what it does next is up to the draw there
  (`At.dispatch`), whatever the dialect.

So the answers of an engine are the draws, each asked as a question (`At.answer`). The words may be
any words; a loop of drawing that is cut (`Draw.retry`) is cut in all four engines alike.
-/

namespace SeriesLoad

variable {γ : Type} [Words γ]

/-! ## Pools -/

variable {q : Type} [Dialect q] [FaithfulDialect q]

namespace QueryPool

/-- All idle query objects are empty. -/
def Clean (p : QueryPool q) : Prop := ∀ x ∈ p.idle, x = Dialect.empty

omit [FaithfulDialect q] in
theorem clean_initial : (initial : QueryPool q).Clean := by
  intro x hx
  exact List.eq_of_mem_replicate hx

theorem Clean.release {p : QueryPool q} (h : p.Clean) : p.release.Clean := by
  unfold QueryPool.release
  split
  · exact h
  · intro x hx
    rcases List.mem_cons.mp hx with rfl | hx
    · exact FaithfulDialect.reset_eq _
    · exact h x hx

/-- An object that is taken out is empty. -/
theorem Clean.acquire {p : QueryPool q} (h : p.Clean) :
    p.acquire.1 = Dialect.empty ∧ p.acquire.2.Clean := by
  have hidle := h.release
  unfold QueryPool.acquire Clean at *
  cases hobjects : p.release.idle with
  | nil =>
    simp only [hobjects] at hidle ⊢
    exact ⟨trivial, hidle⟩
  | cons x rest =>
    simp only [hobjects] at hidle ⊢
    exact List.forall_mem_cons.mp hidle

theorem Clean.lend {p : QueryPool q} (h : p.Clean) (x : q) : (p.lend x).Clean := h.release

end QueryPool

/-! ## Engines -/

namespace Engine

/-- An engine that asks a database about an interval and stands in front of some words. -/
structure At (e : Engine γ q) (database : String) (all : Interval) (words : γ) : Prop where
  database : e.database = database
  interval : e.interval = all
  words : e.words = words
  pool : e.pool.Clean

omit [Words γ] [FaithfulDialect q] in
theorem at_start (database : String) (all : Interval) (words : γ) :
    (start database all words : Engine γ q).At database all words :=
  ⟨rfl, rfl, rfl, QueryPool.clean_initial⟩

/-- The next answer of an engine is the next draw, asked as a question; the words are then those
behind the draw. -/
theorem At.dispatch {e : Engine γ q} {database : String} {all : Interval} {words : γ}
    (h : e.At database all words) {t : QueryType} (hall : all.Fits) (ht : t.Askable all) (n : Nat) :
    (∃ f, t.draw all n words = .error f ∧ e.dispatch t n = .error f)
      ∨ ∃ result words' e', t.draw all n words = .ok (result, words')
        ∧ e.dispatch t n =
          .ok (result.map fun s => FaithfulDialect.asking database (t.question s), e')
        ∧ e'.At database all words' := by
  obtain ⟨rfl, rfl, rfl, hclean⟩ := h
  obtain ⟨hempty, hpool⟩ := hclean.acquire
  unfold Engine.dispatch build
  rcases QueryType.draw_cases hall ht n e.words with
    ⟨f, hdraw, -⟩ | ⟨-, err, words', hdraw⟩ | ⟨-, s, words', hdraw, hpicks, -⟩
  · left
    simp only [hdraw]
    exact ⟨f, rfl, rfl⟩
  · right
    simp only [hdraw]
    exact ⟨_, _, _, rfl, rfl, rfl, rfl, rfl, hpool⟩
  · right
    have hfill : Dialect.fill e.database t s e.pool.acquire.1 =
        FaithfulDialect.asking e.database (t.question s) := by
      rw [hempty]
      exact FaithfulDialect.fill_empty e.database hpicks
    refine ⟨.ok s, words', { e with
      words := words'
      pool := e.pool.acquire.2.lend (Dialect.fill e.database t s e.pool.acquire.1) },
      hdraw, ?_, rfl, rfl, rfl, hpool.lend _⟩
    simp only [hdraw, Except.map, ← hfill]
    rfl

/-- The answer of an engine for a number of hosts, after answers for other numbers. -/
def answer (t : QueryType) : List Nat → Nat → Engine γ q → Except Fault (Except QueryError q)
  | [], n, e => (·.1) <$> e.dispatch t n
  | m :: before, n, e => do
    let (_, e) ← e.dispatch t m
    answer t before n e

/-- The answers of an engine are the draws, asked as questions. -/
theorem At.answer {e : Engine γ q} {database : String} {all : Interval} {words : γ}
    (h : e.At database all words) {t : QueryType} (hall : all.Fits) (ht : t.Askable all)
    (before : List Nat) (n : Nat) :
    e.answer t before n = (t.drawAfter all before n words).map fun result =>
      result.map fun s => FaithfulDialect.asking database (t.question s) := by
  induction before generalizing e words with
  | nil =>
    rw [Engine.answer, QueryType.drawAfter]
    rcases h.dispatch hall ht n with ⟨f, hdraw, hnext⟩ | ⟨result, words', e', hdraw, hnext, -⟩
    · rw [hdraw, hnext]
      rfl
    · rw [hdraw, hnext]
      rfl
  | cons m before ih =>
    rw [Engine.answer, QueryType.drawAfter]
    rcases h.dispatch hall ht m with ⟨f, hdraw, hnext⟩ | ⟨result, words', e', hdraw, hnext, hat⟩
    · rw [hdraw, hnext]
      rfl
    · rw [hdraw, hnext]
      exact ih hat

end Engine

/-! ## Names -/

theorem HostTags.quoteMark_not_mem_nameOf (i : Nat) : Text.quoteMark ∉ (nameOf i).toList := by
  rw [nameOf, Text.quoteMark_not_mem_append, Nat.toList_repr]
  exact ⟨by decide, fun h => absurd (Text.isDigit_of_mem_toDigits h) (by decide)⟩

theorem QueryType.quoteMark_not_mem_metrics (t : QueryType) :
    ∀ metric ∈ t.metrics, Text.quoteMark ∉ metric.toList := by
  have hkeys : ∀ key ∈ Metric.Cpu.keys, Text.quoteMark ∉ key.toList := by decide
  exact fun metric hmetric => hkeys metric (t.metrics_subset metric hmetric)

theorem QueryType.Asks.quotable {t : QueryType} {all : Interval} {q : Question}
    (h : t.Asks all q) : q.Quotable where
  hosts host hhost := by
    obtain ⟨i, rfl⟩ := h.names host hhost
    exact HostTags.quoteMark_not_mem_nameOf i
  metrics := by
    rw [h.metrics]
    exact t.quoteMark_not_mem_metrics

theorem QueryType.Asks.nameable {t : QueryType} {all : Interval} {q : Question}
    (h : t.Asks all q) : q.Nameable where
  hosts := h.names
  metrics := by
    rw [h.metrics]
    exact t.metrics_subset
  nodup := by
    rw [h.metrics]
    exact t.nodup_metrics

/-! ## Agreement -/

/-- The queries of the four engines have the bounds of one window: two as texts that are read back
as its bounds, two as the counts of nanoseconds of the same instants. -/
structure SameBounds (window : Interval) (plan : SeriesPlan) (request : LineRequest)
    (pipeline : Pipeline) (statement : SqlStatement) : Prop where
  plan : plan.startNanos = window.start.exactNanos ∧ plan.stopNanos = window.stop.exactNanos
  request : Text.boundAfter? "time >= " request.statement = some window.start
    ∧ Text.boundAfter? "time < " request.statement = some window.stop
  pipeline : pipeline.bound? "$gte" = some window.start.exactNanos
    ∧ pipeline.bound? "$lt" = some window.stop.exactNanos
  statement : Text.boundAfter? "time >= " statement.text = some window.start
    ∧ Text.boundAfter? "time < " statement.text = some window.stop

/-- The queries of the four engines name the hosts of one question, in the same order, and its
metrics. -/
structure SameNames (q : Question) (plan : SeriesPlan) (request : LineRequest)
    (pipeline : Pipeline) (statement : SqlStatement) : Prop where
  plan : NamingDialect.named plan = q.named
  request : NamingDialect.named request = q.named
  pipeline : NamingDialect.named pipeline = q.named
  statement : NamingDialect.named statement = q.named

/-- The answers of the four engines after queries for some numbers of hosts: one fault, one error or
one question. A fault is one of drawing hosts that memory cannot hold. -/
inductive SameAnswer (database : String) (t : QueryType) (all : Interval) (scales : List Nat) :
    Except Fault (Except QueryError SeriesPlan) → Except Fault (Except QueryError LineRequest) →
    Except Fault (Except QueryError Pipeline) → Except Fault (Except QueryError SqlStatement) →
    Prop where
  | fault (f : Fault) (n : Nat) (hn : n ∈ scales)
      (hroom : Draw.requireSampleable n t.hostCount = .error f) :
      SameAnswer database t all scales (.error f) (.error f) (.error f) (.error f)
  | refused (e : QueryError) :
      SameAnswer database t all scales (.ok (.error e)) (.ok (.error e)) (.ok (.error e))
        (.ok (.error e))
  | asked (q : Question) (hasks : t.Asks all q)
      (hbounds : SameBounds q.window (.asking database q) (.asking database q)
        (.asking database q) (.asking database q))
      (hnames : SameNames q (.asking database q) (.asking database q) (.asking database q)
        (.asking database q)) :
      SameAnswer database t all scales (.ok (.ok (.asking database q)))
        (.ok (.ok (.asking database q))) (.ok (.ok (.asking database q)))
        (.ok (.ok (.asking database q)))

/-- Started with the same words, the engines answer the same for each number of hosts, whatever
numbers they were asked for before and whichever of these failed. -/
theorem Engine.answers_agree (database : String) {all : Interval} (hall : all.Fits) {t : QueryType}
    (ht : t.Askable all) (words : γ) (before : List Nat) (n : Nat) :
    SameAnswer database t all (before ++ [n])
      ((start database all words : Engine γ SeriesPlan).answer t before n)
      ((start database all words : Engine γ LineRequest).answer t before n)
      ((start database all words : Engine γ Pipeline).answer t before n)
      ((start database all words : Engine γ SqlStatement).answer t before n) := by
  rw [(at_start database all words).answer hall ht before n,
    (at_start database all words).answer hall ht before n,
    (at_start database all words).answer hall ht before n,
    (at_start database all words).answer hall ht before n]
  have houtcome := QueryType.outcome_drawAfter hall ht before n words
  generalize t.drawAfter all before n words = outcome at houtcome
  cases houtcome with
  | fault f m hm hroom => exact .fault f m hm hroom
  | refused e => exact .refused e
  | picked s hpicks hasks =>
    exact .asked (t.question s) hasks
      { plan := SeriesPlan.bounds_asking database hasks.fits
        request := LineRequest.bounds_asking database hasks.quotable hasks.fits
        pipeline := Pipeline.bounds_asking database hasks.fits
        statement := SqlStatement.bounds_asking database hasks.quotable hasks.fits }
      { plan := NamingDialect.named_asking database hasks.nameable
        request := NamingDialect.named_asking database hasks.nameable
        pipeline := NamingDialect.named_asking database hasks.nameable
        statement := NamingDialect.named_asking database hasks.nameable }

/-- Thirty hours of data, and queries of eight hosts for a hundred hosts, for four and for eight. -/
theorem Engine.answers_agree_eight_hosts :
    let all : Interval := ⟨{ secs := 1451606400, nanos := 0 }, { secs := 1451714400, nanos := 0 }⟩
    all.Fits ∧ (QueryType.maxByMinute 5 8 1).Askable all
      ∧ SameAnswer "benchmark" (.maxByMinute 5 8 1) all ([100, 4] ++ [8])
        ((start "benchmark" all (ChaCha.ofSeed 11) : Engine ChaCha SeriesPlan).answer
          (.maxByMinute 5 8 1) [100, 4] 8)
        ((start "benchmark" all (ChaCha.ofSeed 11) : Engine ChaCha LineRequest).answer
          (.maxByMinute 5 8 1) [100, 4] 8)
        ((start "benchmark" all (ChaCha.ofSeed 11) : Engine ChaCha Pipeline).answer
          (.maxByMinute 5 8 1) [100, 4] 8)
        ((start "benchmark" all (ChaCha.ofSeed 11) : Engine ChaCha SqlStatement).answer
          (.maxByMinute 5 8 1) [100, 4] 8) := by
  intro all
  have hall : all.Fits :=
    ⟨⟨by decide, by decide, by decide⟩, ⟨by decide, by decide, by decide⟩, by decide⟩
  have ht : (QueryType.maxByMinute 5 8 1).Askable all :=
    ⟨by decide, ⟨3600000000000⟩, by decide, by decide⟩
  exact ⟨hall, ht, answers_agree "benchmark" hall ht (ChaCha.ofSeed 11) [100, 4] 8⟩

end SeriesLoad
