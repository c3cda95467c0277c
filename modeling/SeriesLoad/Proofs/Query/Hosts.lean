import SeriesLoad.Proofs.Query.Recycling
import SeriesLoad.Proofs.Random.Samples

/-!
# The hosts of a query

A query is about hosts that were sampled out of as many as there are in the data. Hosts are told
apart by their names (`HostTags.nameOf_injective`), so **a query that is made names as many hosts as
its type says, all of them different and all of them there** (`Format.named_eq_ok`), and as fields
the metrics of its type, all of them and no others.

There is no assumption on the interval, the type of the query or the numbers of hosts that the
engine was asked for before: it is enough that the query was made. There is none on the words
either. Where a loop of drawing is cut (`Draw.retry`), the host that is taken is one that was not
taken before, so the hosts are different in that case too.
-/

namespace SeriesLoad

variable {γ : Type} [Words γ]

theorem HostTags.nameOf_injective {i j : Nat} (h : nameOf i = nameOf j) : i = j := by
  have hdigits : Nat.toDigits 10 i = Nat.toDigits 10 j := by
    have hchars := congrArg String.toList h
    rw [nameOf, nameOf, String.toList_append, String.toList_append, List.append_cancel_left_eq,
      Nat.toList_repr, Nat.toList_repr] at hchars
    exact hchars
  rw [← Text.ofDigits_toDigits i, hdigits, Text.ofDigits_toDigits]

/-! ## What was drawn -/

namespace QueryType

/-- What was picked is what the type asks for, and the hosts are different ones out of so many. -/
structure Draws (t : QueryType) (available : Nat) (s : Selection) : Prop where
  picks : t.Picks s
  nodup : s.hosts.Nodup
  exist : ∀ host ∈ s.hosts, ∃ i < available, host = HostTags.nameOf i

theorem drawHosts_eq_ok {available requested : Nat} {hosts : List String} {words words' : γ}
    (h : drawHosts available requested words = .ok (.ok hosts, words')) :
    hosts.length = requested ∧ hosts.Nodup
      ∧ ∀ host ∈ hosts, ∃ i < available, host = HostTags.nameOf i := by
  unfold drawHosts at h
  by_cases hfew : available < requested
  · rw [if_pos hfew] at h
    cases h
  · have hle : requested ≤ available := Nat.le_of_not_lt hfew
    have hdistinct := Draw.distinct_sample hle words
    rw [if_neg hfew] at h
    obtain ⟨_, -, h⟩ := Except.bind_eq_ok.mp h
    cases h
    refine ⟨?_, ?_, ?_⟩
    · rw [List.length_map]
      exact Draw.length_sample hle words
    · exact hdistinct.nodup.map fun i j => HostTags.nameOf_injective
    · intro host hhost
      obtain ⟨i, hi, rfl⟩ := List.mem_map.mp hhost
      exact ⟨i, hdistinct.lt i hi, rfl⟩

theorem drawOwnHosts_eq_ok {t : QueryType} {available : Nat} {hosts : List String}
    {words words' : γ} (h : t.drawOwnHosts available words = .ok (.ok hosts, words')) :
    hosts.length = t.hostCount ∧ hosts.Nodup
      ∧ ∀ host ∈ hosts, ∃ i < available, host = HostTags.nameOf i := by
  cases t with
  | highCpu requested =>
    cases requested with
    | zero =>
      cases h
      exact ⟨rfl, List.nodup_nil, List.forall_mem_nil _⟩
    | succ requested => exact drawHosts_eq_ok h
  | maxByMinute metrics requested hours => exact drawHosts_eq_ok h

/-- What was picked is a window that was drawn, and hosts that were drawn with the words behind
it. -/
theorem parts_of_draw {t : QueryType} {all : Interval} {available : Nat} {s : Selection}
    {words words' : γ} (h : t.draw all available words = .ok (.ok s, words')) :
    ∃ length words₁, Span.ofHours? t.hours = some length
      ∧ all.randomWindow length words = .ok (.ok s.window, words₁)
      ∧ t.drawOwnHosts available words₁ = .ok (.ok s.hosts, words') := by
  unfold draw at h
  cases hspan : Span.ofHours? t.hours with
  | none =>
    rw [hspan] at h
    cases h
  | some length =>
    rw [hspan] at h
    obtain ⟨⟨result, words₁⟩, hwindow, h⟩ := Except.bind_eq_ok.mp h
    cases result with
    | error e => cases h
    | ok window =>
      obtain ⟨⟨result, words₂⟩, hhosts, h⟩ := Except.bind_eq_ok.mp h
      cases result with
      | error e => cases h
      | ok hosts =>
        cases h
        exact ⟨length, words₁, rfl, hwindow, hhosts⟩

theorem draw_eq_ok {t : QueryType} {all : Interval} {available : Nat} {s : Selection}
    {words words' : γ} (h : t.draw all available words = .ok (.ok s, words')) :
    t.Draws available s := by
  obtain ⟨length, words₁, hspan, hwindow, hhosts⟩ := parts_of_draw h
  obtain ⟨hcount, hnodup, hexist⟩ := drawOwnHosts_eq_ok hhosts
  have hlength := Interval.length_of_randomWindow hwindow
  rw [ofHours?_eq_some hspan] at hlength
  exact ⟨⟨hlength, hcount⟩, hnodup, hexist⟩

/-- What was picked behind other draws was picked from the words that they left. -/
theorem draw_of_drawAfter {t : QueryType} {all : Interval} {before : List Nat} {n : Nat}
    {s : Selection} {words : γ} (h : t.drawAfter all before n words = .ok (.ok s)) :
    ∃ words₁ words₂ : γ, t.draw all n words₁ = .ok (.ok s, words₂) := by
  induction before generalizing words with
  | nil =>
    cases hdraw : t.draw all n words with
    | error f =>
      rw [drawAfter, hdraw] at h
      cases h
    | ok drawn =>
      rw [drawAfter, hdraw] at h
      obtain ⟨result, words'⟩ := drawn
      cases h
      exact ⟨words, words', hdraw⟩
  | cons m before ih =>
    obtain ⟨⟨result, words'⟩, -, h⟩ := Except.bind_eq_ok.mp h
    exact ih h

theorem Draws.nameable {t : QueryType} {available : Nat} {s : Selection} (h : t.Draws available s) :
    (t.question s).Nameable where
  hosts host hhost := by
    obtain ⟨i, -, rfl⟩ := h.exist host hhost
    exact ⟨i, rfl⟩
  metrics := t.metrics_subset
  nodup := t.nodup_metrics

end QueryType

/-! ## What is named -/

namespace Engine

variable {q : Type} [Dialect q] [FaithfulDialect q]

/-- A query that is built on a new object asks the question for what is drawn. -/
theorem build_empty (e : Engine γ q) (t : QueryType) (n : Nat) :
    e.build t n Dialect.empty = (t.draw e.interval n e.words).map fun drawn =>
      (drawn.1.map fun s => FaithfulDialect.asking e.database (t.question s),
        { e with words := drawn.2 }) := by
  unfold build
  cases hdraw : t.draw e.interval n e.words with
  | error f => rfl
  | ok drawn =>
    obtain ⟨result, words⟩ := drawn
    cases result with
    | error err => rfl
    | ok s =>
      have hpicks := (QueryType.draw_eq_ok hdraw).picks
      simp only [Except.map, ← FaithfulDialect.fill_empty e.database hpicks]
      rfl

/-- The answers on new objects are the draws, asked as questions. -/
theorem answerFresh_eq (e : Engine γ q) (t : QueryType) (before : List Nat) (n : Nat) :
    e.answerFresh t before n = (t.drawAfter e.interval before n e.words).map fun result =>
      result.map fun s => FaithfulDialect.asking e.database (t.question s) := by
  induction before generalizing e with
  | nil =>
    rw [answerFresh, QueryType.drawAfter, build_empty]
    cases t.draw e.interval n e.words with
    | error f => rfl
    | ok drawn => rfl
  | cons m before ih =>
    rw [answerFresh, QueryType.drawAfter, build_empty]
    cases t.draw e.interval m e.words with
    | error f => rfl
    | ok drawn => exact ih { e with words := drawn.2 }

/-- A query that an engine makes asks the question for what was drawn behind earlier draws. -/
theorem drawAfter_of_answer {database : String} {all : Interval} {words : γ} {t : QueryType}
    {before : List Nat} {n : Nat} {x : q}
    (h : (start database all words : Engine γ q).answer t before n = .ok (.ok x)) :
    ∃ s, t.drawAfter all before n words = .ok (.ok s)
      ∧ x = FaithfulDialect.asking database (t.question s) := by
  rw [answer_start, answerFresh_eq] at h
  change (t.drawAfter all before n words).map _ = _ at h
  cases hdraw : t.drawAfter all before n words with
  | error f =>
    rw [hdraw] at h
    cases h
  | ok result =>
    rw [hdraw] at h
    cases result with
    | error e => cases h
    | ok s =>
      cases h
      exact ⟨s, rfl, rfl⟩

/-- The names in the query that an engine makes for a number of hosts, after queries for other
numbers. -/
def named (q : Type) [Dialect q] [FaithfulDialect q] [NamingDialect q] (database : String)
    (all : Interval) (words : γ) (t : QueryType) (before : List Nat) (n : Nat) :
    Except Fault (Except QueryError Named) :=
  ((start database all words : Engine γ q).answer t before n).map fun answer =>
    answer.map NamingDialect.named

/-- What is true of the names in any query of a type for a number of hosts. -/
structure Names (t : QueryType) (n : Nat) (x : Named) : Prop where
  length : x.hosts.length = t.hostCount
  nodup : x.hosts.Nodup
  exist : ∀ host ∈ x.hosts, ∃ i < n, host = HostTags.nameOf i
  fields : x.fields = t.metrics

theorem named_eq_ok [NamingDialect q] {database : String} {all : Interval} {words : γ}
    {t : QueryType} {before : List Nat} {n : Nat} {x : Named}
    (h : named q database all words t before n = .ok (.ok x)) : Names t n x := by
  unfold named at h
  cases hanswer : (start database all words : Engine γ q).answer t before n with
  | error f =>
    rw [hanswer] at h
    cases h
  | ok answer =>
    rw [hanswer] at h
    cases answer with
    | error e => cases h
    | ok made =>
      cases h
      obtain ⟨s, hdrawn, rfl⟩ := drawAfter_of_answer hanswer
      obtain ⟨_, _, hdraw⟩ := QueryType.draw_of_drawAfter hdrawn
      have hdraws := QueryType.draw_eq_ok hdraw
      have hnamed : NamingDialect.named (FaithfulDialect.asking database (t.question s) : q) =
          (t.question s).named := NamingDialect.named_asking database hdraws.nameable
      rw [hnamed]
      exact ⟨hdraws.picks.hosts, hdraws.nodup, hdraws.exist, rfl⟩

end Engine

/-- The names in the query that the engine for a format makes for a number of hosts, after queries
for other numbers. -/
def Format.named (f : Format) (database : String) (all : Interval) (words : γ) (t : QueryType)
    (before : List Nat) (n : Nat) : Except Fault (Except QueryError Named) :=
  match f with
  | .cassandra => Engine.named SeriesPlan database all words t before n
  | .influx => Engine.named LineRequest database all words t before n
  | .mongo => Engine.named Pipeline database all words t before n
  | .timescaledb => Engine.named SqlStatement database all words t before n

/-- A query that is made names as many hosts as its type says, different ones that are there, and the
metrics of its type. -/
theorem Format.named_eq_ok {f : Format} {database : String} {all : Interval} {words : γ}
    {t : QueryType} {before : List Nat} {n : Nat} {x : Named}
    (h : f.named database all words t before n = .ok (.ok x)) : Engine.Names t n x := by
  cases f with
  | cassandra => exact Engine.named_eq_ok h
  | influx => exact Engine.named_eq_ok h
  | mongo => exact Engine.named_eq_ok h
  | timescaledb => exact Engine.named_eq_ok h

end SeriesLoad
