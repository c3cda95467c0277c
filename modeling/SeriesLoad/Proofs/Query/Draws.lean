import SeriesLoad.Proofs.Query.Questions
import SeriesLoad.Proofs.Query.Window

/-!
# What is drawn for a query

A draw picks a window and hosts, and takes words from the stream also if it fails. Of an interval
whose bounds fit 64 bits it can come to three things (`draw_cases`): what the type of the query asks
for if that is possible, an error if it is not, or a fault if memory cannot hold the hosts. **No
calculation with times faults, and whether a draw fails does not depend on the words.**

`drawAfter` is a draw behind other draws, some of which may have failed; what it can come to is an
`Outcome`.
-/

namespace SeriesLoad

variable {γ : Type} [Words γ]

namespace QueryType

/-- A type of query that can be asked of an interval: its hours are a span, and there is an instant
that long before the end of the interval. For twelve hours there always is. -/
def Askable (t : QueryType) (all : Interval) : Prop :=
  match t with
  | .highCpu _ => True
  | .maxByMinute _ _ hours => 0 < hours
    ∧ ∃ length, Span.ofHours? hours = some length ∧ (all.stop.add? ⟨-length.nanos⟩).isSome

/-- A question of a type about an interval. -/
structure Asks (t : QueryType) (all : Interval) (q : Question) : Prop where
  kind : q.kind = t.kind
  metrics : q.metrics = t.metrics
  hosts : q.hosts.length = t.hostCount
  names : ∀ host ∈ q.hosts, ∃ i, host = HostTags.nameOf i
  length : q.window.length = t.span
  fits : q.window.Fits
  first_le : all.start.exactNanos ≤ q.window.start.exactNanos
  le_last : q.window.stop.exactNanos ≤ all.stop.exactNanos

theorem ofHours?_eq_some {hours : Int} {length : Span} (h : Span.ofHours? hours = some length) :
    length = ⟨hours * 3600 * nanosPerSecond⟩ := by
  unfold Span.ofHours? Span.ofMillis? at h
  split_ifs at h
  cases h
  simp only [nanosPerSecond, Span.mk.injEq]
  omega

/-- An askable type has a window, and the window a last place. -/
theorem Askable.exists_last {t : QueryType} {all : Interval} (h : t.Askable all)
    (hall : all.Fits) : Span.ofHours? t.hours = some t.span ∧ 0 ≤ t.span.nanos
      ∧ ∃ last, all.stop.add? ⟨-t.span.nanos⟩ = some last := by
  cases t with
  | highCpu hosts =>
    have hmin := hall.stop.min_le
    have hmax := hall.stop.le_max
    have hpos : 0 ≤ (span (.highCpu hosts)).nanos := by
      change (0 : Int) ≤ 12 * 3600 * 1000000000
      decide
    refine ⟨rfl, hpos, ?_⟩
    rw [Instant.add?_of_not_leap hall.stop.not_leap]
    obtain ⟨last, hlast, -⟩ := Instant.ofNanos?_of_mem
      (n := all.stop.exactNanos + -(span (.highCpu hosts)).nanos)
      (by simp only [span, hours, highCpuHours, Instant.minNanos, Instant.minWord,
        nanosPerSecond] at *; omega)
      (by simp only [span, hours, highCpuHours, Instant.maxNanos, Instant.maxWord,
        nanosPerSecond] at *; omega)
    exact ⟨last, hlast⟩
  | maxByMinute metrics hosts hours =>
    obtain ⟨hpos, length, hlength, hlast⟩ := h
    have hspan : length = span (.maxByMinute metrics hosts hours) := ofHours?_eq_some hlength
    rw [← hspan]
    refine ⟨hlength, ?_, Option.isSome_iff_exists.mp hlast⟩
    rw [ofHours?_eq_some hlength]
    simp only [nanosPerSecond]
    omega

/-- Of the interval and of so many hosts a query of the type can be made: the window is shorter than
the interval, and there are as many hosts as are asked for. -/
def Possible (t : QueryType) (all : Interval) (available : Nat) : Prop :=
  t.span.nanos < all.stop.exactNanos - all.start.exactNanos ∧ t.hostCount ≤ available

/-- Hosts are drawn, or there are too few of them, or they do not fit into memory. -/
theorem drawHosts_cases (available requested : Nat) (words : γ) :
    (∃ f, drawHosts available requested words = .error f
        ∧ Draw.requireSampleable available requested = .error f)
      ∨ (available < requested ∧ ∃ e words', drawHosts available requested words =
        .ok (.error e, words'))
      ∨ requested ≤ available ∧ ∃ hosts words', drawHosts available requested words =
          .ok (.ok hosts, words')
        ∧ hosts.length = requested ∧ ∀ host ∈ hosts, ∃ i, host = HostTags.nameOf i := by
  unfold drawHosts
  by_cases hfew : available < requested
  · rw [if_pos hfew]
    exact .inr (.inl ⟨hfew, _, _, rfl⟩)
  · rw [if_neg hfew]
    cases hroom : Draw.requireSampleable available requested with
    | error f => exact .inl ⟨f, rfl, rfl⟩
    | ok =>
      refine .inr (.inr ⟨Nat.le_of_not_lt hfew, _, _, rfl, ?_, ?_⟩)
      · rw [List.length_map]
        exact Draw.length_sample (Nat.le_of_not_lt hfew) words
      · intro host hhost
        obtain ⟨i, -, rfl⟩ := List.mem_map.mp hhost
        exact ⟨i, rfl⟩

theorem drawOwnHosts_cases (t : QueryType) (available : Nat) (words : γ) :
    (∃ f, t.drawOwnHosts available words = .error f
        ∧ Draw.requireSampleable available t.hostCount = .error f)
      ∨ (available < t.hostCount ∧ ∃ e words', t.drawOwnHosts available words =
        .ok (.error e, words'))
      ∨ t.hostCount ≤ available ∧ ∃ hosts words', t.drawOwnHosts available words =
          .ok (.ok hosts, words')
        ∧ hosts.length = t.hostCount ∧ ∀ host ∈ hosts, ∃ i, host = HostTags.nameOf i := by
  cases t with
  | highCpu hosts =>
    cases hosts with
    | zero => exact .inr (.inr ⟨Nat.zero_le _, [], words, rfl, rfl, by simp⟩)
    | succ hosts => exact drawHosts_cases available (hosts + 1) words
  | maxByMinute metrics hosts hours => exact drawHosts_cases available hosts words

/-- What a draw can come to. -/
theorem draw_cases {t : QueryType} {all : Interval} (hall : all.Fits) (ht : t.Askable all)
    (available : Nat) (words : γ) :
    (∃ f, t.draw all available words = .error f
        ∧ Draw.requireSampleable available t.hostCount = .error f)
      ∨ (¬ t.Possible all available ∧ ∃ e words', t.draw all available words =
        .ok (.error e, words'))
      ∨ t.Possible all available ∧ ∃ s words', t.draw all available words = .ok (.ok s, words')
        ∧ t.Picks s ∧ t.Asks all (t.question s) := by
  obtain ⟨hspan, hpos, last, hlast⟩ := ht.exists_last hall
  unfold draw
  rw [hspan]
  rcases Interval.randomWindow_cases hall hpos hlast words with
    ⟨hlarge, hwindow⟩ | ⟨hshort, window, words', hwindow, hfits, hfirst, hlength, hlt⟩
  · simp only [hwindow]
    exact .inr (.inl ⟨fun h => Int.not_lt.mpr hlarge h.1, _, _, rfl⟩)
  · have hspan : window.length = t.span := by
      rw [Interval.length, Instant.since_of_not_leap hfits.stop.not_leap hfits.start.not_leap,
        hlength, add_sub_cancel_left]
    simp only [hwindow, bind, Except.bind]
    rcases t.drawOwnHosts_cases available words' with
      ⟨f, hhosts, hroom⟩ | ⟨hfew, e, words'', hhosts⟩ |
        ⟨henough, hosts, words'', hhosts, hcount, hnames⟩
    · exact .inl ⟨f, by simp only [hhosts], hroom⟩
    · exact .inr (.inl ⟨fun h => Nat.not_le_of_lt hfew h.2, e, words'', by simp only [hhosts]⟩)
    · exact .inr (.inr ⟨⟨hshort, henough⟩, ⟨window, hosts⟩, words'', by simp only [hhosts],
        ⟨hspan, hcount⟩, ⟨rfl, rfl, hcount, hnames, hspan, hfits, hfirst, Int.le_of_lt hlt⟩⟩)

/-! ## Draws one after the other -/

/-- What is drawn for a number of hosts after draws for other numbers. -/
def drawAfter (t : QueryType) (all : Interval) :
    List Nat → Nat → γ → Except Fault (Except QueryError Selection)
  | [], n, words => (·.1) <$> t.draw all n words
  | m :: before, n, words => do
    let (_, words) ← t.draw all m words
    t.drawAfter all before n words

/-- What can come of draws for some numbers of hosts: a fault of one of them, or the outcome of the
last. -/
inductive Outcome (t : QueryType) (all : Interval) (scales : List Nat) :
    Except Fault (Except QueryError Selection) → Prop where
  | fault (f : Fault) (n : Nat) (hn : n ∈ scales)
      (hroom : Draw.requireSampleable n t.hostCount = .error f) : Outcome t all scales (.error f)
  | refused (e : QueryError) : Outcome t all scales (.ok (.error e))
  | picked (s : Selection) (hpicks : t.Picks s) (hasks : t.Asks all (t.question s)) :
      Outcome t all scales (.ok (.ok s))

theorem Outcome.mono {t : QueryType} {all : Interval} {scales scales' : List Nat}
    {outcome : Except Fault (Except QueryError Selection)} (h : Outcome t all scales outcome)
    (hsub : scales ⊆ scales') : Outcome t all scales' outcome := by
  cases h with
  | fault f n hn hroom => exact .fault f n (hsub hn) hroom
  | refused e => exact .refused e
  | picked s hpicks hasks => exact .picked s hpicks hasks

theorem outcome_draw {t : QueryType} {all : Interval} (hall : all.Fits) (ht : t.Askable all)
    (n : Nat) (words : γ) : Outcome t all [n] ((·.1) <$> t.draw all n words) := by
  rcases draw_cases hall ht n words with
    ⟨f, hdraw, hroom⟩ | ⟨-, e, words', hdraw⟩ | ⟨-, s, words', hdraw, hpicks, hasks⟩
  · rw [hdraw]
    exact .fault f n List.mem_cons_self hroom
  · rw [hdraw]
    exact .refused e
  · rw [hdraw]
    exact .picked s hpicks hasks

theorem outcome_drawAfter {t : QueryType} {all : Interval} (hall : all.Fits) (ht : t.Askable all)
    (before : List Nat) (n : Nat) (words : γ) :
    Outcome t all (before ++ [n]) (t.drawAfter all before n words) := by
  induction before generalizing words with
  | nil => exact outcome_draw hall ht n words
  | cons m before ih =>
    have hfirst := outcome_draw hall ht m words
    rw [drawAfter]
    cases hdraw : t.draw all m words with
    | error f =>
      rw [hdraw] at hfirst
      exact hfirst.mono (by simp)
    | ok drawn => exact (ih drawn.2).mono (List.subset_cons_self m _)

end QueryType

end SeriesLoad
