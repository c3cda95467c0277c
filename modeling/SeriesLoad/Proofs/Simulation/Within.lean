import SeriesLoad.Proofs.Query.Nesting
import SeriesLoad.Proofs.Simulation.Schedule
import SeriesLoad.Proofs.Simulation.Stream
import SeriesLoad.Proofs.Time.SpanText

/-!
# Samples inside the window

The number of epochs is a quotient of two spans that are each cut to milliseconds. An interval that
was read is whole milliseconds already, so nothing is lost: the quotient is the one of the
nanoseconds (`epochCount_eq_ediv`), and the epochs fit into the window with their intervals.

**A point that is made while steps are left has a time in the window, with an interval left after
it, if the host reports the measurement of the pass** (`points_within_window`). A pass beyond the
measurements of the hosts gives its points no time.

The invariant is `Simulation.Clocked`: the counters belong together, and the clocks of the hosts
show the start plus as many intervals as epochs are over. The hosts tick late, in the step that
begins another epoch. While steps are left that epoch is one of those counted, so no clock gets to
the end of the last interval.
-/

namespace SeriesLoad

/-! ## Whole intervals in a window -/

section EpochCount

variable {start stop : Instant} {d : Span} {text : String}

theorem wholeMillis_since (hstart : start.isLeap = false) (hstop : stop.isLeap = false)
    (hle : start ≤ stop) :
    (stop.since start).wholeMillis = (stop.exactNanos - start.exactNanos) / 1000000 := by
  have hnonneg := Int.sub_nonneg_of_le ((Instant.le_iff hstart hstop).mp hle)
  rw [Instant.since_of_not_leap hstop hstart, Span.wholeMillis,
    Int.tdiv_eq_ediv_of_nonneg hnonneg]

/-- Cutting both spans to milliseconds makes no difference to their quotient. -/
theorem epochCount_eq_ediv (hstart : start.isLeap = false) (hstop : stop.isLeap = false)
    (hread : Span.read? text = some d) (hle : start ≤ stop) :
    (epochCount start stop d : Int) = (stop.exactNanos - start.exactNanos) / d.nanos := by
  obtain ⟨hpos, hnanos⟩ := Span.wholeMillis_of_read? hread
  have hwindow := wholeMillis_since hstart hstop hle
  have hnonneg : 0 ≤ (stop.since start).wholeMillis := by
    have := (Instant.le_iff hstart hstop).mp hle
    rw [hwindow]
    exact Int.ediv_nonneg (by omega) (by decide)
  calc (epochCount start stop d : Int)
      = (stop.since start).wholeMillis / d.wholeMillis := by
        rw [epochCount_eq_toNat hpos,
          Int.toNat_of_nonneg (Int.ediv_nonneg hnonneg (Int.le_of_lt hpos))]
    _ = (stop.exactNanos - start.exactNanos) / 1000000 / d.wholeMillis := by rw [hwindow]
    _ = (stop.exactNanos - start.exactNanos) / (1000000 * d.wholeMillis) :=
        Int.ediv_ediv_of_nonneg (by decide)
    _ = (stop.exactNanos - start.exactNanos) / d.nanos := by rw [hnanos, Int.mul_comm]

/-- The number of epochs is the one that the intervals name at full precision. -/
theorem epochCount_eq_iff (hstart : start.isLeap = false) (hstop : stop.isLeap = false)
    (hread : Span.read? text = some d) (hle : start ≤ stop) (n : Nat) :
    epochCount start stop d = n ↔ n * d.nanos ≤ stop.exactNanos - start.exactNanos
      ∧ stop.exactNanos - start.exactNanos < (n + 1) * d.nanos := by
  obtain ⟨hpos, hnanos⟩ := Span.wholeMillis_of_read? hread
  rw [← Int.ofNat_inj, epochCount_eq_ediv hstart hstop hread hle,
    Int.ediv_eq_iff_of_pos (by omega), Int.add_mul, Int.one_mul]

theorem epochCount_eq_zero (hstart : start.isLeap = false) (hstop : stop.isLeap = false)
    (hle : stop ≤ start) : epochCount start stop d = 0 := by
  have hwindow : (stop.since start).wholeMillis ≤ 0 := by
    have hback : 0 ≤ (start.exactNanos - stop.exactNanos).tdiv 1000000 :=
      Int.tdiv_nonneg (Int.sub_nonneg_of_le ((Instant.le_iff hstop hstart).mp hle)) (by decide)
    rw [Instant.since_of_not_leap hstop hstart, Span.wholeMillis, ← Int.neg_nonneg,
      ← Int.neg_tdiv, Int.neg_sub]
    exact hback
  exact if_pos (.inr hwindow)

end EpochCount

/-- Outside leap seconds many steps are exact, and lead into none. -/
theorem Instant.later?_exact {t t' : Instant} (h : t.isLeap = false) {d : Span} {n : Nat}
    (ht' : t.later? d n = some t') :
    t'.isLeap = false ∧ t'.exactNanos = t.exactNanos + n * d.nanos :=
  (add?_eq_some_iff h).mp (later?_eq_add? h ht')

namespace Population

/-- The instant is in the window of the population, and an interval is left in it then. -/
def Covers (p : Population) (interval : Span) (t : Instant) : Prop :=
  p.start ≤ t ∧ ∃ next, t.add? interval = some next ∧ next ≤ p.stop

/-- Every epoch that is counted has a time. -/
def HasClock (p : Population) (interval : Span) : Prop :=
  ∀ epoch < epochCount p.start p.stop interval, ∃ t, p.start.later? interval epoch = some t

/-- Between instants outside leap seconds every epoch has a time, and it is covered. -/
theorem exists_covered {p : Population} {interval : Span} {text : String}
    (hstart : p.start.isLeap = false) (hstop : p.stop.isLeap = false)
    (hread : Span.read? text = some interval) {epoch : Nat}
    (hepoch : epoch < epochCount p.start p.stop interval) :
    ∃ t, p.start.later? interval epoch = some t ∧ p.Covers interval t := by
  obtain ⟨hpos, hnanos⟩ := Span.wholeMillis_of_read? hread
  have hle : p.start ≤ p.stop := by
    by_contra hnot
    rw [Instant.le_iff hstart hstop] at hnot
    rw [epochCount_eq_zero hstart hstop ((Instant.le_iff hstop hstart).mpr (by omega))] at hepoch
    exact Nat.not_lt_zero _ hepoch
  obtain ⟨hfits, -⟩ := (epochCount_eq_iff hstart hstop hread hle _).mp rfl
  have hroom : ((epoch + 1 : Nat) : Int) * interval.nanos
      ≤ p.stop.exactNanos - p.start.exactNanos :=
    Int.le_trans (Int.mul_le_mul_of_nonneg_right (by omega) (by omega)) hfits
  have hlast := Instant.exactNanos_le_maxNanos hstop
  -- the end of the interval is reached from the start in one more step than the epoch
  obtain ⟨next, hnext, -⟩ := Instant.exists_later? (t := p.start) (d := interval)
    (n := epoch + 1) (by omega) (by omega)
  obtain ⟨t, ht, hadd⟩ := Option.bind_eq_some_iff.mp hnext
  obtain ⟨hleap, hexact⟩ := Instant.later?_exact hstart ht
  obtain ⟨hleap', hexact'⟩ := Instant.later?_exact hstart hnext
  have hover : 0 ≤ (epoch : Int) * interval.nanos := Int.mul_nonneg (by omega) (by omega)
  refine ⟨t, ht, (Instant.le_iff hstart hleap).mpr ?_, next, hadd,
    (Instant.le_iff hleap' hstop).mpr ?_⟩
  · rw [hexact]
    exact Int.le_add_of_nonneg_right hover
  · rw [hexact']
    exact Int.add_le_of_le_sub_left hroom

theorem hasClock {p : Population} {interval : Span} {text : String}
    (hstart : p.start.isLeap = false) (hstop : p.stop.isLeap = false)
    (hread : Span.read? text = some interval) : p.HasClock interval := by
  intro epoch hepoch
  obtain ⟨t, ht, -⟩ := exists_covered hstart hstop hread hepoch
  exact ⟨t, ht⟩

end Population

/-! ## The time of a point -/

/-- A host gives its time to a point for the measurements that it reports, and none for others. -/
theorem Host.Reports.timestamp_fill {model : HostModel} {t : Instant} {h : Host}
    (hh : h.Reports model t) (index : Nat) (buffer : Point) :
    (h.fill index buffer).timestamp =
      if index < model.passes then some t else buffer.timestamp := by
  unfold fill
  rw [Point.foldl_addTag]
  split_ifs with hindex
  · have hlt : index < h.measurements.length := by rwa [hh.length]
    have htime := (hh.ready _ (List.getElem_mem hlt)).time
    simp only [List.getElem?_eq_getElem hlt, Measurement.fill, Point.foldl_addField]
    exact congrArg some htime
  · have hge : h.measurements.length ≤ index := by
      rw [hh.length]
      exact Nat.le_of_not_lt hindex
    simp only [List.getElem?_eq_none hge]

namespace Simulation

variable {γ : Type} {p : Population} {passes : Nat} {interval : Span}

/-! ## Clocks that show the epoch -/

/-- The counters belong together, and the clocks of all hosts show the time of the epoch. -/
structure Clocked (p : Population) (passes : Nat) (interval : Span) (s : Simulation γ) : Prop where
  counted : s.Counted
  size_eq : s.hosts.size = p.hosts
  passes_eq : s.passes = passes
  interval_eq : s.interval = interval
  epochs_eq : s.epochs = epochCount p.start p.stop interval
  reports : ∀ t, p.start.later? interval s.epoch = some t →
    ∀ h ∈ s.hosts.toList, h.Reports p.model t

theorem Clocked.budget_eq {s : Simulation γ} (hs : s.Clocked p passes interval) :
    s.budget = epochCount p.start p.stop interval * p.hosts * passes := by
  rw [hs.counted.budget_eq, hs.epochs_eq, hs.size_eq, hs.passes_eq]

variable [Words γ] {s : Simulation γ}

/-- A simulation that was set up has room for its hosts, and its steps can be counted. -/
theorem bounds_of_init {words : γ} (hinit : init p passes interval words = .ok s) :
    p.hosts ≤ roomLimit ∧ epochCount p.start p.stop interval * p.hosts * passes < 2 ^ 64 := by
  by_contra hnot
  have hout : roomLimit < p.hosts
      ∨ 2 ^ 64 ≤ epochCount p.start p.stop interval * p.hosts * passes := by
    rwa [not_and_or, Nat.not_le, Nat.not_lt] at hnot
  obtain ⟨e, he⟩ := init_eq_error hout words
  rw [he] at hinit
  cases hinit

theorem init_clocked (hpos : 0 < passes) {words : γ}
    (hinit : init p passes interval words = .ok s) :
    s.Clocked p passes interval ∧ s.made = 0 := by
  obtain ⟨hroom, hsteps⟩ := bounds_of_init hinit
  obtain ⟨s₀, hs₀, hcounted, hmade, -, hsize, -⟩ := init_counted hpos hroom hsteps words
  rw [hs₀] at hinit
  cases hinit
  rw [init_eq_ok hroom hsteps words] at hs₀
  cases hs₀
  refine ⟨⟨hcounted, hsize, rfl, rfl, rfl, fun t ht => ?_⟩, rfl⟩
  cases ht
  exact drawHosts_reports p.model p.start p.hosts 0 words

/-- Before a step the simulation can be moved to a host that is there, and its clock goes with the
epoch. -/
theorem settle_clocked (hclock : p.HasClock interval) (hs : s.Clocked p passes interval)
    (hmade : s.made < s.budget) :
    ∃ s', s.settle = .ok s' ∧ s'.Clocked p passes interval := by
  by_cases hhost : s.host = s.hosts.size
  · by_cases hpass : s.pass + 1 = s.passes
    · -- the one case in which clocks move: there are steps left, so the next epoch is counted
      obtain ⟨-, hepoch⟩ := hs.counted.epoch_lt hmade hhost hpass
      obtain ⟨t', ht'⟩ := hclock (s.epoch + 1) (hs.epochs_eq ▸ hepoch)
      obtain ⟨t, ht, hadd⟩ := Option.bind_eq_some_iff.mp ht'
      obtain ⟨hosts, words, htick, -, hreports⟩ :=
        tickHosts_reports hadd (hs.reports t ht) s.words
      obtain ⟨online, honline⟩ := hs.counted.exists_online hmade hhost hpass
      have hsettle : s.settle = .ok { s with
          hosts := hosts.toArray, words, online, host := 0, pass := 0, epoch := s.epoch + 1 } := by
        rw [settle, if_pos hhost]
        refine (if_pos hpass).trans ?_
        simp only [nextEpoch, hs.interval_eq, htick, honline, bind, Except.bind]
      obtain ⟨hcounted, -⟩ := settle_counted hs.counted hmade hsettle
      refine ⟨_, hsettle, hcounted, (length_tickHosts htick).trans hs.size_eq, hs.passes_eq,
        hs.interval_eq, hs.epochs_eq, fun u hu => ?_⟩
      cases ht'.symm.trans hu
      exact hreports
    · have hsettle : s.settle = .ok { s with host := 0, pass := s.pass + 1 } := by
        rw [settle, if_pos hhost]
        exact if_neg hpass
      obtain ⟨hcounted, -⟩ := settle_counted hs.counted hmade hsettle
      exact ⟨_, hsettle, hcounted, hs.size_eq, hs.passes_eq, hs.interval_eq, hs.epochs_eq,
        hs.reports⟩
  · have hsettle : s.settle = .ok s := if_neg hhost
    exact ⟨s, hsettle, hs⟩

/-- A step puts what a host reports in the epoch of the step into the buffer. -/
theorem next_clocked (hclock : p.HasClock interval) (hs : s.Clocked p passes interval)
    (hmade : s.made < s.budget) (buffer : Point) :
    ∃ s' isWritten, ∃ host : Host, ∃ t,
      s.next buffer = .ok (s', isWritten, host.fill (s.made / p.hosts % passes) buffer)
      ∧ s.made / (p.hosts * passes) < epochCount p.start p.stop interval
      ∧ p.start.later? interval (s.made / (p.hosts * passes)) = some t
      ∧ host.Reports p.model t
      ∧ s'.Clocked p passes interval ∧ s'.made = s.made + 1 := by
  obtain ⟨s₁, hsettle, hs₁⟩ := settle_clocked hclock hs hmade
  obtain ⟨hcounted, hmade₁, -, hhost⟩ := settle_counted hs.counted hmade hsettle
  obtain ⟨host, hget⟩ : ∃ host, s₁.hosts[s₁.host]? = some host :=
    ⟨_, Array.getElem?_eq_getElem hhost⟩
  have hnext : s.next buffer = .ok
      ({ s₁ with made := s₁.made + 1, host := s₁.host + 1 }, decide (s₁.host < s₁.online),
        host.fill s₁.pass buffer) := by
    simp only [next, hsettle, emit, hget, bind, Except.bind, pure, Except.pure]
  obtain ⟨-, hpass, hepoch⟩ := step_place s₁.epoch hcounted.pass_lt hhost
  rw [← hcounted.made_eq, hmade₁, hs₁.size_eq, hs₁.passes_eq] at hpass hepoch
  have hlt : s.made / (p.hosts * passes) < epochCount p.start p.stop interval := by
    rw [hs.budget_eq, Nat.mul_assoc, Nat.mul_comm] at hmade
    exact Nat.div_lt_of_lt_mul hmade
  obtain ⟨t, ht⟩ := hclock _ hlt
  rw [hpass]
  refine ⟨_, _, host, t, hnext, hlt, ht, hs₁.reports t (hepoch ▸ ht) host ?_, ?_,
    congrArg (· + 1) hmade₁⟩
  · exact Array.mem_toList_iff.mpr (Array.mem_of_getElem? hget)
  · exact ⟨(next_counted hs.counted hmade hnext).1, hs₁.size_eq, hs₁.passes_eq, hs₁.interval_eq,
      hs₁.epochs_eq, hs₁.reports⟩

/-- As many steps as are left go through. -/
theorem steps_clocked (hclock : p.HasClock interval) (hs : s.Clocked p passes interval)
    (buffers : List Point) (hmade : s.made + buffers.length ≤ s.budget) :
    ∃ s', s.steps buffers = .ok s' ∧ s'.Clocked p passes interval
      ∧ s'.made = s.made + buffers.length := by
  induction buffers generalizing s with
  | nil => exact ⟨s, rfl, hs, rfl⟩
  | cons buffer rest ih =>
    rw [List.length_cons] at hmade
    obtain ⟨s₁, isWritten, host, t, hnext, -, -, -, hs₁, hmade₁⟩ :=
      next_clocked hclock hs (by omega) buffer
    obtain ⟨s', hsteps, hs', hmade'⟩ := ih hs₁ (by rw [hs₁.budget_eq, ← hs.budget_eq]; omega)
    refine ⟨s', ?_, hs', by rw [hmade', hmade₁, List.length_cons]; omega⟩
    simp only [steps, hnext, hsteps, bind, Except.bind]

/-! ## The window -/

/-- Outside leap seconds, at full precision: the number of epochs is nothing for a window that is
not one, and otherwise the number of whole intervals in the window, which is the only one of its
kind. All of a simulation's steps go through, and a step that is made while it is not finished gives
the point a time in the window with an interval left after it, if the host reports the measurement
of the pass. If not, the time in the buffer stays as it was. -/
theorem points_within_window (p : Population) {passes : Nat} {interval : Span} {text : String}
    (hstart : p.start.isLeap = false) (hstop : p.stop.isLeap = false)
    (hread : Span.read? text = some interval) (hpos : 0 < passes) :
    (p.stop ≤ p.start → epochCount p.start p.stop interval = 0)
      ∧ (p.start < p.stop → ∀ n : Nat, epochCount p.start p.stop interval = n ↔
          n * interval.nanos ≤ p.stop.exactNanos - p.start.exactNanos
            ∧ p.stop.exactNanos - p.start.exactNanos < (n + 1) * interval.nanos)
      ∧ ∀ (words : γ) (s₀ : Simulation γ), init p passes interval words = .ok s₀ →
        ∀ buffers : List Point,
          buffers.length ≤ epochCount p.start p.stop interval * p.hosts * passes →
          ∃ s, s₀.steps buffers = .ok s
            ∧ (s.finished = true ↔
              buffers.length = epochCount p.start p.stop interval * p.hosts * passes)
            ∧ (s.finished = false → ∀ buffer, ∃ s' isWritten q,
              s.next buffer = .ok (s', isWritten, q)
              ∧ (buffers.length / p.hosts % passes < p.model.passes →
                ∃ t, q.timestamp = some t ∧ p.Covers interval t)
              ∧ (p.model.passes ≤ buffers.length / p.hosts % passes →
                q.timestamp = buffer.timestamp)) := by
  refine ⟨epochCount_eq_zero hstart hstop, fun hlt => ?_, fun words s₀ hinit buffers hlength => ?_⟩
  · refine epochCount_eq_iff hstart hstop hread ?_
    rw [Instant.lt_iff hstart hstop] at hlt
    exact (Instant.le_iff hstart hstop).mpr (Int.le_of_lt hlt)
  · have hclock := Population.hasClock hstart hstop hread
    obtain ⟨hs₀, hmade₀⟩ := init_clocked hpos hinit
    obtain ⟨s, hsteps, hs, hmade⟩ := steps_clocked hclock hs₀ buffers (by
      rw [hmade₀, hs₀.budget_eq, Nat.zero_add]
      exact hlength)
    rw [hmade₀, Nat.zero_add] at hmade
    refine ⟨s, hsteps, ?_, fun hunfinished buffer => ?_⟩
    · rw [finished, decide_eq_true_eq, hs.budget_eq, hmade]
      exact ⟨fun hge => Nat.le_antisymm hlength hge, fun heq => Nat.le_of_eq heq.symm⟩
    · have hleft : s.made < s.budget := Nat.lt_of_not_le (of_decide_eq_false hunfinished)
      obtain ⟨s', isWritten, host, t, hnext, hepoch, ht, hreports, -, -⟩ :=
        next_clocked hclock hs hleft buffer
      obtain ⟨u, hu, hcovers⟩ := Population.exists_covered hstart hstop hread hepoch
      cases ht.symm.trans hu
      rw [hmade] at hnext
      refine ⟨s', isWritten, _, hnext, fun hpass => ⟨t, ?_, hcovers⟩, fun hpass => ?_⟩
      · rw [hreports.timestamp_fill, if_pos hpass]
      · rw [hreports.timestamp_fill, if_neg (Nat.not_lt_of_le hpass)]

theorem points_within_window_two_hosts :
    twoHosts.start.isLeap = false ∧ twoHosts.stop.isLeap = false
      ∧ Span.read? "300ms" = some ⟨300000000⟩
      ∧ epochCount twoHosts.start twoHosts.stop ⟨300000000⟩ = 3
      ∧ ∃ s₀, init twoHosts 9 ⟨300000000⟩ (ChaCha.ofSeed 7) = .ok s₀
        ∧ ∀ buffers : List Point, buffers.length < 54 → ∃ s s' isWritten q t,
          s₀.steps buffers = .ok s ∧ s.finished = false
          ∧ s.next .empty = .ok (s', isWritten, q) ∧ q.timestamp = some t
          ∧ twoHosts.Covers ⟨300000000⟩ t := by
  have hread : Span.read? "300ms" = some ⟨300000000⟩ := by decide
  obtain ⟨-, hcount, hsteps⟩ := points_within_window (γ := ChaCha) twoHosts (by decide)
    (by decide) hread (show 0 < 9 by decide)
  have hepochs : epochCount twoHosts.start twoHosts.stop ⟨300000000⟩ = 3 :=
    (hcount (by decide) 3).mpr (by decide)
  obtain ⟨s₀, hinit⟩ : ∃ s₀, init twoHosts 9 ⟨300000000⟩ (ChaCha.ofSeed 7) = .ok s₀ :=
    ⟨_, init_eq_ok (by decide) (by decide) _⟩
  refine ⟨by decide, by decide, hread, hepochs, s₀, hinit, fun buffers hlength => ?_⟩
  rw [hepochs] at hsteps
  obtain ⟨s, hs, hfinished, hnext⟩ := hsteps _ s₀ hinit buffers (Nat.le_of_lt hlength)
  have hunfinished : s.finished = false := by
    rw [← Bool.not_eq_true, hfinished]
    exact Nat.ne_of_lt hlength
  obtain ⟨s', isWritten, q, hq, hcovers, -⟩ := hnext hunfinished .empty
  obtain ⟨t, ht, hcovered⟩ := hcovers (Nat.mod_lt _ (by decide))
  exact ⟨s, s', isWritten, q, t, hs, hunfinished, hq, ht, hcovered⟩

/-- A host that reports one measurement, over ten seconds. -/
def tenSeconds : Population where
  model := .cpuSingle
  start := .ofSecs 1500000000
  stop := .ofSecs 1500000010
  initial := 1
  hosts := 1

/-- With nine passes over a host of one measurement, the second point is made before the simulation
is finished and has no time. It shows the start of 1970, which is not in the window. -/
theorem point_outside_window :
    tenSeconds.start.isLeap = false ∧ tenSeconds.stop.isLeap = false
      ∧ Span.read? "10s" = some ⟨10000000000⟩
      ∧ ∃ s₀ s s' isWritten q, init tenSeconds 9 ⟨10000000000⟩ (ChaCha.ofSeed 7) = .ok s₀
        ∧ s₀.steps [.empty] = .ok s ∧ s.finished = false
        ∧ s.next .empty = .ok (s', isWritten, q)
        ∧ q.time = .epoch ∧ ¬ tenSeconds.start ≤ q.time := by
  have hstart : tenSeconds.start.isLeap = false := by decide
  have hstop : tenSeconds.stop.isLeap = false := by decide
  have hread : Span.read? "10s" = some ⟨10000000000⟩ := by decide
  have hclock := Population.hasClock hstart hstop hread
  obtain ⟨s₀, hinit⟩ : ∃ s₀, init tenSeconds 9 ⟨10000000000⟩ (ChaCha.ofSeed 7) = .ok s₀ :=
    ⟨_, init_eq_ok (by decide) (by decide) _⟩
  obtain ⟨hs₀, hmade₀⟩ := init_clocked (by decide) hinit
  have hbudget : s₀.budget = 9 := hs₀.budget_eq.trans (by decide)
  obtain ⟨s, hsteps, hs, hmade⟩ := steps_clocked hclock hs₀ [.empty] (by
    rw [hmade₀, hbudget]
    decide)
  rw [hmade₀] at hmade
  have hleft : s.made < s.budget := by
    rw [hmade, hs.budget_eq, ← hs₀.budget_eq, hbudget]
    decide
  obtain ⟨s', isWritten, host, t, hnext, -, -, hreports, -, -⟩ :=
    next_clocked hclock hs hleft .empty
  have htime : (host.fill (s.made / tenSeconds.hosts % 9) .empty).time = .epoch := by
    rw [Point.time, hreports.timestamp_fill, hmade]
    rfl
  refine ⟨hstart, hstop, hread, s₀, s, s', isWritten, _, hinit, hsteps,
    decide_eq_false (Nat.not_le_of_lt hleft), hnext, htime, ?_⟩
  rw [htime]
  decide

end Simulation

end SeriesLoad
