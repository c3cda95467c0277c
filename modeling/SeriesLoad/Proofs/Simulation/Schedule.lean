import Mathlib.Data.List.Forall2
import Mathlib.Logic.ExistsUnique
import SeriesLoad.Proofs.Run.Course
import SeriesLoad.Proofs.Simulation.Stands
import SeriesLoad.Random.ChaCha

/-!
# The schedule of a simulation

The steps of a simulation are the samples of all hosts for the first measurement of the first epoch,
then for the second one, and so on through the measurements and the epochs. **Step `k` samples host
`k % hosts`, measurement `k / hosts % passes`, in epoch `k / (hosts * passes)`, at the start plus so
many intervals** (`steps_follow_schedule`), and the simulation is finished when all are made.

The start must not be in a leap second, so that the clocks of the hosts do not lose time on the way,
and the last epoch has to be in the range of instants. The second is no more than the first for
most simulations: an end before the leap second that closes the range of instants leaves room for
all epochs.

All this holds whatever the words are. Where a loop of drawing is cut (`Draw.retry`), the values of
a sample are those that are taken at the cut.
-/

namespace SeriesLoad

variable {γ : Type} [Words γ]

/-! ## The points of a host -/

namespace Point

theorem foldl_addTag (tags : List (String × String)) (p : Point) :
    tags.foldl (fun p tag => p.addTag tag.1 tag.2) p =
      { p with tags := p.tags ++ tags.toArray } := by
  induction tags generalizing p with
  | nil => simp
  | cons tag rest ih => rw [List.foldl_cons, ih]; simp [addTag]

theorem foldl_addField (fields : List (String × FieldValue)) (p : Point) :
    fields.foldl (fun p field => p.addField field.1 field.2) p =
      { p with fields := p.fields ++ fields.toArray } := by
  induction fields generalizing p with
  | nil => simp
  | cons field rest ih => rw [List.foldl_cons, ih]; simp [addField]

end Point

/-- The point of a measurement of a host: the tags of the host, then name, time and fields of the
measurement. -/
def Host.sample (h : Host) (m : Measurement) : Point where
  name := m.name
  timestamp := some m.time
  tags := h.tags.toList.toArray
  fields := m.fields.toArray

theorem Host.fill_empty {h : Host} {index : Nat} {m : Measurement}
    (hm : h.measurements[index]? = some m) : h.fill index .empty = h.sample m := by
  simp only [fill, hm, Measurement.fill, Point.foldl_addTag, Point.foldl_addField]
  simp [Point.empty, Point.setName, Point.setTimestamp, sample]

/-- A value is what a metric shows: its state as a double, or truncated toward zero. -/
inductive Metric.Shows (m : Metric) : FieldValue → Prop
  | float (h : m.kind = .float) : m.Shows (.float (.ofFloat m.distribution.value))
  | int (h : m.kind = .int) : m.Shows (.int m.distribution.value.toInt64)

theorem Metric.shows_value (m : Metric) : m.Shows m.value := by
  unfold value
  split
  · exact .float ‹_›
  · exact .int ‹_›

/-- A point shows a measurement of a host, told from what is in the point: the tags of the host, the
column of the measurement, and what its metrics show, in their order. -/
structure Point.Shows (q : Point) (h : Host) (m : Measurement) : Prop where
  tagKeys : q.tags.toList.map (·.1) = HostTags.keys
  tagValues : q.tags.toList.map (·.2) = h.tags.values
  column : (q.name, q.fields.toList.map (·.1)) = m.column
  values : List.Forall₂ Metric.Shows m.metrics (q.fields.toList.map (·.2))

theorem Host.sample_shows (h : Host) (m : Measurement) : (h.sample m).Shows h m where
  tagKeys := List.map_fst_zip (by simp [HostTags.keys, HostTags.values])
  tagValues := List.map_snd_zip (by simp [HostTags.keys, HostTags.values])
  column := congrArg (Prod.mk m.name) m.map_fst_fields
  values := by
    show List.Forall₂ Metric.Shows m.metrics (m.fields.map (·.2))
    rw [Measurement.fields, List.map_map]
    exact List.forall₂_map_right_iff.mpr (List.forall₂_same.mpr fun metric _ => metric.shows_value)

/-! ## Room for all epochs -/

theorem Span.wholeMillis_mul_le {d : Span} (h : 0 < d.wholeMillis) :
    d.wholeMillis * 1000000 ≤ d.nanos := by
  have hnonneg : 0 ≤ d.nanos := by
    rcases Int.lt_or_le d.nanos 0 with hneg | hnonneg
    · have := Int.tdiv_nonneg (a := -d.nanos) (b := 1000000) (by omega) (by decide)
      rw [Int.neg_tdiv] at this
      rw [wholeMillis] at h
      omega
    · exact hnonneg
  rw [wholeMillis, Int.tdiv_eq_ediv_of_nonneg hnonneg]
  omega

/-- The epochs fit between the two instants. -/
theorem epochCount_mul_le {start stop : Instant} {d : Span} {millis : Int} (hpos : 0 < millis)
    (hd : d.nanos = millis * 1000000) (h : 0 < epochCount start stop d) :
    epochCount start stop d * d.nanos ≤ (stop.since start).nanos := by
  have hstep : d.wholeMillis = millis := by
    rw [Span.wholeMillis, hd, Int.mul_tdiv_cancel _ (by decide)]
  unfold epochCount at h ⊢
  simp only [hstep] at h ⊢
  split_ifs at h ⊢ with hzero
  · exact absurd h (Nat.lt_irrefl 0)
  · have hnanos := Span.wholeMillis_mul_le (d := stop.since start) (by omega)
    have hdiv : 0 ≤ (stop.since start).wholeMillis / millis :=
      Int.ediv_nonneg (by omega) (by omega)
    rw [Int.toNat_of_nonneg hdiv, hd, ← Int.mul_assoc]
    have hmul := Int.ediv_mul_le (stop.since start).wholeMillis (b := millis) (by omega)
    omega

namespace Population

variable {p : Population} {interval : Span}

/-- The clocks can be moved to every epoch if the last one is in range. -/
theorem clock_of_last (hnonneg : 0 ≤ interval.nanos)
    (hlast : 0 < epochCount p.start p.stop interval →
      p.start.exactNanos + ((epochCount p.start p.stop interval : Int) - 1) * interval.nanos
        ≤ Instant.maxNanos) :
    ∀ epoch < epochCount p.start p.stop interval, (p.start.later? interval epoch).isSome := by
  intro epoch hepoch
  have hmul : (epoch : Int) * interval.nanos ≤
      ((epochCount p.start p.stop interval : Int) - 1) * interval.nanos :=
    Int.mul_le_mul_of_nonneg_right (by omega) hnonneg
  have := hlast (by omega)
  obtain ⟨t, ht, -⟩ :=
    Instant.exists_later? (t := p.start) (d := interval) (n := epoch) hnonneg (by omega)
  rw [ht]
  rfl

/-- From a start outside leap seconds the last epoch can be added in one step. -/
theorem schedulable_of_last {passes : Nat} {text : String} (hstart : p.start.isLeap = false)
    (hread : Span.read? text = some interval) (hpos : 0 < passes)
    (hpasses : passes ≤ p.model.passes) (hroom : p.hosts ≤ roomLimit)
    (hsteps : epochCount p.start p.stop interval * p.hosts * passes < 2 ^ 64)
    (hlast : 0 < epochCount p.start p.stop interval →
      (p.start.add? ⟨((epochCount p.start p.stop interval : Int) - 1) * interval.nanos⟩).isSome) :
    p.Schedulable passes interval := by
  obtain ⟨millis, hmillis, hnanos⟩ := Span.read?_eq_some hread
  refine ⟨hpos, hpasses, hroom, hsteps, clock_of_last (by omega) fun hepochs => ?_⟩
  obtain ⟨t, ht⟩ := Option.isSome_iff_exists.mp (hlast hepochs)
  obtain ⟨hleap, hexact⟩ := (Instant.add?_eq_some_iff hstart).mp ht
  exact hexact ▸ Instant.exactNanos_le_maxNanos hleap

/-- The point of step `k`: the sample of host `k % hosts` for measurement `k / hosts % passes` in
epoch `k / (hosts * passes)`, with the keys of that measurement and the values that the host has
after so many ticks. -/
def IsSample (p : Population) (passes : Nat) (interval : Span) (words : γ) (k : Nat)
    (q : Point) : Prop :=
  ∃ hosts left host m t,
    p.hostsAt interval words (k / (p.hosts * passes)) = .ok (hosts, left)
    ∧ hosts[k % p.hosts]? = some host
    ∧ host.tags.hostname = HostTags.nameOf (k % p.hosts)
    ∧ host.measurements[k / p.hosts % passes]? = some m
    ∧ p.model.columns[k / p.hosts % passes]? = some m.column
    ∧ p.start.add? ⟨(k / (p.hosts * passes) : Nat) * interval.nanos⟩ = some t
    ∧ q = { host.sample m with timestamp := some t }
    ∧ q.Shows host m

theorem hostname_hostTags (p : Population) {words : γ} {i : Nat} {tags : HostTags}
    (h : (p.hostTags words)[i]? = some tags) : tags.hostname = HostTags.nameOf i := by
  rw [hostTags, List.getElem?_map, Option.map_eq_some_iff] at h
  obtain ⟨drawn, hdrawn, rfl⟩ := h
  rw [Simulation.hostname_drawHosts _ _ _ _ _ _ hdrawn, Nat.zero_add]

end Population

namespace Simulation

variable {p : Population} {passes : Nat} {interval : Span}

theorem finished_iff {s : Simulation γ} {words : γ} (hs : s.Stands p passes interval words) :
    s.finished = true ↔ epochCount p.start p.stop interval * p.hosts * passes ≤ s.made := by
  rw [finished, decide_eq_true_eq, hs.budget_eq]

/-- A step into an empty buffer makes the sample of a host, and the clock of the host shows the time
of its epoch. -/
theorem next_sample (h : p.Schedulable passes interval) {words : γ} {s : Simulation γ}
    (hs : s.Stands p passes interval words) (hmade : s.made < s.budget) :
    ∃ hosts left host m t s' isWritten,
      p.hostsAt interval words (s.made / (p.hosts * passes)) = .ok (hosts, left)
      ∧ hosts[s.made % p.hosts]? = some host
      ∧ host.measurements[s.made / p.hosts % passes]? = some m
      ∧ p.start.later? interval (s.made / (p.hosts * passes)) = some t
      ∧ host.Reports p.model t
      ∧ (p.hostTags words)[s.made % p.hosts]? = some host.tags
      ∧ s.next .empty = .ok (s', isWritten, host.sample m)
      ∧ s'.Stands p passes interval words := by
  obtain ⟨hosts, left, host, s', isWritten, hhosts, hget, hnext, hs', -⟩ :=
    next_stands h hs hmade .empty
  have hepoch : s.made / (p.hosts * passes) < epochCount p.start p.stop interval := by
    rw [hs.budget_eq, Nat.mul_assoc, Nat.mul_comm] at hmade
    exact Nat.div_lt_of_lt_mul hmade
  obtain ⟨t, ht⟩ := Option.isSome_iff_exists.mp (h.clock _ hepoch)
  obtain ⟨hosts₁, left₁, hhosts₁, htags, hreports⟩ := p.hostsAt_reports words ht
  rw [hhosts] at hhosts₁
  cases hhosts₁
  have hhost := hreports host (List.mem_of_getElem? hget)
  have hpass : s.made / p.hosts % passes < host.measurements.length := by
    rw [hhost.length]
    exact Nat.lt_of_lt_of_le (Nat.mod_lt _ h.passes_pos) h.passes_le
  obtain ⟨m, hm⟩ : ∃ m, host.measurements[s.made / p.hosts % passes]? = some m :=
    ⟨_, List.getElem?_eq_getElem hpass⟩
  rw [Host.fill_empty hm] at hnext
  refine ⟨hosts, left, host, m, t, s', isWritten, hhosts, hget, hm, ht, hhost, ?_, hnext, hs'⟩
  rw [← htags, List.getElem?_map, hget, Option.map_some]

theorem next_isSample (h : p.Schedulable passes interval) (hstart : p.start.isLeap = false)
    {words : γ} {s : Simulation γ} (hs : s.Stands p passes interval words)
    (hmade : s.made < s.budget) :
    ∃ s' isWritten q, s.next .empty = .ok (s', isWritten, q)
      ∧ p.IsSample passes interval words s.made q := by
  obtain ⟨hosts, left, host, m, t, s', isWritten, hhosts, hget, hm, ht, hhost, htag, hnext, -⟩ :=
    next_sample h hs hmade
  refine ⟨s', isWritten, _, hnext, hosts, left, host, m, t, hhosts, hget,
    p.hostname_hostTags htag, hm, ?_, Instant.later?_eq_add? hstart ht, ?_, host.sample_shows m⟩
  · rw [← hhost.column, hm, Option.map_some]
  · rw [← (hhost.ready m (List.mem_of_getElem? hm)).time]
    rfl

/-- Two hosts of the full model over a second. -/
def twoHosts : Population where
  model := .devops
  start := .epoch
  stop := .ofSecs 1
  initial := 1
  hosts := 2

/-- A host over the second that ends the range of instants, its leap second included. -/
def lastSecond : Population where
  model := .cpuSingle
  start := { secs := 8210266876799, nanos := 999999999 }
  stop := { secs := 8210266876799, nanos := 1999999999 }
  initial := 1
  hosts := 1

/-- Epoch, measurement and host name one step. -/
theorem existsUnique_step {epochs hosts epoch pass host : Nat} (hepoch : epoch < epochs)
    (hpass : pass < passes) (hhost : host < hosts) :
    ∃! k, k < epochs * hosts * passes ∧ k / (hosts * passes) = epoch ∧ k / hosts % passes = pass
      ∧ k % hosts = host := by
  obtain ⟨hmod, hdiv, hdivdiv⟩ := step_place epoch hpass hhost
  refine ⟨(epoch * passes + pass) * hosts + host,
    ⟨step_lt hepoch hpass hhost, hdivdiv, hdiv, hmod⟩, ?_⟩
  rintro k ⟨-, rfl, rfl, rfl⟩
  rw [← Nat.div_div_eq_div_mul, Nat.div_add_mod', Nat.div_add_mod']

/-- The steps of a simulation are the samples of every host for every measurement in every epoch,
one after the other, and when they are made it is finished. A loop that steps it comes to an end by
itself: fuel beyond the steps makes no difference. -/
theorem steps_follow_schedule (p : Population) (passes : Nat) {interval : Span} {text : String}
    (words : γ) (hstart : p.start.isLeap = false)
    (hread : Span.read? text = some interval) (hpos : 0 < passes)
    (hpasses : passes ≤ p.model.passes) (hroom : p.hosts ≤ roomLimit)
    (hsteps : epochCount p.start p.stop interval * p.hosts * passes < 2 ^ 64)
    (hlast : 0 < epochCount p.start p.stop interval →
      (p.start.add? ⟨((epochCount p.start p.stop interval : Int) - 1) * interval.nanos⟩).isSome) :
    ∃ s₀, init p passes interval words = .ok s₀
      ∧ (∀ buffers : List Point,
          buffers.length ≤ epochCount p.start p.stop interval * p.hosts * passes →
          ∃ s, s₀.steps buffers = .ok s
            ∧ (s.finished = true ↔
              buffers.length = epochCount p.start p.stop interval * p.hosts * passes)
            ∧ (buffers.length < epochCount p.start p.stop interval * p.hosts * passes →
              ∃ s' isWritten q, s.next .empty = .ok (s', isWritten, q)
                ∧ p.IsSample passes interval words buffers.length q))
      ∧ (∀ epoch < epochCount p.start p.stop interval, ∀ pass < passes, ∀ host < p.hosts,
          ∃! k, k < epochCount p.start p.stop interval * p.hosts * passes
            ∧ k / (p.hosts * passes) = epoch ∧ k / p.hosts % passes = pass ∧ k % p.hosts = host)
      ∧ ∀ (ω : Type) [Output ω] (f : Format) (share : Share) (stop : RunStats → Bool) (out : ω)
          (fuel : Nat), epochCount p.start p.stop interval * p.hosts * passes ≤ fuel →
          RunState.loop source f share stop fuel { source := s₀, output := out } =
            run source f share stop s₀ out := by
  have h := Population.schedulable_of_last hstart hread hpos hpasses hroom hsteps hlast
  obtain ⟨s₀, hinit, hs₀, hmade₀, -⟩ := init_stands h words
  refine ⟨s₀, hinit, fun buffers hlength => ?_, fun _ hepoch _ hpass _ hhost =>
    existsUnique_step hepoch hpass hhost, fun ω _ f share stop out fuel hfuel => ?_⟩
  · obtain ⟨s, hrun, hs, hmade⟩ := steps_stands h hs₀ buffers (by
      rw [hmade₀, hs₀.budget_eq, Nat.zero_add]
      exact hlength)
    rw [hmade₀, Nat.zero_add] at hmade
    refine ⟨s, hrun, ?_, fun hleft => ?_⟩
    · rw [finished_iff hs, hmade]
      exact ⟨fun hge => Nat.le_antisymm hlength hge, fun heq => Nat.le_of_eq heq.symm⟩
    · rw [← hmade]
      exact next_isSample h hstart hs (by rw [hmade, hs.budget_eq]; exact hleft)
  · refine RunState.loop_fuel (I := fun s => s.Stands p passes interval words)
      (fun hs hleft hnext => remaining_next h hs hleft hnext) f share stop hs₀ ?_ (Nat.le_refl _)
    show s₀.budget - s₀.made ≤ fuel
    rw [hmade₀, hs₀.budget_eq, Nat.sub_zero]
    exact hfuel

theorem steps_follow_schedule_two_hosts :
    Instant.epoch.isLeap = false ∧ Span.read? "500ms" = some ⟨500000000⟩
      ∧ ∃ s₀, init twoHosts 9 ⟨500000000⟩ (ChaCha.ofSeed 7) = .ok s₀
        ∧ ∀ buffers : List Point, buffers.length ≤ 36 → ∃ s, s₀.steps buffers = .ok s
          ∧ (s.finished = true ↔ buffers.length = 36) := by
  have hread : Span.read? "500ms" = some ⟨500000000⟩ := by decide
  obtain ⟨s₀, hinit, hsteps, -⟩ := steps_follow_schedule twoHosts 9 (ChaCha.ofSeed 7) (by decide)
    hread (by decide) (by decide) (by decide) (by decide) (by decide)
  refine ⟨by decide, by decide, s₀, hinit, fun buffers hlength => ?_⟩
  obtain ⟨s, hrun, hfinished, -⟩ := hsteps buffers hlength
  exact ⟨s, hrun, hfinished⟩

/-! ## The end of the range of instants -/

theorem tick_fault {model : HostModel} {t : Instant} {d : Span} (hadd : t.add? d = none)
    {h : Host} (hh : h.Reports model t) (words : γ) : h.tick d words = .error .instantRange := by
  have hlength : 0 < h.measurements.length := by
    rw [hh.length]
    cases model <;> decide
  obtain ⟨m, rest, hms⟩ := List.exists_cons_of_length_pos hlength
  have htime : m.time = t := (hh.ready m (by rw [hms]; exact List.mem_cons_self)).time
  simp only [Host.tick, hms, Host.tickAll, Measurement.tick, Measurement.moveClock, htime, hadd,
    bind, Except.bind]

theorem tickHosts_fault {model : HostModel} {t : Instant} {d : Span} (hadd : t.add? d = none)
    {h : Host} {rest : List Host} (hh : h.Reports model t) (words : γ) :
    tickHosts d (h :: rest) words = .error .instantRange := by
  simp only [tickHosts, tick_fault hadd hh, bind, Except.bind]

theorem next_of_host {s : Simulation γ} {h : Host} (hget : s.hosts[s.host]? = some h)
    (buffer : Point) :
    s.next buffer = .ok ({ s with made := s.made + 1, host := s.host + 1 },
      decide (s.host < s.online), h.fill s.pass buffer) := by
  have hlt : s.host < s.hosts.size := (Array.getElem?_eq_some_iff.mp hget).1
  simp only [next, settle, if_neg (Nat.ne_of_lt hlt), emit, hget, bind, Except.bind, pure,
    Except.pure]

/-- From one epoch to the next the clocks are moved, so there is no way past the last time. -/
theorem next_fault {s : Simulation γ} {model : HostModel} {t : Instant} {h : Host}
    (rest : List Host) (hhosts : s.hosts.toList = h :: rest) (hh : h.Reports model t)
    (hadd : t.add? s.interval = none) (hhost : s.host = s.hosts.size)
    (hpass : s.pass + 1 = s.passes) (buffer : Point) : s.next buffer = .error .instantRange := by
  have hepoch : nextEpoch { s with host := 0, pass := 0 } = .error .instantRange := by
    simp only [nextEpoch, hhosts, tickHosts_fault hadd hh, bind, Except.bind]
  have hsettle : s.settle = .error .instantRange := by
    rw [settle, if_pos hhost]
    exact (if_pos hpass).trans hepoch
  simp only [next, hsettle, bind, Except.bind]

theorem init_lastSecond (words : γ) :
    ∃ h left, init lastSecond 1 ⟨500000000⟩ words = .ok
        { hosts := #[h]
          passes := 1
          interval := ⟨500000000⟩
          initial := 1
          epochs := 2
          budget := 2
          words := left
          online := 1 }
      ∧ h.Reports lastSecond.model lastSecond.start := by
  have hlength := length_drawHosts lastSecond.model lastSecond.start lastSecond.hosts 0 words
  have hreports := drawHosts_reports lastSecond.model lastSecond.start lastSecond.hosts 0 words
  cases hdrawn : (drawHosts lastSecond.model lastSecond.start lastSecond.hosts 0).run words with
  | mk hosts left =>
    rw [hdrawn] at hlength hreports
    obtain ⟨h, rfl⟩ := List.length_eq_one_iff.mp hlength
    refine ⟨h, left, ?_, hreports h List.mem_cons_self⟩
    simp only [init, hdrawn]
    rfl

/-- An end in the leap second that closes the range of instants makes room for an epoch that has no
time: the step that would go on to it has a fault, though there are points left to be made. -/
theorem steps_beyond_range :
    lastSecond.start.isLeap = false ∧ Span.read? "500ms" = some ⟨500000000⟩
      ∧ epochCount lastSecond.start lastSecond.stop ⟨500000000⟩ * lastSecond.hosts * 1 = 2
      ∧ (init lastSecond 1 ⟨500000000⟩ (ChaCha.ofSeed 7)).bind (·.steps [.empty, .empty]) =
        .error .instantRange := by
  refine ⟨by decide, by decide, by decide, ?_⟩
  obtain ⟨h, left, hinit, hreports⟩ := init_lastSecond (ChaCha.ofSeed 7)
  rw [hinit, Except.bind, steps, next_of_host (h := h) rfl]
  show steps _ [.empty] = _
  rw [steps, next_fault [] ?_ hreports]
  all_goals rfl

end Simulation

end SeriesLoad
