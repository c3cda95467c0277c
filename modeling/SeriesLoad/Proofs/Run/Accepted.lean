import SeriesLoad.DataJob
import SeriesLoad.Proofs.Simulation.Schedule
import SeriesLoad.Proofs.Time.Rfc3339

/-!
# Data jobs that are accepted

What `DataJob.ofSettings` makes sure of is enough for a job to come to its end: **once the
simulation of an accepted job is set up, none of its steps has a fault** (`schedulable`). The two
ends of time were read from texts, so they are years away from the end of the range of instants, and
the interval was read too, so it is positive. What can fail is to set the simulation up, when there
are more hosts than fit in memory or more steps than can be counted.
-/

namespace SeriesLoad

/-- The settings make a job: each part of it is what the setting says. -/
structure DataJob.IsSet (clock : UInt64) (st : DataSettings) (j : DataJob) : Prop where
  share : Settings.share st.group st.groups = .ok j.share
  format : Settings.format st.format = .ok j.format
  model : Settings.model st.model = .ok j.population.model
  start : Settings.instant st.start = .ok j.population.start
  stop : Settings.instant st.stop = .ok j.population.stop
  interval : Settings.interval st.interval = .ok j.interval
  initial : j.population.initial = if st.initial = 0 then st.hosts else st.initial
  hosts : j.population.hosts = st.hosts
  seed : j.seed = Settings.seed clock st.seed

namespace DataJob

theorem ofSettings_eq_ok {clock : UInt64} {st : DataSettings} {j : DataJob} :
    ofSettings clock st = .ok j ↔ j.IsSet clock st := by
  constructor
  · intro h
    obtain ⟨share, hshare, h⟩ := Except.bind_eq_ok.mp h
    obtain ⟨format, hformat, h⟩ := Except.bind_eq_ok.mp h
    obtain ⟨model, hmodel, h⟩ := Except.bind_eq_ok.mp h
    obtain ⟨start, hstart, h⟩ := Except.bind_eq_ok.mp h
    obtain ⟨stop, hstop, h⟩ := Except.bind_eq_ok.mp h
    obtain ⟨interval, hinterval, h⟩ := Except.bind_eq_ok.mp h
    cases h
    exact ⟨hshare, hformat, hmodel, hstart, hstop, hinterval, rfl, rfl, rfl⟩
  · intro h
    obtain ⟨format, ⟨model, start, stop, initial, hosts⟩, seed, interval, share⟩ := j
    obtain ⟨hshare, hformat, hmodel, hstart, hstop, hinterval, hinitial, hhosts, hseed⟩ := h
    simp only at *
    subst hinitial hhosts hseed
    simp only [ofSettings, hshare, hformat, hmodel, hstart, hstop, hinterval, bind, Except.bind,
      pure, Except.pure]

/-- The same settings make the same job for every group. -/
theorem ofSettings_group {clock : UInt64} {st : DataSettings} {j : DataJob}
    (h : ofSettings clock st = .ok j) {group groups : Nat} (hlt : group < groups) :
    ofSettings clock { st with group, groups } = .ok { j with share := ⟨group, groups⟩ } := by
  have hset := ofSettings_eq_ok.mp h
  refine ofSettings_eq_ok.mpr { hset with share := ?_ }
  simp only [Settings.share, if_neg (Nat.ne_zero_of_lt hlt), if_neg (Nat.not_le_of_lt hlt)]

theorem IsSet.share_lt {clock : UInt64} {st : DataSettings} {j : DataJob}
    (h : j.IsSet clock st) : j.share.group < j.share.groups := by
  have hshare := h.share
  unfold Settings.share at hshare
  split_ifs at hshare with hzero hle
  rw [← Except.ok.inj hshare]
  exact Nat.lt_of_not_le hle

theorem parse_of_instant {text : String} {t : Instant} (h : Settings.instant text = .ok t) :
    Rfc3339.parse text = .ok t := by
  unfold Settings.instant at h
  split at h
  · cases h
    assumption
  · cases h

theorem read?_of_interval {text : String} {d : Span} (h : Settings.interval text = .ok d) :
    Span.read? text = some d := by
  unfold Settings.interval at h
  split at h
  · cases h
    assumption
  · cases h

/-- The clocks of the hosts stay in range: the interval fits into the time between the two ends as
often as there are epochs, and the end is far from the end of the range. -/
theorem IsSet.clock {clock : UInt64} {st : DataSettings} {j : DataJob} (h : j.IsSet clock st) :
    ∀ epoch < epochCount j.population.start j.population.stop j.interval,
      (j.population.start.later? j.interval epoch).isSome := by
  obtain ⟨millis, hpos, hnanos⟩ := Span.read?_eq_some (read?_of_interval h.interval)
  refine Population.clock_of_last (by omega) fun hepochs => ?_
  have hmul := epochCount_mul_le hpos hnanos hepochs
  have hsince := Instant.since_nanos_le j.population.stop j.population.start
  have hstop := Rfc3339.exactNanos_of_parse (parse_of_instant h.stop)
  rw [Int.sub_mul, Int.one_mul]
  simp only [nanosPerSecond] at hsince hstop
  omega

/-- The number of steps of the simulation of a job. -/
def steps (j : DataJob) : Nat :=
  epochCount j.population.start j.population.stop j.interval * j.population.hosts
    * j.population.model.passes

/-- A simulation is set up if its hosts fit in memory and its steps can be counted, only then. -/
theorem simulation_cases (j : DataJob) :
    ((j.population.hosts ≤ roomLimit ∧ j.steps < 2 ^ 64) ∧ ∃ s, j.simulation = .ok s)
      ∨ ((roomLimit < j.population.hosts ∨ 2 ^ 64 ≤ j.steps) ∧ ∃ e, j.simulation = .error e) := by
  by_cases h : j.population.hosts ≤ roomLimit ∧ j.steps < 2 ^ 64
  · exact .inl ⟨h, _, Simulation.init_eq_ok h.1 h.2 _⟩
  · have hout : roomLimit < j.population.hosts ∨ 2 ^ 64 ≤ j.steps := by omega
    exact .inr ⟨hout, Simulation.init_eq_error hout _⟩

theorem IsSet.schedulable {clock : UInt64} {st : DataSettings} {j : DataJob}
    (h : j.IsSet clock st) {s : Simulation ChaCha} (hs : j.simulation = .ok s) :
    j.population.Schedulable j.population.model.passes j.interval := by
  rcases j.simulation_cases with ⟨⟨hroom, hsteps⟩, -⟩ | ⟨-, e, he⟩
  · exact ⟨by cases j.population.model <;> decide, Nat.le_refl _, hroom, hsteps, h.clock⟩
  · rw [hs] at he
    cases he

/-- The simulation of an accepted job stands at its first step. -/
theorem IsSet.stands {clock : UInt64} {st : DataSettings} {j : DataJob} (h : j.IsSet clock st)
    {s : Simulation ChaCha} (hs : j.simulation = .ok s) :
    s.Stands j.population j.population.model.passes j.interval (ChaCha.ofSeed j.seed)
      ∧ s.made = 0 ∧ s.epoch = 0 := by
  obtain ⟨s₀, hinit, hs₀⟩ := Simulation.init_stands (h.schedulable hs) (ChaCha.ofSeed j.seed)
  rw [simulation, hinit] at hs
  cases hs
  exact hs₀

end DataJob

/-! ## The course of an accepted job -/

/-- The point is the sample of a host for one of the columns of a model. -/
def HostModel.Samples (model : HostModel) (tags : List HostTags) (q : Point) : Prop :=
  ∃ h m, Host.tags h ∈ tags ∧ Measurement.column m ∈ model.columns ∧ q = h.sample m

theorem Host.Reports.samples {model : HostModel} {t : Instant} {h : Host}
    (hh : h.Reports model t) {tags : List HostTags} (htags : h.tags ∈ tags) {m : Measurement}
    (hm : m ∈ h.measurements) : model.Samples tags (h.sample m) :=
  ⟨h, m, htags, hh.columns ▸ List.mem_map_of_mem hm, rfl⟩

namespace HostModel.Samples

variable {model : HostModel} {tags : List HostTags} {q : Point}

/-- A sample has the tags of one of the hosts. -/
theorem tags_eq (h : model.Samples tags q) : ∃ t ∈ tags, q.tags.toList = t.toList := by
  obtain ⟨host, m, htags, -, rfl⟩ := h
  exact ⟨host.tags, htags, rfl⟩

/-- A sample has the fields of one of the columns, in their order. -/
theorem column (h : model.Samples tags q) :
    (q.name, q.fields.toList.map (·.1)) ∈ model.columns := by
  obtain ⟨host, m, -, hcolumn, rfl⟩ := h
  show (m.name, m.fields.map (·.1)) ∈ model.columns
  rwa [m.map_fst_fields]

/-- The values of a sample are numbers. -/
theorem values (h : model.Samples tags q) :
    ∀ field ∈ q.fields.toList, (∃ x, field.2 = .float x) ∨ ∃ n, field.2 = .int n := by
  obtain ⟨host, m, -, -, rfl⟩ := h
  intro field hfield
  obtain ⟨metric, -, rfl⟩ := List.mem_map.mp (show field ∈ m.fields from hfield)
  unfold Metric.value
  cases metric.kind with
  | float => exact .inl ⟨_, rfl⟩
  | int => exact .inr ⟨_, rfl⟩

end HostModel.Samples

namespace Simulation

variable {γ : Type} [Words γ] {p : Population} {passes : Nat} {interval : Span} {words : γ}
  {s : Simulation γ}

/-- No step of a simulation has a fault, and each makes a sample of a host. -/
theorem course_samples (h : p.Schedulable passes interval) (hs : s.Stands p passes interval words)
    (halt : Script → Bool) (steps : Nat) :
    (∀ q ∈ (source.course halt steps s []).made, p.model.Samples (p.hostTags words) q.1)
      ∧ ∀ e, (source.course halt steps s []).ending ≠ .fault e := by
  have hcourse := source.course_induction
    (I := fun s made => s.Stands p passes interval words
      ∧ ∀ q ∈ made, p.model.Samples (p.hostTags words) q.1)
    (fun {s made} hI hleft => ?_) halt steps [] ⟨hs, List.forall_mem_nil _⟩
  · exact ⟨hcourse.1.2, hcourse.2⟩
  · obtain ⟨hs, hmade⟩ := hI
    obtain ⟨_, _, _, _, _, s', isWritten, -, -, hm, -, hhost, htags, hnext, hs'⟩ :=
      next_sample h hs (remaining_ne_zero.mp hleft)
    refine ⟨s', isWritten, _, hnext, hs', List.forall_mem_append.mpr ⟨hmade, fun q hq => ?_⟩⟩
    rw [List.mem_singleton.mp hq]
    exact hhost.samples (List.mem_of_getElem? htags) (List.mem_of_getElem? hm)

/-- A simulation that is not told to stop makes all its steps. -/
theorem course_finished (h : p.Schedulable passes interval)
    (hs : s.Stands p passes interval words) :
    (source.course (fun _ => false) s.remaining s []).ending = .finished
      ∧ (source.course (fun _ => false) s.remaining s []).source.finished = true := by
  have hending : (source.course (fun _ => false) s.remaining s []).ending = .finished := by
    cases hend : (source.course (fun _ => false) s.remaining s []).ending with
    | finished => rfl
    | stopped => exact absurd hend (Source.course_not_stopped (fun _ => rfl) _ _ _)
    | fault e => exact absurd hend ((course_samples h hs _ _).2 e)
  refine ⟨hending, ?_⟩
  have hzero : source.remaining
      (source.course (fun _ => false) s.remaining s []).source = 0 :=
    Source.remaining_course (I := fun s => s.Stands p passes interval words)
      (fun hs' hleft hnext => remaining_next h hs' hleft hnext) (fun _ => false) hs
      (Nat.le_refl _) hending
  exact decide_eq_true (Nat.le_of_sub_eq_zero hzero)

end Simulation

namespace DataJob

/-- The tags of the hosts of a job. -/
def hostTags (j : DataJob) : List HostTags := j.population.hostTags (ChaCha.ofSeed j.seed)

/-- No step of an accepted job has a fault, and each makes a sample of a host. -/
theorem IsSet.course {clock : UInt64} {st : DataSettings} {j : DataJob} (h : j.IsSet clock st)
    {s : Simulation ChaCha} (hs : j.simulation = .ok s) (halt : Script → Bool) (steps : Nat) :
    (∀ q ∈ (Simulation.source.course halt steps s []).made,
        j.population.model.Samples j.hostTags q.1)
      ∧ ∀ e, (Simulation.source.course halt steps s []).ending ≠ .fault e :=
  Simulation.course_samples (h.schedulable hs) (h.stands hs).1 halt steps

/-- An accepted job that is not told to stop makes all its steps. -/
theorem IsSet.course_finished {clock : UInt64} {st : DataSettings} {j : DataJob}
    (h : j.IsSet clock st) {s : Simulation ChaCha} (hs : j.simulation = .ok s) :
    (Simulation.source.course (fun _ => false) s.remaining s []).ending = .finished
      ∧ (Simulation.source.course (fun _ => false) s.remaining s []).source.finished = true :=
  Simulation.course_finished (h.schedulable hs) (h.stands hs).1

/-! ## What a job writes -/

/-- What a job writes ahead of its records. -/
def preamble (j : DataJob) (s : Simulation ChaCha) : ByteArray :=
  if j.format.needsPreamble then s.schema.preamble.toUTF8 else .empty

theorem generate_of_error {ω : Type} [Output ω] {j : DataJob} {e : Fault}
    (hs : j.simulation = .error e) (stop : RunStats → Bool) (out : ω) :
    j.generate stop out = .error e := by
  rw [generate, hs]
  rfl

/-- On an unlimited sink a job writes its preamble and then runs its simulation. -/
theorem generate_of_ok {j : DataJob} {s : Simulation ChaCha} (hs : j.simulation = .ok s)
    (stop : RunStats → Bool) :
    j.generate stop ({} : Sink) =
      .ok (run Simulation.source j.format j.share stop s { received := j.preamble s }) := by
  unfold preamble
  split_ifs with hneeds
  · simp [generate, hs, hneeds, Output.write, Sink.write, Sink.room, bind, Except.bind, pure,
      Except.pure]
  · simp [generate, hs, hneeds, bind, Except.bind, pure, Except.pure]

/-! ## Two hosts for a minute -/

/-- Settings for two hosts of the processor model over a minute, one of them online at first. -/
def twoHostSettings : DataSettings where
  format := "timescaledb"
  model := "cpu-only"
  initial := 1
  hosts := 2
  start := "2016-01-01T00:00:00Z"
  stop := "2016-01-01T00:01:00Z"
  seed := 7

/-- The job of those settings. -/
def twoHostJob : DataJob where
  format := .timescaledb
  population :=
    { model := .cpuOnly
      start := .ofSecs 1451606400
      stop := .ofSecs 1451606460
      initial := 1
      hosts := 2 }
  seed := 7
  interval := ⟨10000000000⟩
  share := ⟨0, 1⟩

theorem ofSettings_twoHosts : ofSettings 0 twoHostSettings = .ok twoHostJob := by rfl

end DataJob

end SeriesLoad
