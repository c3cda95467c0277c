import SeriesLoad.Proofs.Query.Hosts
import SeriesLoad.Proofs.Query.Output
import SeriesLoad.Proofs.Simulation.Growth

/-!
# Queries are about data that is there

Queries name hosts and fields, and data jobs write them, and neither looks at the other. **If a
query is made for as many hosts as there are in the data of a job, then the job has written a record
of the processor for each of the hosts that the query names, with all the fields that it names**
(`queries_address_data`).

Both name the hosts by their indices. All hosts are online in the last epoch, so what is left to be
found is the step of that epoch that samples the processor of a host. `Population.IsEntry` says what
each step adds to the script, and `Simulation.InOrder` that it keeps its place when more steps are
made; so a whole course has the entries of all its steps, in their order (`course_inOrder`).
-/

namespace SeriesLoad

variable {γ : Type} [Words γ]

/-! ## Steps and what they add to the script -/

namespace Population

/-- What step `k` adds to a script: the sample of its host for its measurement, to be written if the
host is online. -/
structure IsEntry (p : Population) (passes : Nat) (interval : Span) (k : Nat)
    (entry : Point × Bool) : Prop where
  flag : entry.2 = decide (p.IsOnline passes interval k)
  host : entry.1.tag? "hostname" = some (HostTags.nameOf (k % p.hosts))
  column : p.model.columns[k / p.hosts % passes]? =
    some (entry.1.name, entry.1.fields.toList.map (·.1))

/-- The entry of step `k` that has the time of its epoch. -/
structure IsTimedEntry (p : Population) (passes : Nat) (interval : Span) (k : Nat)
    (entry : Point × Bool) : Prop extends p.IsEntry passes interval k entry where
  time : p.start.later? interval (k / (p.hosts * passes)) = some entry.1.time

end Population

/-- What holds of the entries of a script and of one more behind them holds of all. -/
theorem Script.forall_concat {P : Nat → Point × Bool → Prop} {made : Script} {last : Point × Bool}
    (hmade : ∀ k entry, made[k]? = some entry → P k entry) (hlast : P made.length last) :
    ∀ k entry, (made ++ [last])[k]? = some entry → P k entry := by
  intro k entry hget
  rcases Nat.lt_trichotomy k made.length with hlt | rfl | hgt
  · rw [List.getElem?_append_left hlt] at hget
    exact hmade k entry hget
  · rw [List.getElem?_concat_length, Option.some.injEq] at hget
    exact hget ▸ hlast
  · have hout : (made ++ [last]).length ≤ k := by
      rw [List.length_append]
      exact hgt
    rw [List.getElem?_eq_none hout] at hget
    cases hget

namespace Simulation

variable {p : Population} {passes : Nat} {interval : Span} {words : γ} {s : Simulation γ}

theorem next_isTimedEntry (h : p.Schedulable passes interval)
    (hs : s.Stands p passes interval words) (hg : s.Grown p interval) (hmade : s.made < s.budget) :
    ∃ s' isWritten q, s.next .empty = .ok (s', isWritten, q)
      ∧ p.IsTimedEntry passes interval s.made (q, isWritten)
      ∧ s'.Stands p passes interval words ∧ s'.Grown p interval ∧ s'.made = s.made + 1 := by
  obtain ⟨s', q, hnext, hs', hg', hmade'⟩ := next_grown h hs hg hmade .empty
  obtain ⟨hosts, left, host, m, t, s₁, isWritten, -, -, hm, ht, hhost, htags, hnext₁, -⟩ :=
    next_sample h hs hmade
  rw [hnext, Except.ok.injEq, Prod.mk.injEq, Prod.mk.injEq] at hnext₁
  obtain ⟨-, -, rfl⟩ := hnext₁
  have htime : (host.sample m).time = t := (hhost.ready m (List.mem_of_getElem? hm)).time
  refine ⟨s', _, _, hnext, ⟨⟨rfl, ?_, ?_⟩, htime ▸ ht⟩, hs', hg', hmade'⟩
  · rw [tag?_sample, p.hostname_hostTags htags]
  · rw [← hhost.column, hm]
    exact congrArg (fun keys => some (m.name, keys)) m.map_fst_fields.symm

/-- Entry `k` of the script is the one of step `k`. -/
structure InOrder (s : Simulation γ) (p : Population) (passes : Nat) (interval : Span) (words : γ)
    (made : Script) : Prop where
  stands : s.Stands p passes interval words
  grown : s.Grown p interval
  length : made.length = s.made
  made_le : s.made ≤ s.budget
  entries : ∀ k entry, made[k]? = some entry → p.IsTimedEntry passes interval k entry

theorem next_inOrder (h : p.Schedulable passes interval) {made : Script}
    (hs : s.InOrder p passes interval words made) (hmade : s.made < s.budget) :
    ∃ s' isWritten q, s.next .empty = .ok (s', isWritten, q)
      ∧ s'.InOrder p passes interval words (made ++ [(q, isWritten)]) := by
  obtain ⟨s', isWritten, q, hnext, hentry, hstands, hgrown, hmade'⟩ :=
    next_isTimedEntry h hs.stands hs.grown hmade
  refine ⟨s', isWritten, q, hnext, hstands, hgrown, ?_, ?_, ?_⟩
  · rw [List.length_append, hs.length, hmade']
    rfl
  · rw [hmade', hstands.budget_eq, ← hs.stands.budget_eq]
    exact hmade
  · refine Script.forall_concat hs.entries ?_
    rw [hs.length]
    exact hentry

/-- A course that makes all steps has their entries in order and no others. -/
theorem course_inOrder (h : p.Schedulable passes interval) (hs : s.Stands p passes interval words)
    (hg : s.Grown p interval) (hmade : s.made = 0) :
    let made := (source.course (fun _ => false) s.remaining s []).made
    made.length = epochCount p.start p.stop interval * p.hosts * passes
      ∧ ∀ k entry, made[k]? = some entry → p.IsTimedEntry passes interval k entry := by
  have hstart : s.InOrder p passes interval words [] := by
    refine ⟨hs, hg, hmade.symm, hmade ▸ Nat.zero_le _, ?_⟩
    intro k entry hget
    cases hget
  obtain ⟨hcourse, -⟩ := source.course_induction
    (I := fun s made => s.InOrder p passes interval words made)
    (fun hs hleft => next_inOrder h hs (remaining_ne_zero.mp hleft))
    (fun _ => false) s.remaining [] hstart
  refine ⟨?_, hcourse.entries⟩
  rw [hcourse.length]
  refine Nat.le_antisymm ?_ ((finished_iff hcourse.stands).mp (course_finished h hs).2)
  rw [← hcourse.stands.budget_eq]
  exact hcourse.made_le

/-- A course that makes all steps has an entry for each of them. -/
theorem course_isEntry (h : p.Schedulable passes interval) (hs : s.Stands p passes interval words)
    (hg : s.Grown p interval) (hmade : s.made = 0) {k : Nat} (hk : k < s.budget) :
    ∃ entry ∈ (source.course (fun _ => false) s.remaining s []).made,
      p.IsEntry passes interval k entry := by
  obtain ⟨hlength, hentries⟩ := course_inOrder h hs hg hmade
  rw [hs.budget_eq, ← hlength] at hk
  have hget := List.getElem?_eq_getElem hk
  exact ⟨_, List.mem_of_getElem? hget, (hentries k _ hget).toIsEntry⟩

/-- The points that are written if a simulation makes all its steps. -/
def points (s : Simulation γ) : List Point :=
  Script.emitted (source.course (fun _ => false) s.remaining s []).made

end Simulation

/-! ## Readings of all hosts -/

/-- All hosts are online in the last epoch. -/
def Population.GrowsFull (p : Population) (interval : Span) : Prop :=
  2 ≤ epochCount p.start p.stop interval
    ∨ epochCount p.start p.stop interval = 1 ∧ p.hosts ≤ p.initial

theorem Population.GrowsFull.onlineAt_last {p : Population} {interval : Span}
    (h : p.GrowsFull interval) :
    p.onlineAt interval (epochCount p.start p.stop interval - 1) = p.hosts := by
  rcases h with htwo | ⟨hone, hinitial⟩
  · exact Population.onlineAt_last htwo
  · rw [hone, Nat.sub_self, onlineAt_zero, Nat.min_eq_right hinitial]

/-- In the last epoch there is a step for each host and measurement, and the host is online. -/
theorem Population.GrowsFull.exists_step {p : Population} {interval : Span}
    (h : p.GrowsFull interval) {passes pass host : Nat} (hpass : pass < passes)
    (hhost : host < p.hosts) :
    ∃ k < epochCount p.start p.stop interval * p.hosts * passes,
      k % p.hosts = host ∧ k / p.hosts % passes = pass ∧ p.IsOnline passes interval k := by
  have hlast : epochCount p.start p.stop interval - 1 < epochCount p.start p.stop interval := by
    rcases h with htwo | ⟨hone, -⟩
    · omega
    · omega
  obtain ⟨hmod, hdiv, hepoch⟩ :=
    Simulation.step_place (epochCount p.start p.stop interval - 1) hpass hhost
  refine ⟨_, Simulation.step_lt hlast hpass hhost, hmod, hdiv, ?_⟩
  rw [IsOnline, hmod, hepoch, h.onlineAt_last]
  exact hhost

/-- The point has all readings of the processor of a host. -/
structure Point.IsReading (q : Point) (host : String) : Prop where
  name : q.name = Metric.Cpu.name
  host : q.tag? "hostname" = some host
  fields : q.fields.toList.map (·.1) = Metric.Cpu.keys

theorem Point.IsReading.isSome_field? {q : Point} {host field : String} (h : q.IsReading host)
    (hfield : field ∈ Metric.Cpu.keys) : (q.field? field).isSome = true := by
  rw [← h.fields] at hfield
  obtain ⟨pair, hpair, rfl⟩ := List.mem_map.mp hfield
  rw [field?, Option.isSome_map, Array.find?_isSome]
  exact ⟨pair, Array.mem_toList_iff.mp hpair, beq_self_eq_true _⟩

theorem HostModel.columns_zero {model : HostModel} (h : model ≠ .cpuSingle) :
    model.columns[0]? = some (Metric.Cpu.name, Metric.Cpu.keys) := by
  cases model with
  | devops => rfl
  | cpuOnly => rfl
  | cpuSingle => exact absurd rfl h

namespace DataJob

/-- The run of a job came to its end, and has written the records of some points and nothing else
behind what stands ahead of them. -/
structure Wrote (j : DataJob) (points : List Point) (ended : RunEnd (Simulation ChaCha) Sink) :
    Prop where
  result : ∃ stats, ended.result = .ok stats ∧ stats.interrupted = false
  finished : ended.source.finished = true
  received : ∃ s, j.simulation = .ok s
    ∧ ended.output.received = j.preamble s ++ joined (points.map j.format.recordOf)
  encodes : ∀ q ∈ points, j.format.Encodes q

theorem IsSet.share_one {clock : UInt64} {st : DataSettings} {j : DataJob} (h : j.IsSet clock st)
    (hgroups : st.groups = 1) : j.share = ⟨0, 1⟩ := by
  have hshare := h.share
  unfold Settings.share at hshare
  split_ifs at hshare with hzero hle
  rw [hgroups] at hle
  rw [← Except.ok.inj hshare, hgroups, Nat.lt_one_iff.mp (Nat.lt_of_not_le hle)]

theorem IsSet.grown {clock : UInt64} {st : DataSettings} {j : DataJob} (h : j.IsSet clock st)
    {s : Simulation ChaCha} (hs : j.simulation = .ok s) : s.Grown j.population j.interval := by
  obtain ⟨s₀, hinit, -, hgrown, -⟩ :=
    Simulation.init_grown (h.schedulable hs) (ChaCha.ofSeed j.seed)
  rw [simulation, hinit] at hs
  cases hs
  exact hgrown

/-- A job of one group whose simulation can be set up writes all its points. -/
theorem IsSet.generate_wrote {clock : UInt64} {st : DataSettings} {j : DataJob}
    (h : j.IsSet clock st) (hgroups : st.groups = 1) {s : Simulation ChaCha}
    (hs : j.simulation = .ok s) :
    ∃ ended, j.generate (fun _ => false) ({} : Sink) = .ok ended ∧ j.Wrote s.points ended := by
  obtain ⟨hfinished, hsource⟩ := h.course_finished hs
  refine ⟨_, generate_of_ok hs _, ?_⟩
  rw [h.share_one hgroups, h.run_eq_ofCourse hs ⟨0, 1⟩ Nat.one_pos (fun _ => false) _ rfl]
  refine ⟨⟨_, RunState.ofCourse_finished _ hfinished, rfl⟩, hsource, ⟨s, hs, ?_⟩, ?_⟩
  · simp only [RunState.ofCourse, RunState.after, Share.deal_whole, Simulation.points]
  · intro q hq
    exact ((h.course hs _ _).1 _ (Script.mem_emitted.mp hq)).encodes j.format

/-- A job of one group whose simulation can be set up writes readings of the processor of every
host. -/
theorem generate_readings {clock : UInt64} {st : DataSettings} {j : DataJob}
    {ended : RunEnd (Simulation ChaCha) Sink} (h : ofSettings clock st = .ok j)
    (hgroups : st.groups = 1) (hmodel : j.population.model ≠ .cpuSingle)
    (hgrows : j.population.GrowsFull j.interval)
    (hended : j.generate (fun _ => false) ({} : Sink) = .ok ended) :
    ∃ points, j.Wrote points ended
      ∧ ∀ i < j.population.hosts, ∃ q ∈ points, q.IsReading (HostTags.nameOf i) := by
  have hset := ofSettings_eq_ok.mp h
  cases hs : j.simulation with
  | error e =>
    rw [generate_of_error hs] at hended
    cases hended
  | ok s =>
    have hschedulable := hset.schedulable hs
    obtain ⟨hstands, hmade, -⟩ := hset.stands hs
    obtain ⟨ended', hended', hwrote⟩ := hset.generate_wrote hgroups hs
    rw [hended, Except.ok.injEq] at hended'
    refine ⟨s.points, hended' ▸ hwrote, ?_⟩
    intro i hi
    obtain ⟨k, hk, hhost, hpass, honline⟩ := hgrows.exists_step hschedulable.passes_pos hi
    rw [← hstands.budget_eq] at hk
    obtain ⟨⟨q, isWritten⟩, hmem, hentry⟩ :=
      Simulation.course_isEntry hschedulable hstands (hset.grown hs) hmade hk
    have hwritten : isWritten = true := hentry.flag.trans (decide_eq_true honline)
    have hname := hentry.host
    have hcolumn := hentry.column
    rw [hhost] at hname
    rw [hpass, HostModel.columns_zero hmodel, Option.some_inj, Prod.mk.injEq] at hcolumn
    refine ⟨q, Script.mem_emitted.mpr (hwritten ▸ hmem), ?_⟩
    exact ⟨hcolumn.1.symm, hname, hcolumn.2.symm⟩

end DataJob

/-! ## Queries and data -/

/-- A query of any engine names as many hosts as its type says, all different, and the metrics of its
type, all of them and no others. Each of the hosts is the host of a record in the data of every job
that has as many hosts as the query was made for, and the record is one of the processor and has all
fields that the query names. -/
theorem queries_address_data (f : Format) (database : String) (all : Interval) (words : γ)
    (t : QueryType) (before : List Nat) {n : Nat} {x : Named}
    (h : f.named database all words t before n = .ok (.ok x)) :
    x.hosts.length = t.hostCount ∧ x.hosts.Nodup ∧ x.fields = t.metrics
      ∧ ∀ {clock : UInt64} {st : DataSettings} {j : DataJob}
          {ended : RunEnd (Simulation ChaCha) Sink},
        DataJob.ofSettings clock st = .ok j → st.groups = 1 → j.population.hosts = n →
        j.population.model ≠ .cpuSingle → j.population.GrowsFull j.interval →
        j.generate (fun _ => false) ({} : Sink) = .ok ended →
        ∃ points, j.Wrote points ended ∧ ∀ host ∈ x.hosts, ∃ q ∈ points,
          q.IsReading host ∧ ∀ field ∈ x.fields, (q.field? field).isSome = true := by
  have hnames := Format.named_eq_ok h
  refine ⟨hnames.length, hnames.nodup, hnames.fields, ?_⟩
  intro clock st j ended hset hgroups hhosts hmodel hgrows hended
  obtain ⟨points, hwrote, hreadings⟩ :=
    DataJob.generate_readings hset hgroups hmodel hgrows hended
  refine ⟨points, hwrote, ?_⟩
  intro host hhost
  obtain ⟨i, hi, rfl⟩ := hnames.exist host hhost
  rw [← hhosts] at hi
  obtain ⟨q, hq, hreading⟩ := hreadings i hi
  refine ⟨q, hq, hreading, ?_⟩
  intro field hfield
  rw [hnames.fields] at hfield
  exact hreading.isSome_field? (t.metrics_subset field hfield)

/-- A query about one of the two hosts of a minute of data, out of an interval of thirty hours. -/
theorem queries_address_data_two_hosts :
    let all : Interval := ⟨{ secs := 1451606400, nanos := 0 }, { secs := 1451714400, nanos := 0 }⟩
    ∃ x ended, Format.influx.named "benchmark" all (ChaCha.ofSeed 11) (.highCpu 1) [] 2 =
        .ok (.ok x)
      ∧ DataJob.ofSettings 0 DataJob.twoHostSettings = .ok DataJob.twoHostJob
      ∧ DataJob.twoHostJob.generate (fun _ => false) ({} : Sink) = .ok ended
      ∧ x.hosts.length = 1 ∧ x.hosts.Nodup ∧ x.fields = ["usage_user"]
      ∧ ∃ points, DataJob.twoHostJob.Wrote points ended ∧ ∀ host ∈ x.hosts, ∃ q ∈ points,
        q.IsReading host ∧ ∀ field ∈ x.fields, (q.field? field).isSome = true := by
  intro all
  have hall : all.Fits :=
    ⟨⟨by decide, by decide, by decide⟩, ⟨by decide, by decide, by decide⟩, by decide⟩
  have hat := Engine.at_start (q := LineRequest) "benchmark" all (ChaCha.ofSeed 11)
  have ht : (QueryType.highCpu 1).Small := QueryType.small_of_mem_catalogue (.head _)
  have hpossible : (QueryType.highCpu 1).Possible all 2 := ⟨by decide, by decide⟩
  rcases hat.dispatch_cases hall ht (n := 2) with
    ⟨-, question, words', e', hmade, -⟩ | ⟨hnot, -⟩
  · have hnamed : Format.influx.named "benchmark" all (ChaCha.ofSeed 11) (.highCpu 1) [] 2 =
        .ok (.ok (NamingDialect.named (FaithfulDialect.asking "benchmark" question :
          LineRequest))) := by
      rw [Format.named, Engine.named, Engine.answer, hmade]
      rfl
    rcases DataJob.twoHostJob.simulation_cases with ⟨-, s, hs⟩ | ⟨hout, -⟩
    · have hended := DataJob.generate_of_ok hs fun _ => false
      obtain ⟨hlength, hnodup, hfields, hdata⟩ := queries_address_data .influx "benchmark" all
        (ChaCha.ofSeed 11) (.highCpu 1) [] hnamed
      exact ⟨_, _, hnamed, DataJob.ofSettings_twoHosts, hended, hlength, hnodup, hfields,
        hdata DataJob.ofSettings_twoHosts rfl rfl (by decide) (.inl (by decide)) hended⟩
    · rcases hout with hroom | hsteps
      · exact absurd hroom (by decide)
      · exact absurd hsteps (by decide)
  · exact absurd hpossible hnot

end SeriesLoad
