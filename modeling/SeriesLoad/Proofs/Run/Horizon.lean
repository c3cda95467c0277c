import SeriesLoad.Proofs.Line.Reader
import SeriesLoad.Proofs.Run.Lockstep
import SeriesLoad.Proofs.Run.Partition
import SeriesLoad.Proofs.Simulation.Stream

/-!
# Jobs with other ends

What the hosts of a job report is fixed by its seed, host model, start, number of hosts and interval.
**Jobs that agree on these make the same points**, for as long as both have steps to make, and if all
hosts are online from the first epoch on then **the output of the job with fewer epochs is a
beginning of the output of the other** (`jobs_share_stream`). The end of time, the growth, the format
and the share say which of the points are written and how.

An earlier end means no more epochs as long as no leap second is involved (`epochCount_mono`,
`since_mono`). In general it does not: `Instant.since` counts a leap second only if one of the two
instants is in it, so from the second before it is further to an end in the leap second than to the
midnight behind it (`earlier_end_longer`).
-/

namespace SeriesLoad

/-! ## Further ends -/

/-- Outside leap seconds a later instant is further away. -/
theorem Instant.since_mono {a b c : Instant} (ha : a.isLeap = false) (hb : b.isLeap = false)
    (hc : c.isLeap = false) (h : b ≤ c) : (b.since a).nanos ≤ (c.since a).nanos := by
  have hb' := nanos_lt_of_isLeap_eq_false hb
  have hle : b.exactNanos ≤ c.exactNanos := by
    simp only [exactNanos, nanosPerSecond] at *
    rcases h with hlt | ⟨heq, hle⟩
    · omega
    · omega
  rw [since_of_not_leap hb ha, since_of_not_leap hc ha]
  exact Int.sub_le_sub_right hle _

/-- Over a longer time there are no fewer epochs. -/
theorem epochCount_mono {start stop stop' : Instant} (d : Span)
    (h : (stop.since start).nanos ≤ (stop'.since start).nanos) :
    epochCount start stop d ≤ epochCount start stop' d := by
  have hwindow : (stop.since start).wholeMillis ≤ (stop'.since start).wholeMillis :=
    Int.tdiv_le_tdiv (by decide) h
  unfold epochCount
  by_cases hnone : d.wholeMillis ≤ 0 ∨ (stop.since start).wholeMillis ≤ 0
  · rw [if_pos hnone]
    exact Nat.zero_le _
  · have hsome : ¬ (d.wholeMillis ≤ 0 ∨ (stop'.since start).wholeMillis ≤ 0) := by omega
    rw [if_neg hnone, if_neg hsome]
    exact Int.toNat_le_toNat (Int.ediv_le_ediv (by omega) hwindow)

/-! ## Aligned simulations -/

namespace Simulation

variable {γ : Type} {s t : Simulation γ}

/-- The simulations have one stream and all their hosts online, and the first ends no later than the
second. -/
structure Aligned (s t : Simulation γ) : Prop where
  stream_eq : s.stream = t.stream
  left : s.Counted
  right : t.Counted
  leftOnline : s.AllOnline
  rightOnline : t.AllOnline
  budget_le : s.budget ≤ t.budget

theorem Aligned.made_eq (h : s.Aligned t) : s.made = t.made := by
  show s.stream.made = t.stream.made
  rw [h.stream_eq]

theorem Aligned.remaining_le (h : s.Aligned t) : s.remaining ≤ t.remaining := by
  rw [remaining, remaining, h.made_eq]
  exact Nat.sub_le_sub_right h.budget_le _

/-- While the first has steps left, both make the same step and stay aligned. -/
theorem together_aligned [Words γ] : RunState.Together source (Aligned (γ := γ)) := by
  intro s t h hleft buffer
  have hmade : s.made < s.budget := remaining_ne_zero.mp hleft
  have hmade' : t.made < t.budget := h.made_eq ▸ Nat.lt_of_lt_of_le hmade h.budget_le
  rcases next_of_stream_eq h.stream_eq h.left h.right hmade hmade' buffer with
    hfault | ⟨s', t', w, w', q, hs, ht, hstream⟩
  · exact .inl hfault
  · obtain ⟨hleft', -, hbudget⟩ := next_counted h.left hmade hs
    obtain ⟨hright', -, hbudget'⟩ := next_counted h.right hmade' ht
    obtain ⟨rfl, honline⟩ := next_allOnline h.left hmade h.leftOnline hs
    obtain ⟨rfl, honline'⟩ := next_allOnline h.right hmade' h.rightOnline ht
    refine .inr ⟨s', t', true, q, hs, ht, hstream, hleft', hright', honline, honline', ?_⟩
    rw [hbudget, hbudget']
    exact h.budget_le

end Simulation

/-! ## Jobs -/

namespace DataJob

/-- The jobs agree on all that their points depend on. -/
structure SameStream (j j' : DataJob) : Prop where
  seed : j.seed = j'.seed
  model : j.population.model = j'.population.model
  start : j.population.start = j'.population.start
  hosts : j.population.hosts = j'.population.hosts
  interval : j.interval = j'.interval

/-- The number of epochs of the simulation of a job. -/
def epochs (j : DataJob) : Nat := epochCount j.population.start j.population.stop j.interval

theorem simulation_counted {j : DataJob} {s : Simulation ChaCha} (hs : j.simulation = .ok s) :
    s.Counted ∧ s.made = 0 ∧ s.budget = j.steps ∧ s.hosts.size = j.population.hosts
      ∧ s.initial = min j.population.initial j.population.hosts
      ∧ s.online = min j.population.initial j.population.hosts := by
  have hpos : 0 < j.population.model.passes := by cases j.population.model <;> decide
  rcases j.simulation_cases with ⟨⟨hroom, hsteps⟩, -⟩ | ⟨-, e, he⟩
  · obtain ⟨s', hinit, hs'⟩ := Simulation.init_counted hpos hroom hsteps (ChaCha.ofSeed j.seed)
    have heq : s' = s := by
      rw [simulation, hinit] at hs
      exact Except.ok.inj hs
    exact heq ▸ hs'
  · rw [hs] at he
    cases he

theorem SameStream.stream_eq {j j' : DataJob} (h : j.SameStream j') {s s' : Simulation ChaCha}
    (hs : j.simulation = .ok s) (hs' : j'.simulation = .ok s') : s.stream = s'.stream := by
  obtain ⟨format, ⟨model, start, stop, initial, hosts⟩, seed, interval, share⟩ := j
  obtain ⟨format', ⟨model', start', stop', initial', hosts'⟩, seed', interval', share'⟩ := j'
  obtain ⟨hseed, hmodel, hstart, hhosts, hinterval⟩ := h
  simp only at hseed hmodel hstart hhosts hinterval
  subst hseed hmodel hstart hhosts hinterval
  obtain ⟨-, hroom, hs⟩ := Except.bind_eq_ok.mp hs
  obtain ⟨-, -, hs'⟩ := Except.bind_eq_ok.mp hs'
  obtain ⟨budget, -, hs⟩ := Except.bind_eq_ok.mp hs
  obtain ⟨budget', -, hs'⟩ := Except.bind_eq_ok.mp hs'
  cases hs
  cases hs'
  rfl

/-- A job has the fault of too many hosts before any other. -/
theorem generate_noRoom {j : DataJob} (h : roomLimit < j.population.hosts)
    (stop : RunStats → Bool) (out : Sink) : j.generate stop out = .error .noRoom := by
  refine generate_of_error ?_ stop out
  simp only [simulation, Simulation.init, requireRoom, if_neg (Nat.not_le_of_lt h), bind,
    Except.bind]

theorem SameStream.preamble_eq {j j' : DataJob} (h : j.SameStream j') (hformat : j.format = j'.format)
    {s s' : Simulation ChaCha} (hs : j.simulation = .ok s) (hs' : j'.simulation = .ok s') :
    j.preamble s = j'.preamble s' := by
  have hschema : s.schema = s'.schema := by
    show s.stream.schema = s'.stream.schema
    rw [h.stream_eq hs hs']
  rw [preamble, preamble, hformat, hschema]

/-- All hosts of the job are online from the first epoch on. -/
def AllOnline (j : DataJob) : Prop := j.population.initial = j.population.hosts

theorem AllOnline.simulation {j : DataJob} (h : j.AllOnline) {s : Simulation ChaCha}
    (hs : j.simulation = .ok s) : s.AllOnline := by
  obtain ⟨-, -, -, hsize, hinitial, honline⟩ := simulation_counted hs
  have hmin : min j.population.initial j.population.hosts = j.population.hosts := by
    rw [show j.population.initial = j.population.hosts from h, Nat.min_self]
  exact ⟨by rw [hinitial, hsize, hmin], by rw [honline, hsize, hmin]⟩

/-- Of two jobs with one stream, the one with fewer epochs has fewer steps. -/
theorem SameStream.steps_le {j j' : DataJob} (h : j.SameStream j') (hle : j.epochs ≤ j'.epochs) :
    j.steps ≤ j'.steps := by
  show j.epochs * j.population.hosts * j.population.model.passes ≤
    j'.epochs * j'.population.hosts * j'.population.model.passes
  rw [h.hosts, h.model]
  exact Nat.mul_le_mul_right _ (Nat.mul_le_mul_right _ hle)

/-- A run of an accepted job comes to its end. -/
theorem IsSet.completes {clock : UInt64} {st : DataSettings} {j : DataJob} (h : j.IsSet clock st)
    {s : Simulation ChaCha} (hs : j.simulation = .ok s)
    {ended : RunEnd (Simulation ChaCha) Sink}
    (hended : j.generate (fun _ => false) ({} : Sink) = .ok ended) :
    ∃ stats, ended.result = .ok stats := by
  have hpos : 0 < j.share.groups := Nat.zero_lt_of_lt h.share_lt
  rw [generate_of_ok hs, h.run_eq_ofCourse hs j.share hpos _ _ rfl] at hended
  cases hended
  exact ⟨_, RunState.ofCourse_finished _ (h.course_finished hs).1⟩

/-- An accepted job makes a point in every step. -/
theorem IsSet.filled_ok {clock : UInt64} {st : DataSettings} {j : DataJob} (h : j.IsSet clock st)
    {s : Simulation ChaCha} (hs : j.simulation = .ok s) (buffers : List Point) (buffer : Point)
    (hlt : buffers.length < j.steps) :
    ∃ q, ((s.steps buffers).bind fun s => s.filled buffer) = .ok q := by
  obtain ⟨hstands, hmade, -⟩ := h.stands hs
  have hsteps := h.schedulable hs
  have hbudget : s.made + buffers.length < s.budget := by
    rw [hmade, Nat.zero_add, hstands.budget_eq]
    exact hlt
  obtain ⟨s', hrun, hs', hmade'⟩ :=
    Simulation.steps_stands hsteps hstands buffers (Nat.le_of_lt hbudget)
  have hleft : s'.made < s'.budget := by
    rw [hmade', hs'.budget_eq, ← hstands.budget_eq]
    exact hbudget
  obtain ⟨_, _, host, _, _, -, -, hnext, -⟩ := Simulation.next_stands hsteps hs' hleft buffer
  refine ⟨host.fill (s'.made / j.population.hosts % j.population.model.passes) buffer, ?_⟩
  rw [hrun, Except.bind, Simulation.filled, hnext]
  rfl

/-- The simulations of two jobs that have all hosts online differ only in what is left to be done. -/
theorem SameStream.aligned {j j' : DataJob} (h : j.SameStream j') (honline : j.AllOnline)
    (honline' : j'.AllOnline) (hle : j.epochs ≤ j'.epochs) {s s' : Simulation ChaCha}
    (hs : j.simulation = .ok s) (hs' : j'.simulation = .ok s') : s.Aligned s' := by
  obtain ⟨hcounted, -, hbudget, -⟩ := simulation_counted hs
  obtain ⟨hcounted', -, hbudget', -⟩ := simulation_counted hs'
  refine ⟨h.stream_eq hs hs', hcounted, hcounted', honline.simulation hs, honline'.simulation hs', ?_⟩
  rw [hbudget, hbudget']
  exact h.steps_le hle

/-- The job with fewer epochs writes a beginning of what the other writes. -/
theorem SameStream.generate_extends {j j' : DataJob} (h : j.SameStream j') (honline : j.AllOnline)
    (honline' : j'.AllOnline) (hformat : j.format = j'.format) (hshare : j.share = j'.share)
    (hle : j.epochs ≤ j'.epochs) {ended ended' : RunEnd (Simulation ChaCha) Sink}
    (hended : j.generate (fun _ => false) ({} : Sink) = .ok ended)
    (hended' : j'.generate (fun _ => false) ({} : Sink) = .ok ended') :
    ended'.output.Extends ended.output := by
  cases hs : j.simulation with
  | error e =>
    rw [generate_of_error hs] at hended
    cases hended
  | ok s =>
    cases hs' : j'.simulation with
    | error e =>
      rw [generate_of_error hs'] at hended'
      cases hended'
    | ok s' =>
      have haligned := h.aligned honline honline' hle hs hs'
      have hextends := RunState.loop_prefix Simulation.together_aligned
        (fun h => h.remaining_le) j.format j.share (fun _ => false)
        { source := s, output := { received := j.preamble s } } haligned haligned.remaining_le
      rw [generate_of_ok hs] at hended
      rw [generate_of_ok hs', ← h.preamble_eq hformat hs hs', ← hformat, ← hshare] at hended'
      cases hended
      cases hended'
      exact hextends

/-- Jobs that agree on seed, host model, start, hosts and interval make the same points: whatever is
in the buffer, step `k` makes the same of it in both, as long as `k` is below the number of steps of
either. If all hosts are online from the first epoch on, and the format and the share are the same,
then the output of the job with no more epochs is a beginning of the output of the other. The job
with the earlier end has no more epochs if neither the start nor an end is in a leap second. -/
theorem jobs_share_stream (j j' : DataJob) (h : j.SameStream j') :
    (∀ s s', j.simulation = .ok s → j'.simulation = .ok s' →
      ∀ (buffers : List Point) (buffer : Point),
        buffers.length < j.steps → buffers.length < j'.steps →
        (((s.steps buffers).bind fun s => s.filled buffer) =
          (s'.steps buffers).bind fun s => s.filled buffer)
        ∧ ∀ clock st, ofSettings clock st = .ok j →
          ∃ q, ((s.steps buffers).bind fun s => s.filled buffer) = .ok q)
    ∧ (j.AllOnline → j'.AllOnline → j.format = j'.format → j.share = j'.share →
      j.steps < 2 ^ 64 → j'.steps < 2 ^ 64 → j.epochs ≤ j'.epochs →
      (roomLimit < j.population.hosts
        ∧ j.generate (fun _ => false) ({} : Sink) = .error .noRoom
        ∧ j'.generate (fun _ => false) ({} : Sink) = .error .noRoom)
      ∨ ∃ ended ended', j.generate (fun _ => false) ({} : Sink) = .ok ended
        ∧ j'.generate (fun _ => false) ({} : Sink) = .ok ended'
        ∧ (∃ more, ended'.output.received = ended.output.received ++ more)
        ∧ (∀ clock st, ofSettings clock st = .ok j → ∃ stats, ended.result = .ok stats)
        ∧ ∀ clock st, ofSettings clock st = .ok j' → ∃ stats, ended'.result = .ok stats)
    ∧ (j.population.start.isLeap = false → j.population.stop.isLeap = false →
      j'.population.stop.isLeap = false → j.population.stop ≤ j'.population.stop →
      j.epochs ≤ j'.epochs) := by
  refine ⟨?_, ?_, ?_⟩
  · intro s s' hs hs' buffers buffer hlt hlt'
    obtain ⟨hcounted, hmade, hbudget, -⟩ := simulation_counted hs
    obtain ⟨hcounted', hmade', hbudget', -⟩ := simulation_counted hs'
    have hroom : s.made + buffers.length < s.budget := by
      rw [hmade, hbudget, Nat.zero_add]
      exact hlt
    have hroom' : s'.made + buffers.length < s'.budget := by
      rw [hmade', hbudget', Nat.zero_add]
      exact hlt'
    constructor
    · exact Simulation.filled_of_stream_eq (h.stream_eq hs hs') hcounted hcounted' buffers buffer
        hroom hroom'
    · intro clock st hset
      exact (ofSettings_eq_ok.mp hset).filled_ok hs buffers buffer hlt
  · intro honline honline' hformat hshare hsteps hsteps' hle
    by_cases hroom : j.population.hosts ≤ roomLimit
    · right
      have hroom' : j'.population.hosts ≤ roomLimit := h.hosts ▸ hroom
      obtain ⟨s, hs⟩ : ∃ s, j.simulation = .ok s := ⟨_, Simulation.init_eq_ok hroom hsteps _⟩
      obtain ⟨s', hs'⟩ : ∃ s', j'.simulation = .ok s' := ⟨_, Simulation.init_eq_ok hroom' hsteps' _⟩
      have hended := generate_of_ok hs fun _ => false
      have hended' := generate_of_ok hs' fun _ => false
      refine ⟨_, _, hended, hended', ?_, ?_, ?_⟩
      · exact h.generate_extends honline honline' hformat hshare hle hended hended'
      · intro clock st hset
        exact (ofSettings_eq_ok.mp hset).completes hs hended
      · intro clock st hset
        exact (ofSettings_eq_ok.mp hset).completes hs' hended'
    · left
      have hout : roomLimit < j.population.hosts := Nat.lt_of_not_le hroom
      exact ⟨hout, generate_noRoom hout _ _, generate_noRoom (h.hosts ▸ hout) _ _⟩
  · intro hstart hstop hstop' hle
    have hfurther := Instant.since_mono hstart hstop hstop' hle
    have hepochs := epochCount_mono j.interval hfurther
    rw [epochs, epochs, ← h.start, ← h.interval]
    exact hepochs

/-- Two hosts of the processor model, both online from the start, for half a minute. -/
def halfMinute : DataJob :=
  { twoHostJob with
    population := { twoHostJob.population with initial := 2, stop := .ofSecs 1451606430 } }

/-- The same hosts for a minute. -/
def wholeMinute : DataJob :=
  { twoHostJob with population := { twoHostJob.population with initial := 2 } }

theorem jobs_share_stream_two_hosts :
    halfMinute.SameStream wholeMinute ∧ halfMinute.epochs = 3 ∧ wholeMinute.epochs = 6
      ∧ ∃ ended ended', halfMinute.generate (fun _ => false) ({} : Sink) = .ok ended
        ∧ wholeMinute.generate (fun _ => false) ({} : Sink) = .ok ended'
        ∧ ∃ more, ended'.output.received = ended.output.received ++ more := by
  have hsame : halfMinute.SameStream wholeMinute := ⟨rfl, rfl, rfl, rfl, rfl⟩
  refine ⟨hsame, by decide, by decide, ?_⟩
  obtain ⟨-, hprefix, -⟩ := jobs_share_stream halfMinute wholeMinute hsame
  rcases hprefix rfl rfl rfl rfl (by decide) (by decide) (by decide) with
    ⟨hroom, -⟩ | ⟨ended, ended', hended, hended', hmore, -⟩
  · exact absurd hroom (by decide)
  · exact ⟨ended, ended', hended, hended', hmore⟩

/-! ## An end in a leap second -/

/-- Settings for one host from the last second of 2016 to the middle of its leap second, sampled
after one and a half seconds. -/
def leapSettings : DataSettings where
  format := "influx"
  model := "cpu-single"
  start := "2016-12-31T23:59:59Z"
  stop := "2016-12-31T23:59:60.5Z"
  seed := 7
  interval := "1500ms"

/-- The settings with the midnight behind the leap second as their end. -/
def midnightSettings : DataSettings := { leapSettings with stop := "2017-01-01T00:00:00Z" }

/-- The job of the settings that end in the leap second. -/
def leapJob : DataJob where
  format := .influx
  population :=
    { model := .cpuSingle
      start := .ofSecs 1483228799
      stop := { secs := 1483228799, nanos := 1500000000 }
      initial := 1
      hosts := 1 }
  seed := 7
  interval := ⟨1500000000⟩
  share := ⟨0, 1⟩

/-- The job of the settings that end at midnight. -/
def midnightJob : DataJob :=
  { leapJob with population := { leapJob.population with stop := .ofSecs 1483228800 } }

/-- There is one epoch until the leap second, and so one record. -/
theorem generate_leapJob : ∃ ended, leapJob.generate (fun _ => false) ({} : Sink) = .ok ended
    ∧ ended.output.received ≠ .empty := by
  obtain ⟨s, hs⟩ : ∃ s, leapJob.simulation = .ok s :=
    ⟨_, Simulation.init_eq_ok (by decide) (by decide) _⟩
  obtain ⟨hcounted, hmade, hbudget, hsize, -, honline⟩ := simulation_counted hs
  have hhost : s.host < s.hosts.size := by
    have := hcounted.made_eq
    rw [hmade, hsize] at this
    rw [hsize]
    have : leapJob.population.hosts = 1 := rfl
    omega
  obtain ⟨host, hget⟩ : ∃ host, s.hosts[s.host]? = some host :=
    ⟨_, Array.getElem?_eq_getElem hhost⟩
  have hwritten : s.host < s.online := by
    rw [honline, show min leapJob.population.initial leapJob.population.hosts =
      leapJob.population.hosts from rfl, ← hsize]
    exact hhost
  have hnext := Simulation.next_of_host hget .empty
  rw [decide_eq_true hwritten] at hnext
  have hone : Simulation.source.remaining s = 1 := by
    show s.budget - s.made = 1
    rw [hmade, hbudget]
    decide
  have hline : LineProtocol.record (host.fill s.pass .empty) ≠ "" := by
    intro hempty
    have hchars := congrArg String.toList hempty
    rw [LineProtocol.record, String.toList_ofList] at hchars
    exact LineProtocol.Reader.chars_ne_nil _ hchars
  refine ⟨_, generate_of_ok hs _, ?_⟩
  rw [run, hone, RunState.loop, if_neg (by rw [hone]; exact Nat.one_ne_zero), if_neg (by simp)]
  have hformat : leapJob.format = .influx := rfl
  have hshare : leapJob.share = ⟨0, 1⟩ := rfl
  simpa [RunState.step, Simulation.source, hnext, RunState.writeTurn, RunState.passTurn, hformat,
    hshare, Format.write, Format.encode, Output.write, Sink.write, Sink.room, RunState.loop,
    RunState.finish] using fun _ => hline

/-- There is no epoch until midnight. -/
theorem generate_midnightJob :
    ∃ ended, midnightJob.generate (fun _ => false) ({} : Sink) = .ok ended
      ∧ ended.output.received = .empty := by
  obtain ⟨s, hs⟩ : ∃ s, midnightJob.simulation = .ok s :=
    ⟨_, Simulation.init_eq_ok (by decide) (by decide) _⟩
  obtain ⟨-, -, hbudget, -⟩ := simulation_counted hs
  have hdone : Simulation.source.remaining s = 0 := by
    show s.budget - s.made = 0
    rw [hbudget, show midnightJob.steps = 0 by decide, Nat.zero_sub]
  refine ⟨_, generate_of_ok hs _, ?_⟩
  rw [run, hdone]
  rfl

/-- From the second before it, an end in the leap second leaves time for an epoch, and the midnight
behind it does not. So the earlier of the two ends gives a record that the later one does not. -/
theorem earlier_end_longer :
    ofSettings 0 leapSettings = .ok leapJob ∧ ofSettings 0 midnightSettings = .ok midnightJob
      ∧ leapJob.SameStream midnightJob ∧ leapJob.population.stop < midnightJob.population.stop
      ∧ leapJob.AllOnline ∧ midnightJob.AllOnline
      ∧ leapJob.format = midnightJob.format ∧ leapJob.share = ⟨0, 1⟩ ∧ midnightJob.share = ⟨0, 1⟩
      ∧ leapJob.steps < 2 ^ 64 ∧ midnightJob.steps < 2 ^ 64
      ∧ ∃ ended ended', leapJob.generate (fun _ => false) ({} : Sink) = .ok ended
        ∧ midnightJob.generate (fun _ => false) ({} : Sink) = .ok ended'
        ∧ ¬ ∃ more, ended'.output.received = ended.output.received ++ more := by
  obtain ⟨ended, hended, hsome⟩ := generate_leapJob
  obtain ⟨ended', hended', hnone⟩ := generate_midnightJob
  refine ⟨by rfl, by rfl, ⟨rfl, rfl, rfl, rfl, rfl⟩, by decide, rfl, rfl, rfl, rfl, rfl, by decide,
    by decide, ended, ended', hended, hended', ?_⟩
  rintro ⟨more, hmore⟩
  have hsize : ended.output.received.size = 0 := by
    have := congrArg ByteArray.size hmore
    rw [hnone, ByteArray.size_append, ByteArray.size_empty] at this
    omega
  exact hsome (ByteArray.size_eq_zero_iff.mp hsize)

end DataJob

end SeriesLoad
