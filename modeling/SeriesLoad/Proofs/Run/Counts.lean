import SeriesLoad.Proofs.Run.Coverage

/-!
# Counts that stay in range

The ends of time, the interval and the hosts of a job are checked one by one, but the number of its
steps is their product, and nothing keeps that in 64 bits. **If it is, then all that is calculated
in a run is exact, no step has a fault, and all steps are made; if it is not, then the job is
accepted all the same, and its run has a fault before it has written anything**
(`accepted_run_cases`). With a few thousand hosts, ten thousand years of milliseconds are enough for
that (`accepted_run_out_of_count`).

The steps that are made bound every other count: the growth of a population is multiplied with an
epoch, and that many steps or more lie behind it (`Stands.growth_le_made`).
-/

namespace SeriesLoad

/-! ## Runs without faults -/

namespace RunState

variable {σ ω : Type}

theorem exists_passTurn {groups : Nat} (hpos : 0 < groups) (st : RunState σ ω) :
    ∃ st', st.passTurn groups = .ok st' := by
  rw [passTurn, if_neg (Nat.ne_of_gt hpos)]
  exact ⟨_, rfl⟩

variable [Output ω] {src : Source σ} {f : Format} {share : Share}

/-- A step of the source that goes through makes a step of the run without a fault. -/
theorem step_cases (hpos : 0 < share.groups) {st : RunState σ ω} {s' : σ} {isWritten : Bool}
    {p : Point} (hnext : src.next st.source st.buffer = .ok (s', isWritten, p)) :
    (∃ st', st.step src f share = .ok st' ∧ st'.source = s')
      ∨ ∃ ended e, st.step src f share = .error ended ∧ ended.result = .error (.write e) := by
  cases isWritten with
  | false => exact .inl ⟨_, by simp only [step, hnext]; rfl, rfl⟩
  | true =>
    simp only [step, hnext, if_true]
    have hsource := source_writeTurn f share.group
      { st with source := s', buffer := p, stats.points := st.stats.points + 1 }
    cases hwrite : writeTurn f share.group
        { st with source := s', buffer := p, stats.points := st.stats.points + 1 } with
    | mk st₁ result =>
      rw [hwrite] at hsource
      cases result with
      | error e => exact .inr ⟨_, e, rfl, rfl⟩
      | ok _ =>
        obtain ⟨st₂, hpass⟩ := exists_passTurn hpos st₁
        simp only [hpass]
        exact .inl ⟨st₂, rfl, (source_passTurn hpass).trans hsource⟩

/-- A run has no fault if its source has none, whatever becomes of its output. -/
theorem loop_ne_fault {I : σ → Prop}
    (hstep : ∀ {s}, I s → src.remaining s ≠ 0 → ∀ buffer, ∃ s' isWritten p,
      src.next s buffer = .ok (s', isWritten, p) ∧ I s')
    (hpos : 0 < share.groups) (stop : RunStats → Bool) (steps : Nat) {st : RunState σ ω}
    (hst : I st.source) (e : Fault) :
    (loop src f share stop steps st).result ≠ .error (.fault e) := by
  induction steps generalizing st with
  | zero => simp [loop, finish]
  | succ steps ih =>
    rw [loop]
    split_ifs with hdone hstop
    · simp [finish]
    · simp [finish]
    · obtain ⟨s', isWritten, p, hnext, hs'⟩ := hstep hst hdone st.buffer
      rcases step_cases hpos hnext with ⟨st', hmade, rfl⟩ | ⟨ended, e', hmade, hresult⟩
      · rw [hmade]
        exact ih hs'
      · simp [hmade, hresult]

end RunState

/-! ## Simulations -/

namespace Simulation

variable {γ : Type} [Words γ] {p : Population} {passes : Nat} {interval : Span} {words : γ}
  {s : Simulation γ}

/-- The product that the growth is worked out with is no larger than the number of steps made. -/
theorem Stands.growth_le_made (hs : s.Stands p passes interval words) :
    (s.hosts.size - s.initial) * s.epoch ≤ s.made := by
  have hpasses : 1 ≤ passes := Nat.one_le_of_lt hs.pass_lt
  calc (s.hosts.size - s.initial) * s.epoch
      ≤ p.hosts * (s.epoch * passes) := by
        rw [hs.size_eq]
        exact Nat.mul_le_mul (Nat.sub_le ..) (Nat.le_mul_of_pos_right _ hpasses)
    _ ≤ (s.epoch * passes + s.pass) * p.hosts := by
        rw [Nat.mul_comm]
        exact Nat.mul_le_mul_right _ (Nat.le_add_right ..)
    _ ≤ s.made := by
        rw [hs.made_eq]
        exact Nat.le_add_right ..

/-- A simulation after so many steps, with the numbers that it should have, all of them in 64
bits. -/
structure Exact (p : Population) (passes : Nat) (interval : Span) (k : Nat)
    (s : Simulation γ) : Prop where
  made : s.made = k
  budget : s.budget = epochCount p.start p.stop interval * p.hosts * passes
  budget_lt : s.budget < 2 ^ 64
  growth_lt : (s.hosts.size - s.initial) * s.epoch < 2 ^ 64
  online : s.online = p.onlineAt interval s.epoch
  finished : s.finished = true ↔ k = epochCount p.start p.stop interval * p.hosts * passes

theorem Stands.isExact (h : p.Schedulable passes interval) (hs : s.Stands p passes interval words)
    (hg : s.Grown p interval) (hmade : s.made ≤ s.budget) : s.Exact p passes interval s.made where
  made := rfl
  budget := hs.budget_eq
  budget_lt := hs.budget_eq ▸ h.steps
  growth_lt :=
    calc (s.hosts.size - s.initial) * s.epoch ≤ s.made := hs.growth_le_made
      _ ≤ s.budget := hmade
      _ < 2 ^ 64 := hs.budget_eq ▸ h.steps
  online := hg
  finished := by
    rw [finished_iff hs]
    rw [hs.budget_eq] at hmade
    exact ⟨Nat.le_antisymm hmade, Nat.le_of_eq ∘ Eq.symm⟩

end Simulation

/-! ## Accepted jobs -/

namespace DataJob

variable {clock : UInt64} {st : DataSettings} {j : DataJob} {s : Simulation ChaCha}

theorem IsSet.steps_exact (h : j.IsSet clock st) (hs : j.simulation = .ok s)
    (buffers : List Point) (hlength : buffers.length ≤ j.steps) :
    ∃ s', s.steps buffers = .ok s'
      ∧ s'.Exact j.population j.population.model.passes j.interval buffers.length := by
  have hschedulable := h.schedulable hs
  obtain ⟨hstands, hmade, -⟩ := h.stands hs
  have hbudget : s.made + buffers.length ≤ s.budget := by
    rw [hmade, Nat.zero_add, hstands.budget_eq]
    exact hlength
  obtain ⟨s', hsteps, hstands', hgrown', hmade'⟩ :=
    Simulation.steps_grown hschedulable hstands (h.grown hs) buffers hbudget
  rw [hmade, Nat.zero_add] at hmade'
  refine ⟨s', hsteps, ?_⟩
  rw [← hmade']
  refine hstands'.isExact hschedulable hgrown' ?_
  rw [hmade', hstands'.budget_eq]
  exact hlength

/-- Whatever its output takes and wherever it is told to stop, the run of a job has no fault. -/
theorem IsSet.generate_ne_fault {ω : Type} [Output ω] (h : j.IsSet clock st)
    (hs : j.simulation = .ok s) (stop : RunStats → Bool) (out : ω) :
    ∃ ended, j.generate stop out = .ok ended ∧ ∀ e, ended.result ≠ .error (.fault e) := by
  have hschedulable := h.schedulable hs
  have hrun : ∀ (out : ω) (e : Fault),
      (run Simulation.source j.format j.share stop s out).result ≠ .error (.fault e) := by
    intro out
    refine RunState.loop_ne_fault (I := fun s => s.Stands j.population
      j.population.model.passes j.interval (ChaCha.ofSeed j.seed)) ?_
      (Nat.zero_lt_of_lt h.share_lt) stop _ (h.stands hs).1
    intro s hstands hleft buffer
    obtain ⟨_, _, _, s', isWritten, -, -, hnext, hstands', -⟩ :=
      Simulation.next_stands hschedulable hstands (Simulation.remaining_ne_zero.mp hleft) buffer
    exact ⟨s', isWritten, _, hnext, hstands'⟩
  cases hneeds : j.format.needsPreamble with
  | false =>
    refine ⟨_, ?_, hrun out⟩
    simp [generate, hs, hneeds, bind, Except.bind, pure, Except.pure]
  | true =>
    cases hwrite : Output.write out s.schema.preamble.toUTF8 with
    | mk out' isWhole =>
      cases isWhole with
      | false =>
        refine ⟨⟨s, out', .error (.write .sinkFull)⟩, ?_, by simp⟩
        simp only [generate, hs, hneeds, if_true, hwrite, bind, Except.bind, pure, Except.pure]
      | true =>
        refine ⟨_, ?_, hrun out'⟩
        simp only [generate, hs, hneeds, if_true, hwrite, bind, Except.bind, pure, Except.pure]

/-- A job that is not told to stop makes a point for each epoch, host and measurement. -/
theorem IsSet.generate_points (h : j.IsSet clock st) (hs : j.simulation = .ok s) :
    ∃ ended stats, j.generate (fun _ => false) ({} : Sink) = .ok ended
      ∧ ended.result = .ok stats ∧ stats.points = j.steps ∧ stats.interrupted = false := by
  obtain ⟨hstands, hmade, -⟩ := h.stands hs
  obtain ⟨hlength, -⟩ :=
    Simulation.course_inOrder (h.schedulable hs) hstands (h.grown hs) hmade
  have hpos : 0 < j.share.groups := Nat.zero_lt_of_lt h.share_lt
  refine ⟨_, .ofScript j.format j.share _, generate_of_ok hs _, ?_, hlength, rfl⟩
  rw [h.run_eq_ofCourse hs j.share hpos (fun _ => false) _ rfl]
  exact RunState.ofCourse_finished j.share (h.course_finished hs).1

/-- The run of an accepted job. If there is room for its hosts and its steps can be counted, then
all numbers are exact and in 64 bits after every step, the clocks can be moved to every epoch, no
output and no stop makes it fault, and on its own it makes as many points as there are epochs times
hosts times measurements. Otherwise it has a fault as soon as it is started, and has written
nothing. -/
theorem accepted_run_cases (h : ofSettings clock st = .ok j) :
    ((j.population.hosts ≤ roomLimit ∧ j.steps < 2 ^ 64)
      ∧ ∃ s, j.simulation = .ok s
        ∧ (∀ buffers : List Point, buffers.length ≤ j.steps → ∃ s', s.steps buffers = .ok s'
          ∧ s'.Exact j.population j.population.model.passes j.interval buffers.length)
        ∧ (∀ epoch < epochCount j.population.start j.population.stop j.interval,
          (j.population.start.later? j.interval epoch).isSome)
        ∧ (∀ (ω : Type) [Output ω] (stop : RunStats → Bool) (out : ω),
          ∃ ended, j.generate stop out = .ok ended ∧ ∀ e, ended.result ≠ .error (.fault e))
        ∧ ∃ ended stats, j.generate (fun _ => false) ({} : Sink) = .ok ended
          ∧ ended.result = .ok stats ∧ stats.points = j.steps ∧ stats.interrupted = false)
    ∨ ((roomLimit < j.population.hosts ∨ 2 ^ 64 ≤ j.steps)
      ∧ ∃ e, (j.population.hosts ≤ roomLimit → e = .countRange)
        ∧ ∀ (ω : Type) [Output ω] (stop : RunStats → Bool) (out : ω),
          j.generate stop out = .error e) := by
  have hset := ofSettings_eq_ok.mp h
  rcases j.simulation_cases with ⟨hfits, s, hs⟩ | ⟨hout, e, he⟩
  · exact .inl ⟨hfits, s, hs, hset.steps_exact hs, hset.clock,
      fun ω _ stop out => hset.generate_ne_fault hs stop out, hset.generate_points hs⟩
  · refine .inr ⟨hout, e, ?_, fun ω _ stop out => generate_of_error he stop out⟩
    intro hroom
    have hsteps := hout.resolve_left (Nat.not_lt_of_le hroom)
    rw [simulation, Simulation.init_of_steps hroom hsteps] at he
    exact (Except.error.inj he).symm

theorem accepted_run_cases_two_hosts :
    ofSettings 0 twoHostSettings = .ok twoHostJob
      ∧ ∃ ended stats, twoHostJob.generate (fun _ => false) ({} : Sink) = .ok ended
        ∧ ended.result = .ok stats ∧ stats.points = 12 := by
  refine ⟨ofSettings_twoHosts, ?_⟩
  rcases accepted_run_cases ofSettings_twoHosts with
    ⟨-, s, -, -, -, -, ended, stats, hended, hresult, hpoints, -⟩ | ⟨hout, -⟩
  · exact ⟨ended, stats, hended, hresult, hpoints⟩
  · exact absurd hout (by decide)

/-- Settings for all milliseconds of the years of four digits, with enough hosts that their steps
have no 64-bit number. -/
def longestSettings : DataSettings where
  format := "influx"
  model := "devops"
  hosts := 6600
  start := "0000-01-01T00:00:00Z"
  stop := "9999-12-31T23:59:59.999Z"
  seed := 7
  interval := "1ms"

/-- The job of those settings. -/
def longestJob : DataJob where
  format := .influx
  population :=
    { model := .devops
      start := .ofSecs (-62167219200)
      stop := { secs := 253402300799, nanos := 999000000 }
      initial := 6600
      hosts := 6600 }
  seed := 7
  interval := ⟨1000000⟩
  share := ⟨0, 1⟩

theorem steps_longestJob : 2 ^ 64 ≤ longestJob.steps := by decide

/-- The settings are accepted, and the hosts fit in memory. But a run has a fault before its first
step, also if it is told to stop there. -/
theorem accepted_run_out_of_count :
    ofSettings 0 longestSettings = .ok longestJob ∧ longestJob.population.hosts ≤ roomLimit
      ∧ 2 ^ 64 ≤ longestJob.steps
      ∧ longestJob.generate (fun _ => true) ({} : Sink) = .error .countRange := by
  have hroom : longestJob.population.hosts ≤ roomLimit := by decide
  refine ⟨by rfl, hroom, steps_longestJob, generate_of_error ?_ _ _⟩
  exact Simulation.init_of_steps hroom steps_longestJob _

end DataJob

end SeriesLoad
