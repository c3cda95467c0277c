import Mathlib.Algebra.BigOperators.Intervals
import Mathlib.Data.Nat.Count
import SeriesLoad.Proofs.Run.Partition

/-!
# Growth of a population

The number of hosts online is worked out once an epoch, with a division that drops the remainder,
and the host that a step samples is held against it. `Population.onlineAt` is that number as a
formula: the hosts of the first epoch and, for each epoch since, an even share of the others.

**A step is to be written if and only if its host is among the first `onlineAt` of its epoch**
(`population_grows`). So the hosts online are those asked for in the first epoch and all of them in
the last, none of them goes offline again, and the records of a run can be counted beforehand.

The invariant is `Simulation.Grown`. It goes along with `Simulation.Stands`, which tells the epoch
and the host of a step from its number. Neither says anything of the words, so it does not matter
that the loops of drawing are cut (`Draw.retry`).
-/

namespace SeriesLoad

variable {γ : Type} [Words γ]

namespace Population

variable {p : Population} {interval : Span}

/-! ## Hosts online -/

/-- The number of hosts online in an epoch. -/
def onlineAt (p : Population) (interval : Span) (epoch : Nat) : Nat :=
  min p.initial p.hosts +
    (p.hosts - min p.initial p.hosts) * epoch / (epochCount p.start p.stop interval - 1)

theorem onlineAt_zero : p.onlineAt interval 0 = min p.initial p.hosts := by
  rw [onlineAt, Nat.mul_zero, Nat.zero_div, Nat.add_zero]

theorem onlineAt_mono {epoch later : Nat} (h : epoch ≤ later) :
    p.onlineAt interval epoch ≤ p.onlineAt interval later :=
  Nat.add_le_add_left (Nat.div_le_div_right (Nat.mul_le_mul_left _ h)) _

theorem onlineAt_last (hepochs : 2 ≤ epochCount p.start p.stop interval) :
    p.onlineAt interval (epochCount p.start p.stop interval - 1) = p.hosts := by
  rw [onlineAt, Nat.mul_div_cancel _ (by omega)]
  exact Nat.add_sub_cancel' (Nat.min_le_right p.initial p.hosts)

theorem onlineAt_le (hepochs : 2 ≤ epochCount p.start p.stop interval) {epoch : Nat}
    (h : epoch < epochCount p.start p.stop interval) : p.onlineAt interval epoch ≤ p.hosts :=
  calc p.onlineAt interval epoch
      ≤ p.onlineAt interval (epochCount p.start p.stop interval - 1) := onlineAt_mono (by omega)
    _ = p.hosts := onlineAt_last hepochs

/-- Step `k` samples a host that is online. -/
def IsOnline (p : Population) (passes : Nat) (interval : Span) (k : Nat) : Prop :=
  k % p.hosts < p.onlineAt interval (k / (p.hosts * passes))

instance (p : Population) (passes : Nat) (interval : Span) :
    DecidablePred (p.IsOnline passes interval) := fun k =>
  inferInstanceAs (Decidable (k % p.hosts < p.onlineAt interval (k / (p.hosts * passes))))

/-! ## Counting steps -/

/-- In whole passes over some hosts, the first ones have their turn once a pass. -/
theorem count_passes {hosts online : Nat} (h : online ≤ hosts) (passes : Nat) :
    Nat.count (fun k => k % hosts < online) (passes * hosts) = passes * online := by
  induction passes with
  | zero => rw [Nat.zero_mul, Nat.zero_mul, Nat.count_zero]
  | succ passes ih =>
    have hpass : Nat.count (fun k => (passes * hosts + k) % hosts < online) hosts = online := by
      obtain ⟨offline, rfl⟩ := Nat.exists_eq_add_of_le h
      have hplace : ∀ k < online + offline,
          (passes * (online + offline) + k) % (online + offline) = k :=
        fun k hk => Nat.mul_add_mod_of_lt hk
      rw [Nat.count_add, Nat.count_of_forall, Nat.count_of_forall_not, Nat.add_zero]
      · intro k hk
        rw [hplace (online + k) (by omega)]
        omega
      · intro k hk
        rw [hplace k (by omega)]
        exact hk
    rw [Nat.succ_mul, Nat.count_add, ih, hpass, Nat.succ_mul]

/-- The steps of whole epochs that sample hosts online, counted by epochs. -/
theorem count_isOnline {passes epochs : Nat}
    (h : ∀ epoch < epochs, p.onlineAt interval epoch ≤ p.hosts) :
    Nat.count (p.IsOnline passes interval) (epochs * p.hosts * passes) =
      passes * ∑ epoch ∈ Finset.range epochs, p.onlineAt interval epoch := by
  induction epochs with
  | zero => simp
  | succ epochs ih =>
    have hepoch : Nat.count
        (fun k => p.IsOnline passes interval (epochs * p.hosts * passes + k))
        (p.hosts * passes) = passes * p.onlineAt interval epochs := by
      rw [← count_passes (h epochs (Nat.lt_succ_self _)), Nat.mul_comm p.hosts]
      have hiff : ∀ k < passes * p.hosts,
          (p.IsOnline passes interval (epochs * p.hosts * passes + k)
            ↔ k % p.hosts < p.onlineAt interval epochs) := by
        intro k hk
        have hplace : (epochs * p.hosts * passes + k) / (p.hosts * passes) = epochs := by
          rw [Nat.mul_assoc]
          exact Simulation.mul_add_div_of_lt (by rwa [Nat.mul_comm p.hosts])
        rw [IsOnline, hplace, Nat.mul_right_comm, Nat.mul_add_mod_self_right]
      exact Nat.le_antisymm (Nat.count_mono_left fun k hk => (hiff k hk).mp)
        (Nat.count_mono_left fun k hk => (hiff k hk).mpr)
    rw [Nat.succ_mul, Nat.add_mul, Nat.count_add, hepoch,
      ih fun epoch hlt => h epoch (Nat.lt_succ_of_lt hlt), Finset.sum_range_succ, Nat.mul_add]

end Population

namespace Simulation

variable {p : Population} {passes : Nat} {interval : Span}

/-! ## One step -/

/-- The number of hosts online that is worked out is the one of the formula: the growth never goes
beyond the hosts there are. -/
theorem onlineIn_eq_ok {hosts initial epochs epoch online : Nat} (hinitial : initial ≤ hosts)
    (hepochs : 2 ≤ epochs) (hepoch : epoch < epochs)
    (h : onlineIn hosts initial epochs epoch = .ok online) :
    online = initial + (hosts - initial) * epoch / (epochs - 1) := by
  have hgrown : (hosts - initial) * epoch / (epochs - 1) ≤ hosts - initial :=
    Nat.div_le_of_le_mul (by
      rw [Nat.mul_comm (epochs - 1)]
      exact Nat.mul_le_mul_left _ (by omega))
  have hcount : ∀ {n m : Nat}, countOf n = .ok m → n = m := by
    intro n m hn
    unfold countOf at hn
    split_ifs at hn
    exact Except.ok.inj hn
  rw [onlineIn, if_neg (by omega)] at h
  obtain ⟨product, hproduct, h⟩ := Except.bind_eq_ok.mp h
  obtain ⟨sum, hsum, h⟩ := Except.bind_eq_ok.mp h
  rw [← hcount hproduct] at hsum
  rw [← Except.ok.inj h, ← hcount hsum]
  exact Nat.min_eq_left (by omega)

/-- As many hosts are online as there should be in the epoch. -/
def Grown (p : Population) (interval : Span) (s : Simulation γ) : Prop :=
  s.online = p.onlineAt interval s.epoch

theorem settle_grown {words : γ} {s s' : Simulation γ} (hs : s.Stands p passes interval words)
    (hg : s.Grown p interval) (hepoch : s'.epoch < epochCount p.start p.stop interval)
    (h : s.settle = .ok s') : s'.Grown p interval := by
  rcases settle_cases h with ⟨-, rfl⟩ | ⟨-, -, rfl⟩ | ⟨-, -, _, _, _, -, honline, rfl⟩
  · exact hg
  · exact hg
  · have hepochs : 2 ≤ epochCount p.start p.stop interval := by
      simp only at hepoch
      omega
    rw [hs.size_eq, hs.initial_eq, hs.epochs_eq] at honline
    exact onlineIn_eq_ok (Nat.min_le_right _ _) hepochs hepoch honline

/-- A step is to be written if and only if it samples a host that is online. -/
theorem next_grown (h : p.Schedulable passes interval) {words : γ} {s : Simulation γ}
    (hs : s.Stands p passes interval words) (hg : s.Grown p interval) (hmade : s.made < s.budget)
    (buffer : Point) :
    ∃ s' q, s.next buffer = .ok (s', decide (p.IsOnline passes interval s.made), q)
      ∧ s'.Stands p passes interval words ∧ s'.Grown p interval ∧ s'.made = s.made + 1 := by
  obtain ⟨_, _, host, s', isWritten, -, -, hnext, hs', hmade'⟩ := next_stands h hs hmade buffer
  obtain ⟨s₁, hsettle, hs₁, hmade₁, hhost⟩ := settle_stands h hs hmade
  obtain ⟨hmod, -, hepoch⟩ := hs₁.place hhost
  obtain ⟨host₁, hget⟩ : ∃ host, s₁.hosts[s₁.host]? = some host :=
    ⟨_, Array.getElem?_eq_getElem (hs₁.size_eq ▸ hhost)⟩
  have hg₁ : s₁.Grown p interval := by
    refine settle_grown hs hg ?_ hsettle
    rw [← hepoch, hmade₁]
    rw [hs.budget_eq, Nat.mul_assoc, Nat.mul_comm] at hmade
    exact Nat.div_lt_of_lt_mul hmade
  have hemit : s.next buffer = .ok
      ({ s₁ with made := s₁.made + 1, host := s₁.host + 1 }, decide (s₁.host < s₁.online),
        host₁.fill s₁.pass buffer) := by
    simp only [next, hsettle, emit, hget, bind, Except.bind, pure, Except.pure]
  have hflag : decide (s₁.host < s₁.online) = decide (p.IsOnline passes interval s.made) := by
    rw [decide_eq_decide, Population.IsOnline, ← hmade₁, hmod, hepoch, ← hg₁]
  rw [hnext, Except.ok.injEq, Prod.mk.injEq, Prod.mk.injEq] at hemit
  obtain ⟨rfl, hwritten, -⟩ := hemit
  rw [hwritten, hflag] at hnext
  exact ⟨_, _, hnext, hs', hg₁, hmade'⟩

/-! ## All steps -/

theorem init_grown (h : p.Schedulable passes interval) (words : γ) :
    ∃ s, init p passes interval words = .ok s ∧ s.Stands p passes interval words
      ∧ s.Grown p interval ∧ s.made = 0 := by
  obtain ⟨s, hinit, hs, hmade, hepoch⟩ := init_stands h words
  refine ⟨s, hinit, hs, ?_, hmade⟩
  rw [init_eq_ok h.room h.steps, Except.ok.injEq] at hinit
  rw [Grown, hepoch, Population.onlineAt_zero, ← hinit]

theorem steps_grown (h : p.Schedulable passes interval) {words : γ} {s : Simulation γ}
    (hs : s.Stands p passes interval words) (hg : s.Grown p interval) (buffers : List Point)
    (hmade : s.made + buffers.length ≤ s.budget) :
    ∃ s', s.steps buffers = .ok s' ∧ s'.Stands p passes interval words ∧ s'.Grown p interval
      ∧ s'.made = s.made + buffers.length := by
  induction buffers generalizing s with
  | nil => exact ⟨s, rfl, hs, hg, rfl⟩
  | cons buffer rest ih =>
    rw [List.length_cons] at hmade
    obtain ⟨s₁, q, hnext, hs₁, hg₁, hmade₁⟩ := next_grown h hs hg (by omega) buffer
    obtain ⟨s', hsteps, hs', hg', hmade'⟩ :=
      ih hs₁ hg₁ (by rw [hs₁.budget_eq, ← hs.budget_eq]; omega)
    refine ⟨s', ?_, hs', hg', by rw [hmade', hmade₁, List.length_cons]; omega⟩
    simp only [steps, hnext, hsteps, bind, Except.bind]

/-- The script of a simulation that is not told to stop has as many points to be written as there
are steps that sample a host online. -/
theorem length_emitted_course (h : p.Schedulable passes interval)
    (hepochs : 2 ≤ epochCount p.start p.stop interval) {words : γ} {s : Simulation γ}
    (hs : s.Stands p passes interval words) (hg : s.Grown p interval) (hmade : s.made = 0) :
    (Script.emitted (source.course (fun _ => false) s.remaining s []).made).length =
      passes * ∑ epoch ∈ Finset.range (epochCount p.start p.stop interval),
        p.onlineAt interval epoch := by
  have hcourse := source.course_induction
    (I := fun s made => s.Stands p passes interval words ∧ s.Grown p interval
      ∧ s.made ≤ s.budget
      ∧ (Script.emitted made).length = Nat.count (p.IsOnline passes interval) s.made)
    (fun {s made} hI hleft => ?_) (fun _ => false) s.remaining []
    ⟨hs, hg, by omega, by rw [hmade, Nat.count_zero]; rfl⟩
  · obtain ⟨⟨hs', -, hle, hcount⟩, -⟩ := hcourse
    have hfinished := (finished_iff hs').mp (course_finished h hs).2
    rw [hs'.budget_eq] at hle
    rw [hcount, Nat.le_antisymm hle hfinished]
    exact Population.count_isOnline fun epoch hlt => Population.onlineAt_le hepochs hlt
  · obtain ⟨hs, hg, hle, hcount⟩ := hI
    have hlt : s.made < s.budget := remaining_ne_zero.mp hleft
    obtain ⟨s', q, hnext, hs', hg', hmade'⟩ := next_grown h hs hg hlt .empty
    refine ⟨s', _, q, hnext, hs', hg', ?_, ?_⟩
    · rw [hmade', hs'.budget_eq, ← hs.budget_eq]
      exact hlt
    · rw [Script.emitted_concat, List.length_append, hcount, hmade', Nat.count_succ]
      by_cases honline : p.IsOnline passes interval s.made <;> simp [honline]

/-! ## Whose point it is -/

theorem tag?_sample (h : Host) (m : Measurement) :
    (h.sample m).tag? "hostname" = some h.tags.hostname := by
  simp [Point.tag?, Host.sample, HostTags.toList, HostTags.keys, HostTags.values]

end Simulation

/-- The point is the one of a host for a measurement in an epoch. -/
structure Population.IsPointOf (p : Population) (interval : Span) (epoch pass host : Nat)
    (q : Point) : Prop where
  host : q.tag? "hostname" = some (HostTags.nameOf host)
  measurement : p.model.columns[pass]?.map (·.1) = some q.name
  time : q.timestamp = p.start.later? interval epoch

namespace Simulation

variable {p : Population} {passes : Nat} {interval : Span}

theorem next_isPointOf (h : p.Schedulable passes interval) {words : γ} {s : Simulation γ}
    (hs : s.Stands p passes interval words) (hmade : s.made < s.budget) :
    ∃ s' isWritten q, s.next .empty = .ok (s', isWritten, q)
      ∧ p.IsPointOf interval (s.made / (p.hosts * passes)) (s.made / p.hosts % passes)
        (s.made % p.hosts) q := by
  obtain ⟨hosts, left, host, m, t, s', isWritten, -, -, hm, ht, hhost, htags, hnext, -⟩ :=
    next_sample h hs hmade
  refine ⟨s', isWritten, _, hnext, ?_, ?_, ?_⟩
  · rw [tag?_sample, p.hostname_hostTags htags]
  · rw [← hhost.column, hm]
    rfl
  · rw [ht, ← (hhost.ready m (List.mem_of_getElem? hm)).time]
    rfl

/-! ## The whole run -/

/-- A population grows from the hosts asked for in the first epoch to all of them in the last. The
point of a host in an epoch, for whichever measurement, is to be written if and only if the host is
among the first `onlineAt` of the epoch, a number that never goes down; so a host that is online
stays online, and the records of a run are as many as there are hosts online in all epochs, times
the measurements. -/
theorem population_grows (p : Population) (passes : Nat) (interval : Span) (words : γ)
    (hpos : 0 < passes) (hpasses : passes ≤ p.model.passes) (hroom : p.hosts ≤ roomLimit)
    (hepochs : 2 ≤ epochCount p.start p.stop interval)
    (hsteps : epochCount p.start p.stop interval * p.hosts * passes < 2 ^ 64)
    (hlast : (p.start.later? interval (epochCount p.start p.stop interval - 1)).isSome) :
    ∃ s₀, init p passes interval words = .ok s₀
      ∧ (∀ epoch < epochCount p.start p.stop interval, ∀ pass < passes, ∀ host < p.hosts,
          ∀ buffers : List Point, buffers.length = (epoch * passes + pass) * p.hosts + host →
          ∃ s s' q, s₀.steps buffers = .ok s
            ∧ s.next .empty = .ok (s', decide (host < p.onlineAt interval epoch), q)
            ∧ p.IsPointOf interval epoch pass host q)
      ∧ p.onlineAt interval 0 = min p.initial p.hosts
      ∧ (∀ epoch, p.onlineAt interval epoch ≤ p.onlineAt interval (epoch + 1))
      ∧ p.onlineAt interval (epochCount p.start p.stop interval - 1) = p.hosts
      ∧ (∀ epoch < epochCount p.start p.stop interval, p.onlineAt interval epoch ≤ p.hosts)
      ∧ (∀ host epoch later, epoch ≤ later → host < p.onlineAt interval epoch →
          host < p.onlineAt interval later)
      ∧ ∀ (f : Format) (share : Share), 0 < share.groups →
          ∃ stats, (run source f share (fun _ => false) s₀ ({} : Sink)).result = .ok stats
            ∧ stats.records = passes * ∑ epoch ∈ Finset.range (epochCount p.start p.stop interval),
              p.onlineAt interval epoch := by
  have h : p.Schedulable passes interval :=
    ⟨hpos, hpasses, hroom, hsteps, fun epoch hlt =>
      Instant.isSome_later?_of_le (Nat.le_sub_one_of_lt hlt) hlast⟩
  obtain ⟨s₀, hinit, hs₀, hg₀, hmade₀⟩ := init_grown h words
  refine ⟨s₀, hinit, fun epoch hepoch pass hpass host hhost buffers hlength => ?_,
    Population.onlineAt_zero, fun epoch => Population.onlineAt_mono (Nat.le_succ epoch),
    Population.onlineAt_last hepochs, fun epoch => Population.onlineAt_le hepochs,
    fun host epoch later hle hlt => Nat.lt_of_lt_of_le hlt (Population.onlineAt_mono hle),
    fun f share hgroups => ?_⟩
  · obtain ⟨hmod, hdiv, hdivdiv⟩ := step_place epoch hpass hhost
    have hlt : buffers.length < epochCount p.start p.stop interval * p.hosts * passes :=
      hlength ▸ step_lt hepoch hpass hhost
    obtain ⟨s, hrun, hs, hg, hmade⟩ := steps_grown h hs₀ hg₀ buffers (by
      rw [hmade₀, hs₀.budget_eq, Nat.zero_add]
      exact Nat.le_of_lt hlt)
    rw [hmade₀, Nat.zero_add, hlength] at hmade
    have hleft : s.made < s.budget := by rw [hs.budget_eq, hmade, ← hlength]; exact hlt
    obtain ⟨s', q, hnext, -⟩ := next_grown h hs hg hleft .empty
    obtain ⟨s₁, isWritten, q₁, hnext₁, hq₁⟩ := next_isPointOf h hs hleft
    rw [hnext, Except.ok.injEq, Prod.mk.injEq, Prod.mk.injEq] at hnext₁
    obtain ⟨-, -, rfl⟩ := hnext₁
    have hflag : p.IsOnline passes interval s.made ↔ host < p.onlineAt interval epoch := by
      rw [Population.IsOnline, hmade, hmod, hdivdiv]
    rw [decide_eq_decide.mpr hflag] at hnext
    rw [hmade, hmod, hdiv, hdivdiv] at hq₁
    exact ⟨s, s', q, hrun, hnext, hq₁⟩
  · have hencodes : ∀ q ∈ Script.emitted (source.course (fun _ => false) s₀.remaining s₀ []).made,
        f.Encodes q := fun q hq =>
      ((course_samples h hs₀ _ _).1 _ (Script.mem_emitted.mp hq)).encodes f
    refine ⟨.ofScript f share (source.course (fun _ => false) s₀.remaining s₀ []).made, ?_,
      length_emitted_course h hepochs hs₀ hg₀ hmade₀⟩
    rw [RunState.run_eq_ofCourse (fun _ => false) rfl hgroups s₀ hencodes]
    exact RunState.ofCourse_finished share (course_finished h hs₀).1

theorem population_grows_two_hosts :
    2 ≤ epochCount twoHosts.start twoHosts.stop ⟨500000000⟩
      ∧ epochCount twoHosts.start twoHosts.stop ⟨500000000⟩ * twoHosts.hosts * 9 < 2 ^ 64
      ∧ (twoHosts.start.later? ⟨500000000⟩ 1).isSome
      ∧ ∃ s₀, init twoHosts 9 ⟨500000000⟩ (ChaCha.ofSeed 7) = .ok s₀
        ∧ ∃ stats, (run source .influx ⟨0, 2⟩ (fun _ => false) s₀ ({} : Sink)).result = .ok stats
          ∧ stats.records = 27 := by
  obtain ⟨s₀, hinit, -, -, -, -, -, -, hrun⟩ :=
    population_grows twoHosts 9 ⟨500000000⟩ (ChaCha.ofSeed 7) (by decide) (by decide) (by decide)
      (by decide) (by decide) (by decide)
  obtain ⟨stats, hok, hrecords⟩ := hrun .influx ⟨0, 2⟩ (by decide)
  exact ⟨by decide, by decide, by decide, s₀, hinit, stats, hok, hrecords.trans (by decide)⟩

/-- More hosts than any memory has room for, over two epochs. -/
def crowd : Population where
  model := .cpuSingle
  start := DataJob.twoHostJob.population.start
  stop := .ofSecs 1451606420
  initial := 1
  hosts := 2 ^ 56

/-- Where the last epoch has no time, the host that should be online in it has no point there, and
a population that does not fit in memory has no points at all, though the steps of both could be
counted. -/
theorem growth_out_of_reach :
    epochCount lastSecond.start lastSecond.stop ⟨500000000⟩ = 2
      ∧ epochCount lastSecond.start lastSecond.stop ⟨500000000⟩ * lastSecond.hosts * 1 < 2 ^ 64
      ∧ 0 < lastSecond.onlineAt ⟨500000000⟩ 1
      ∧ (∃ s₀ s₁ q, init lastSecond 1 ⟨500000000⟩ (ChaCha.ofSeed 7) = .ok s₀
        ∧ s₀.next .empty = .ok (s₁, true, q) ∧ s₁.next .empty = .error .instantRange)
      ∧ epochCount crowd.start crowd.stop ⟨10000000000⟩ = 2
      ∧ epochCount crowd.start crowd.stop ⟨10000000000⟩ * crowd.hosts * 1 < 2 ^ 64
      ∧ 0 < crowd.onlineAt ⟨10000000000⟩ 0
      ∧ init crowd 1 ⟨10000000000⟩ (ChaCha.ofSeed 7) = .error .noRoom := by
  refine ⟨by decide, by decide, by decide, ?_, by decide, by decide, by decide, rfl⟩
  obtain ⟨h, left, hinit, hreports⟩ := init_lastSecond (ChaCha.ofSeed 7)
  refine ⟨_, _, _, hinit, next_of_host (h := h) rfl .empty, ?_⟩
  rw [next_fault [] ?_ hreports]
  all_goals rfl

end Simulation

end SeriesLoad
