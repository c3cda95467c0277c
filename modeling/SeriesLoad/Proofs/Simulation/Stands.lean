import SeriesLoad.Proofs.Simulation.Columns
import SeriesLoad.Proofs.Time.Rfc3339

/-!
# Where a simulation stands

`next` advances three counters lazily: it is the step after the last host of a pass that goes on to
the next pass, and the step after the last pass that ticks the hosts. Beside them it counts the
points made, and that count alone says when the simulation is finished.

`Simulation.Stands` links the four. Before every step, points made = epochs, passes and hosts that
lie behind, and the hosts are those of their epoch (`Population.hostsAt`). **A step goes through
whenever points are left to be made, and makes the point of the place that the count names**
(`next_stands`).

`Population.Schedulable` lists what that takes: hosts that fit in memory, a countable number of
steps, and clocks that can be moved to every epoch.
-/

namespace SeriesLoad

variable {γ : Type} [Words γ]

namespace Population

/-- The hosts in an epoch, and the words that are left then. -/
def hostsAt (p : Population) (interval : Span) (words : γ) : Nat → Except Fault (List Host × γ)
  | 0 => .ok ((Simulation.drawHosts p.model p.start p.hosts 0).run words)
  | epoch + 1 => do
    let (hosts, words) ← p.hostsAt interval words epoch
    Simulation.tickHosts interval hosts words

/-- The tags of the hosts. They are drawn once. -/
def hostTags (p : Population) (words : γ) : List HostTags :=
  ((Simulation.drawHosts p.model p.start p.hosts 0).run words).1.map (·.tags)

theorem hostsAt_reports (p : Population) {interval : Span} (words : γ) {epoch : Nat} {t : Instant}
    (ht : p.start.later? interval epoch = some t) :
    ∃ hosts left, p.hostsAt interval words epoch = .ok (hosts, left)
      ∧ hosts.map (·.tags) = p.hostTags words ∧ ∀ h ∈ hosts, h.Reports p.model t := by
  induction epoch generalizing t with
  | zero =>
    cases ht
    exact ⟨_, _, rfl, rfl, Simulation.drawHosts_reports p.model p.start p.hosts 0 words⟩
  | succ epoch ih =>
    obtain ⟨u, hu, hadd⟩ := Option.bind_eq_some_iff.mp ht
    obtain ⟨hosts, left, hhosts, htags, hreports⟩ := ih hu
    obtain ⟨hosts', left', htick, htags', hreports'⟩ :=
      Simulation.tickHosts_reports hadd hreports left
    refine ⟨hosts', left', ?_, htags'.trans htags, hreports'⟩
    simp only [hostsAt, hhosts, htick, bind, Except.bind]

theorem length_hostTags (p : Population) (words : γ) : (p.hostTags words).length = p.hosts := by
  rw [hostTags, List.length_map, Simulation.length_drawHosts]

/-- What makes all steps of a simulation possible. -/
structure Schedulable (p : Population) (passes : Nat) (interval : Span) : Prop where
  passes_pos : 0 < passes
  passes_le : passes ≤ p.model.passes
  /-- The hosts fit in memory. -/
  room : p.hosts ≤ roomLimit
  /-- The steps can be counted. -/
  steps : epochCount p.start p.stop interval * p.hosts * passes < 2 ^ 64
  /-- The clocks of the hosts can be moved to every epoch. -/
  clock : ∀ epoch < epochCount p.start p.stop interval, (p.start.later? interval epoch).isSome

end Population

namespace Simulation

theorem countOf_ok {n : Nat} (h : n < 2 ^ 64) : countOf n = .ok n := if_pos h

/-- The number of hosts online can be calculated if the steps can be counted. -/
theorem exists_onlineIn {hosts initial epochs epoch : Nat} (hinitial : initial ≤ hosts)
    (hroom : hosts ≤ roomLimit) (hsteps : epochs * hosts < 2 ^ 64) (hepoch : epoch < epochs) :
    ∃ online, onlineIn hosts initial epochs epoch = .ok online := by
  unfold onlineIn
  split_ifs with hone
  · exact ⟨_, rfl⟩
  · have hmul : (hosts - initial) * epoch ≤ epochs * hosts := by
      rw [Nat.mul_comm epochs]
      exact Nat.mul_le_mul (Nat.sub_le _ _) (Nat.le_of_lt hepoch)
    have hgrown : (hosts - initial) * epoch / (epochs - 1) ≤ hosts - initial :=
      Nat.div_le_of_le_mul (by
        rw [Nat.mul_comm (epochs - 1)]
        exact Nat.mul_le_mul_left _ (by omega))
    have hroom' : initial + (hosts - initial) * epoch / (epochs - 1) < 2 ^ 64 := by
      have : roomLimit < 2 ^ 64 := by decide
      omega
    refine ⟨min (initial + (hosts - initial) * epoch / (epochs - 1)) hosts, ?_⟩
    rw [countOf_ok (Nat.lt_of_le_of_lt hmul hsteps)]
    simp only [bind, Except.bind, countOf_ok hroom', pure, Except.pure]

/-! ## Between two steps -/

theorem length_tickHosts {d : Span} {hosts hosts' : List Host} {words words' : γ}
    (h : tickHosts d hosts words = .ok (hosts', words')) : hosts'.length = hosts.length := by
  induction hosts generalizing hosts' words with
  | nil =>
    cases h
    rfl
  | cons host rest ih =>
    obtain ⟨⟨host₁, words₁⟩, -, h⟩ := Except.bind_eq_ok.mp h
    obtain ⟨⟨rest₁, words₂⟩, hrest, h⟩ := Except.bind_eq_ok.mp h
    cases h
    rw [List.length_cons, List.length_cons, ih hrest]

/-- What can become of a simulation between two steps: it stays where it is, goes on to the next
pass, or goes on to the next epoch with hosts that have ticked. -/
theorem settle_cases {s s' : Simulation γ} (h : s.settle = .ok s') :
    (s.host ≠ s.hosts.size ∧ s' = s)
      ∨ (s.host = s.hosts.size ∧ s.pass + 1 ≠ s.passes
        ∧ s' = { s with host := 0, pass := s.pass + 1 })
      ∨ (s.host = s.hosts.size ∧ s.pass + 1 = s.passes ∧ ∃ hosts words online,
        tickHosts s.interval s.hosts.toList s.words = .ok (hosts, words)
        ∧ onlineIn s.hosts.size s.initial s.epochs (s.epoch + 1) = .ok online
        ∧ s' = { s with
          hosts := hosts.toArray, words, online, host := 0, pass := 0, epoch := s.epoch + 1 }) := by
  unfold settle at h
  by_cases hhost : s.host = s.hosts.size
  · rw [if_pos hhost] at h
    by_cases hpass : s.pass + 1 = s.passes
    · replace h := (if_pos hpass).symm.trans h
      obtain ⟨⟨hosts, words⟩, htick, h⟩ := Except.bind_eq_ok.mp h
      obtain ⟨online, honline, h⟩ := Except.bind_eq_ok.mp h
      cases h
      exact .inr (.inr ⟨hhost, hpass, hosts, words, online, htick, honline, rfl⟩)
    · replace h := (if_neg hpass).symm.trans h
      cases h
      exact .inr (.inl ⟨hhost, hpass, rfl⟩)
  · rw [if_neg hhost] at h
    cases h
    exact .inl ⟨hhost, rfl⟩

/-! ## Where a simulation stands -/

/-- The simulation of a population between two steps: its hosts are those of its epoch, and it has
made as many points as there are before its place in the pass. -/
structure Stands (p : Population) (passes : Nat) (interval : Span) (words : γ)
    (s : Simulation γ) : Prop where
  hosts_eq : p.hostsAt interval words s.epoch = .ok (s.hosts.toList, s.words)
  size_eq : s.hosts.size = p.hosts
  passes_eq : s.passes = passes
  interval_eq : s.interval = interval
  initial_eq : s.initial = min p.initial p.hosts
  epochs_eq : s.epochs = epochCount p.start p.stop interval
  budget_eq : s.budget = epochCount p.start p.stop interval * p.hosts * passes
  host_le : s.host ≤ p.hosts
  pass_lt : s.pass < passes
  made_eq : s.made = (s.epoch * passes + s.pass) * p.hosts + s.host

variable {p : Population} {passes : Nat} {interval : Span}

theorem init_eq_ok (hroom : p.hosts ≤ roomLimit)
    (hsteps : epochCount p.start p.stop interval * p.hosts * passes < 2 ^ 64) (words : γ) :
    init p passes interval words = .ok
      { hosts := ((drawHosts p.model p.start p.hosts 0).run words).1.toArray
        passes
        interval
        initial := min p.initial p.hosts
        epochs := epochCount p.start p.stop interval
        budget := epochCount p.start p.stop interval * p.hosts * passes
        words := ((drawHosts p.model p.start p.hosts 0).run words).2
        online := min p.initial p.hosts } := by
  simp only [init, requireRoom, if_pos hroom, countOf_ok hsteps, bind, Except.bind]
  rfl

/-- A number of steps that cannot be counted is a fault, once there is room for the hosts. -/
theorem init_of_steps (hroom : p.hosts ≤ roomLimit)
    (hsteps : 2 ^ 64 ≤ epochCount p.start p.stop interval * p.hosts * passes) (words : γ) :
    init p passes interval words = .error .countRange := by
  simp only [init, requireRoom, if_pos hroom, countOf, if_neg (Nat.not_lt_of_le hsteps), bind,
    Except.bind]

/-- A simulation can only not be set up if its hosts do not fit in memory or its steps cannot be
counted. -/
theorem init_eq_error (h : roomLimit < p.hosts
      ∨ 2 ^ 64 ≤ epochCount p.start p.stop interval * p.hosts * passes) (words : γ) :
    ∃ e, init p passes interval words = .error e := by
  by_cases hroom : p.hosts ≤ roomLimit
  · exact ⟨_, init_of_steps hroom (h.resolve_left (Nat.not_lt_of_le hroom)) words⟩
  · refine ⟨.noRoom, ?_⟩
    simp only [init, requireRoom, if_neg hroom, bind, Except.bind]

theorem init_stands (h : p.Schedulable passes interval) (words : γ) :
    ∃ s, init p passes interval words = .ok s ∧ s.Stands p passes interval words
      ∧ s.made = 0 ∧ s.epoch = 0 := by
  refine ⟨_, init_eq_ok h.room h.steps words,
    ⟨rfl, ?_, rfl, rfl, rfl, rfl, rfl, Nat.zero_le _, h.passes_pos, ?_⟩, rfl, rfl⟩
  · exact length_drawHosts p.model p.start p.hosts 0 words
  · simp

/-- After the last pass of an epoch that is not the last one there is a next epoch. -/
theorem nextEpoch_stands (h : p.Schedulable passes interval) {words : γ} {s : Simulation γ}
    (hs : s.Stands p passes interval words) (hmade : s.made = (s.epoch + 1) * p.hosts * passes)
    (hepoch : s.epoch + 1 < epochCount p.start p.stop interval) :
    ∃ s', nextEpoch { s with host := 0, pass := 0 } = .ok s'
      ∧ s'.Stands p passes interval words ∧ s'.made = s.made ∧ s'.host = 0 := by
  obtain ⟨t, ht⟩ := Option.isSome_iff_exists.mp (h.clock (s.epoch + 1) hepoch)
  obtain ⟨hosts, left, hhostsAt, htags, -⟩ := p.hostsAt_reports words ht
  have htick : tickHosts s.interval s.hosts.toList s.words = .ok (hosts, left) := by
    rw [← hhostsAt, Population.hostsAt, hs.hosts_eq, hs.interval_eq]
    rfl
  have hsteps : epochCount p.start p.stop interval * p.hosts < 2 ^ 64 :=
    Nat.lt_of_le_of_lt (Nat.le_mul_of_pos_right _ h.passes_pos) h.steps
  obtain ⟨online, honline⟩ :=
    exists_onlineIn (Nat.min_le_right p.initial p.hosts) h.room hsteps hepoch
  have hlength : hosts.length = p.hosts := by
    rw [← p.length_hostTags words, ← htags, List.length_map]
  have hnext : nextEpoch { s with host := 0, pass := 0 } = .ok
      { s with
        hosts := hosts.toArray
        words := left
        epoch := s.epoch + 1
        online := online
        host := 0
        pass := 0 } := by
    simp only [nextEpoch, htick, hs.size_eq, hs.initial_eq, hs.epochs_eq, honline, bind,
      Except.bind]
  refine ⟨_, hnext, ⟨hhostsAt, hlength, hs.passes_eq, hs.interval_eq, hs.initial_eq,
    hs.epochs_eq, hs.budget_eq, Nat.zero_le _, h.passes_pos, ?_⟩, rfl, rfl⟩
  simp only [hmade, Nat.add_zero, Nat.mul_right_comm]

/-- Before a step the simulation can be moved to a host that is there. -/
theorem settle_stands (h : p.Schedulable passes interval) {words : γ} {s : Simulation γ}
    (hs : s.Stands p passes interval words) (hmade : s.made < s.budget) :
    ∃ s', s.settle = .ok s' ∧ s'.Stands p passes interval words ∧ s'.made = s.made
      ∧ s'.host < p.hosts := by
  have hhosts : 0 < p.hosts := by
    rcases Nat.eq_zero_or_pos p.hosts with hzero | hpos
    · rw [hs.budget_eq, hzero, Nat.mul_zero, Nat.zero_mul] at hmade
      exact absurd hmade (Nat.not_lt_zero _)
    · exact hpos
  by_cases hover : s.host = s.hosts.size
  · have hpass : s.made = (s.epoch * passes + (s.pass + 1)) * p.hosts := by
      rw [hs.made_eq, hover, hs.size_eq, ← Nat.succ_mul, ← Nat.add_succ]
    by_cases hlast : s.pass + 1 = s.passes
    · have hepoch : s.made = (s.epoch + 1) * p.hosts * passes := by
        rw [hpass, hlast, hs.passes_eq, ← Nat.succ_mul, Nat.mul_right_comm]
      have hlt : s.epoch + 1 < epochCount p.start p.stop interval := by
        rw [hepoch, hs.budget_eq] at hmade
        exact Nat.lt_of_mul_lt_mul_right (Nat.lt_of_mul_lt_mul_right hmade)
      obtain ⟨s', hnext, hs', hmade', hhost⟩ := nextEpoch_stands h hs hepoch hlt
      refine ⟨s', ?_, hs', hmade', hhost ▸ hhosts⟩
      rw [settle, if_pos hover]
      exact (if_pos hlast).trans hnext
    · have hsettle : s.settle = .ok { s with host := 0, pass := s.pass + 1 } := by
        rw [settle, if_pos hover]
        exact if_neg hlast
      have hlt : s.pass + 1 < passes := by
        have := hs.pass_lt
        rw [hs.passes_eq] at hlast
        omega
      exact ⟨_, hsettle, ⟨hs.hosts_eq, hs.size_eq, hs.passes_eq, hs.interval_eq, hs.initial_eq,
        hs.epochs_eq, hs.budget_eq, Nat.zero_le _, hlt, hpass⟩, rfl, hhosts⟩
  · refine ⟨s, ?_, hs, rfl, ?_⟩
    · rw [settle, if_neg hover]
    · have := hs.host_le
      rw [hs.size_eq] at hover
      omega

theorem mul_add_div_of_lt {a b c : Nat} (h : c < b) : (a * b + c) / b = a := by
  rw [Nat.add_comm, Nat.add_mul_div_right _ _ (Nat.zero_lt_of_lt h), Nat.div_eq_of_lt h,
    Nat.zero_add]

/-- The number of a step tells its place. -/
theorem step_place {hosts passes pass host : Nat} (epoch : Nat) (hpass : pass < passes)
    (hhost : host < hosts) :
    ((epoch * passes + pass) * hosts + host) % hosts = host
      ∧ ((epoch * passes + pass) * hosts + host) / hosts % passes = pass
      ∧ ((epoch * passes + pass) * hosts + host) / (hosts * passes) = epoch := by
  rw [← Nat.div_div_eq_div_mul, mul_add_div_of_lt hhost, mul_add_div_of_lt hpass]
  exact ⟨Nat.mul_add_mod_of_lt hhost, Nat.mul_add_mod_of_lt hpass, rfl⟩

/-- The number of a step in one of the epochs is below the number of all steps. -/
theorem step_lt {epochs hosts passes epoch pass host : Nat} (hepoch : epoch < epochs)
    (hpass : pass < passes) (hhost : host < hosts) :
    (epoch * passes + pass) * hosts + host < epochs * hosts * passes :=
  calc (epoch * passes + pass) * hosts + host
      < (epoch * passes + pass) * hosts + hosts := Nat.add_lt_add_left hhost _
    _ = (epoch * passes + (pass + 1)) * hosts := (Nat.succ_mul ..).symm
    _ ≤ (epoch * passes + passes) * hosts :=
      Nat.mul_le_mul_right _ (Nat.add_le_add_left hpass _)
    _ = (epoch + 1) * passes * hosts := by rw [Nat.succ_mul epoch]
    _ ≤ epochs * passes * hosts := Nat.mul_le_mul_right _ (Nat.mul_le_mul_right _ hepoch)
    _ = epochs * hosts * passes := Nat.mul_right_comm ..

theorem Stands.place {words : γ} {s : Simulation γ} (hs : s.Stands p passes interval words)
    (hhost : s.host < p.hosts) :
    s.made % p.hosts = s.host ∧ s.made / p.hosts % passes = s.pass
      ∧ s.made / (p.hosts * passes) = s.epoch := by
  rw [hs.made_eq]
  exact step_place s.epoch hs.pass_lt hhost

/-- A step makes the point of the next host in the pass. -/
theorem next_stands (h : p.Schedulable passes interval) {words : γ} {s : Simulation γ}
    (hs : s.Stands p passes interval words) (hmade : s.made < s.budget) (buffer : Point) :
    ∃ hosts left host s' isWritten,
      p.hostsAt interval words (s.made / (p.hosts * passes)) = .ok (hosts, left)
      ∧ hosts[s.made % p.hosts]? = some host
      ∧ s.next buffer = .ok (s', isWritten, host.fill (s.made / p.hosts % passes) buffer)
      ∧ s'.Stands p passes interval words ∧ s'.made = s.made + 1 := by
  obtain ⟨s₁, hsettle, hs₁, hmade₁, hhost⟩ := settle_stands h hs hmade
  obtain ⟨hmod, hdiv, hepoch⟩ := hs₁.place hhost
  obtain ⟨host, hget⟩ : ∃ host, s₁.hosts[s₁.host]? = some host :=
    ⟨_, Array.getElem?_eq_getElem (hs₁.size_eq ▸ hhost)⟩
  have hnext : s.next buffer = .ok
      ({ s₁ with made := s₁.made + 1, host := s₁.host + 1 }, decide (s₁.host < s₁.online),
        host.fill s₁.pass buffer) := by
    simp only [next, hsettle, emit, hget, bind, Except.bind, pure, Except.pure]
  rw [← hmade₁, hmod, hdiv, hepoch]
  refine ⟨s₁.hosts.toList, s₁.words, host, _, _, hs₁.hosts_eq, by simpa using hget, hnext,
    ⟨hs₁.hosts_eq, hs₁.size_eq, hs₁.passes_eq, hs₁.interval_eq, hs₁.initial_eq, hs₁.epochs_eq,
      hs₁.budget_eq, hhost, hs₁.pass_lt, ?_⟩, rfl⟩
  rw [hs₁.made_eq]
  rfl

/-! ## Many steps -/

/-- Makes a step into each of some buffers. -/
def steps (s : Simulation γ) : List Point → Except Fault (Simulation γ)
  | [] => .ok s
  | buffer :: rest => do
    let (s, _, _) ← s.next buffer
    s.steps rest

theorem steps_stands (h : p.Schedulable passes interval) {words : γ} {s : Simulation γ}
    (hs : s.Stands p passes interval words) (buffers : List Point)
    (hmade : s.made + buffers.length ≤ s.budget) :
    ∃ s', s.steps buffers = .ok s' ∧ s'.Stands p passes interval words
      ∧ s'.made = s.made + buffers.length := by
  induction buffers generalizing s with
  | nil => exact ⟨s, rfl, hs, rfl⟩
  | cons buffer rest ih =>
    rw [List.length_cons] at hmade
    obtain ⟨_, _, _, s₁, isWritten, -, -, hnext, hs₁, hmade₁⟩ :=
      next_stands h hs (by omega) buffer
    obtain ⟨s', hsteps, hs', hmade'⟩ := ih hs₁ (by rw [hs₁.budget_eq, ← hs.budget_eq]; omega)
    refine ⟨s', ?_, hs', by rw [hmade', hmade₁, List.length_cons]; omega⟩
    simp only [steps, hnext, hsteps, bind, Except.bind]

theorem remaining_ne_zero {δ : Type} {s : Simulation δ} : s.remaining ≠ 0 ↔ s.made < s.budget := by
  rw [remaining]
  omega

/-- Where points are left to be made, a step goes through and leaves one less. -/
theorem remaining_next (h : p.Schedulable passes interval) {words : γ} {s s' : Simulation γ}
    {buffer q : Point} {isWritten : Bool} (hs : s.Stands p passes interval words)
    (hleft : s.remaining ≠ 0) (hnext : s.next buffer = .ok (s', isWritten, q)) :
    s'.Stands p passes interval words ∧ s'.remaining < s.remaining := by
  obtain ⟨_, _, _, s₁, isWritten₁, -, -, hnext₁, hs₁, hmade₁⟩ :=
    next_stands h hs (remaining_ne_zero.mp hleft) buffer
  rw [hnext₁] at hnext
  cases hnext
  refine ⟨hs₁, ?_⟩
  simp only [remaining] at hleft ⊢
  rw [hs₁.budget_eq, ← hs.budget_eq, hmade₁]
  omega

end Simulation

end SeriesLoad
