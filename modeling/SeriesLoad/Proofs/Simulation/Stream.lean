import SeriesLoad.Proofs.Simulation.Stands

/-!
# The stream of a simulation

How long a simulation goes on and which of its hosts are online has no part in the points that it
makes. `Simulation.stream` is the simulation with both left out. **While there are steps left, a
step makes the point that the stream makes, or has the fault that the stream has**
(`next_stream`), so simulations with one stream make the same points, whatever their ends and
their growth (`filled_of_stream_eq`).

The one calculation of a step that uses what is left out is the one of the hosts online, which can
leave the range of counts. `Simulation.Counted` is the invariant that rules this out. It says of the
counters what `Simulation.Stands` says of them, and nothing of the clocks of the hosts.
-/

namespace SeriesLoad

namespace Simulation

/-- The simulation without what tells when it is finished and which hosts are online. -/
def stream {γ : Type} (s : Simulation γ) : Simulation γ :=
  { s with initial := 0, epochs := 0, budget := 0, online := 0 }

variable {γ : Type} {s s' : Simulation γ}

/-! ## Counters that belong together -/

/-- The steps of the simulation can be counted, and as many points are made as there are before its
place in the pass. -/
structure Counted (s : Simulation γ) : Prop where
  initial_le : s.initial ≤ s.hosts.size
  room : s.hosts.size ≤ roomLimit
  budget_eq : s.budget = s.epochs * s.hosts.size * s.passes
  budget_lt : s.budget < 2 ^ 64
  host_le : s.host ≤ s.hosts.size
  pass_lt : s.pass < s.passes
  made_eq : s.made = (s.epoch * s.passes + s.pass) * s.hosts.size + s.host

theorem init_counted [Words γ] {p : Population} {passes : Nat} {interval : Span} (hpos : 0 < passes)
    (hroom : p.hosts ≤ roomLimit)
    (hsteps : epochCount p.start p.stop interval * p.hosts * passes < 2 ^ 64) (words : γ) :
    ∃ s, init p passes interval words = .ok s ∧ s.Counted ∧ s.made = 0
      ∧ s.budget = epochCount p.start p.stop interval * p.hosts * passes
      ∧ s.hosts.size = p.hosts ∧ s.initial = min p.initial p.hosts
      ∧ s.online = min p.initial p.hosts := by
  have hsize : ((drawHosts p.model p.start p.hosts 0).run words).1.toArray.size = p.hosts :=
    length_drawHosts p.model p.start p.hosts 0 words
  refine ⟨_, init_eq_ok hroom hsteps words, ⟨?_, ?_, ?_, hsteps, Nat.zero_le _, hpos, ?_⟩, rfl, rfl,
    hsize, rfl, rfl⟩
  · rw [hsize]
    exact Nat.min_le_right _ _
  · rw [hsize]
    exact hroom
  · rw [hsize]
  · simp

/-- Where there are steps left, there are hosts. -/
theorem Counted.hosts_pos (h : s.Counted) (hmade : s.made < s.budget) : 0 < s.hosts.size := by
  rcases Nat.eq_zero_or_pos s.hosts.size with hzero | hpos
  · rw [h.budget_eq, hzero, Nat.mul_zero, Nat.zero_mul] at hmade
    exact absurd hmade (Nat.not_lt_zero _)
  · exact hpos

/-- After the last host of the last pass, with steps left, another epoch begins. -/
theorem Counted.epoch_lt (h : s.Counted) (hmade : s.made < s.budget)
    (hhost : s.host = s.hosts.size) (hpass : s.pass + 1 = s.passes) :
    s.made = (s.epoch + 1) * s.passes * s.hosts.size ∧ s.epoch + 1 < s.epochs := by
  have hplace : s.made = (s.epoch + 1) * s.passes * s.hosts.size :=
    calc s.made
        = (s.epoch * s.passes + s.pass) * s.hosts.size + s.hosts.size := by
          rw [h.made_eq, hhost]
      _ = (s.epoch * s.passes + (s.pass + 1)) * s.hosts.size := (Nat.succ_mul ..).symm
      _ = (s.epoch + 1) * s.passes * s.hosts.size := by rw [hpass, Nat.succ_mul s.epoch]
  refine ⟨hplace, ?_⟩
  rw [hplace, h.budget_eq, Nat.mul_right_comm] at hmade
  exact Nat.lt_of_mul_lt_mul_right (Nat.lt_of_mul_lt_mul_right hmade)

/-- The hosts online in the next epoch can be counted. -/
theorem Counted.exists_online (h : s.Counted) (hmade : s.made < s.budget)
    (hhost : s.host = s.hosts.size) (hpass : s.pass + 1 = s.passes) :
    ∃ online, onlineIn s.hosts.size s.initial s.epochs (s.epoch + 1) = .ok online := by
  have hpasses : 0 < s.passes := Nat.zero_lt_of_lt h.pass_lt
  have hsteps : s.epochs * s.hosts.size < 2 ^ 64 :=
    Nat.lt_of_le_of_lt (Nat.le_mul_of_pos_right _ hpasses) (h.budget_eq ▸ h.budget_lt)
  exact exists_onlineIn h.initial_le h.room hsteps (h.epoch_lt hmade hhost hpass).2

variable [Words γ]

theorem settle_counted (hs : s.Counted) (hmade : s.made < s.budget) (h : s.settle = .ok s') :
    s'.Counted ∧ s'.made = s.made ∧ s'.budget = s.budget ∧ s'.host < s'.hosts.size := by
  have hhosts := hs.hosts_pos hmade
  rcases settle_cases h with ⟨hhost, rfl⟩ | ⟨hhost, hpass, rfl⟩ |
    ⟨hhost, hpass, hosts, words, online, htick, -, rfl⟩
  · exact ⟨hs, rfl, rfl, Nat.lt_of_le_of_ne hs.host_le hhost⟩
  · have hlt : s.pass + 1 < s.passes := Nat.lt_of_le_of_ne hs.pass_lt hpass
    refine ⟨⟨hs.initial_le, hs.room, hs.budget_eq, hs.budget_lt, Nat.zero_le _, hlt, ?_⟩, rfl, rfl,
      hhosts⟩
    show s.made = (s.epoch * s.passes + (s.pass + 1)) * s.hosts.size
    rw [hs.made_eq, hhost, ← Nat.succ_mul, Nat.add_succ]
  · have hsize : hosts.toArray.size = s.hosts.size := length_tickHosts htick
    have hpasses : 0 < s.passes := Nat.zero_lt_of_lt hs.pass_lt
    refine ⟨⟨?_, ?_, ?_, hs.budget_lt, Nat.zero_le _, hpasses, ?_⟩, rfl, rfl, hsize ▸ hhosts⟩
    · rw [hsize]
      exact hs.initial_le
    · rw [hsize]
      exact hs.room
    · rw [hsize]
      exact hs.budget_eq
    · show s.made = ((s.epoch + 1) * s.passes + 0) * hosts.toArray.size + 0
      rw [(hs.epoch_lt hmade hhost hpass).1, hsize]
      rfl

/-- A step makes one point, and the counters go on belonging together. -/
theorem next_counted (hs : s.Counted) (hmade : s.made < s.budget) {buffer q : Point}
    {isWritten : Bool} (h : s.next buffer = .ok (s', isWritten, q)) :
    s'.Counted ∧ s'.made = s.made + 1 ∧ s'.budget = s.budget := by
  obtain ⟨s₁, hsettle, h⟩ := Except.bind_eq_ok.mp h
  obtain ⟨hs₁, hmade₁, hbudget₁, hhost⟩ := settle_counted hs hmade hsettle
  obtain ⟨host, hget⟩ : ∃ host, s₁.hosts[s₁.host]? = some host :=
    ⟨_, Array.getElem?_eq_getElem hhost⟩
  simp only [emit, hget, pure, Except.pure, Except.ok.injEq, Prod.mk.injEq] at h
  obtain ⟨rfl, -, -⟩ := h
  refine ⟨{ hs₁ with host_le := hhost, made_eq := ?_ }, by rw [← hmade₁], hbudget₁⟩
  show s₁.made + 1 = _ + (s₁.host + 1)
  rw [hs₁.made_eq, Nat.add_assoc]

/-! ## The same points -/

theorem settle_stream (hs : s.Counted) (hmade : s.made < s.budget) :
    s.settle.map stream = s.stream.settle.map stream := by
  by_cases hhost : s.host = s.hosts.size
  · by_cases hpass : s.pass + 1 = s.passes
    · obtain ⟨online, honline⟩ := hs.exists_online hmade hhost hpass
      have hnone : onlineIn s.hosts.size 0 0 (s.epoch + 1) = .ok s.hosts.size :=
        if_pos (Nat.zero_le 1)
      have hsettle : s.settle = nextEpoch { s with host := 0, pass := 0 } := by
        rw [settle, if_pos hhost]
        exact if_pos hpass
      have hsettle' : s.stream.settle = nextEpoch { s.stream with host := 0, pass := 0 } := by
        rw [settle, if_pos (show s.stream.host = s.stream.hosts.size from hhost)]
        exact if_pos hpass
      rw [hsettle, hsettle']
      cases htick : tickHosts s.interval s.hosts.toList s.words with
      | error e => simp only [nextEpoch, stream, htick, bind, Except.bind, Except.map]
      | ok ticked =>
        obtain ⟨hosts, words⟩ := ticked
        simp only [nextEpoch, stream, htick, honline, hnone, bind, Except.bind, Except.map]
    · have hsettle : s.settle = .ok { s with host := 0, pass := s.pass + 1 } := by
        rw [settle, if_pos hhost]
        exact if_neg hpass
      have hsettle' : s.stream.settle = .ok { s.stream with host := 0, pass := s.pass + 1 } := by
        rw [settle, if_pos (show s.stream.host = s.stream.hosts.size from hhost)]
        exact if_neg hpass
      rw [hsettle, hsettle']
      rfl
  · rw [settle, if_neg hhost, settle,
      if_neg (show ¬ s.stream.host = s.stream.hosts.size from hhost)]
    rfl

omit [Words γ] in
/-- What is left out does not show in a point. -/
theorem emit_stream (s : Simulation γ) (buffer : Point) :
    ((s.emit buffer).1.stream, (s.emit buffer).2.2) =
      ((s.stream.emit buffer).1.stream, (s.stream.emit buffer).2.2) := by
  unfold emit
  cases hget : s.hosts[s.host]? with
  | none => simp only [stream, hget]
  | some host => simp only [stream, hget]

/-- A step, without what it tells of the hosts online and of the end. -/
def streamed (s : Simulation γ) (buffer : Point) : Except Fault (Simulation γ × Point) :=
  (s.next buffer).map fun made => (made.1.stream, made.2.2)

/-- While there are steps left, a step makes the point that the stream makes. -/
theorem next_stream (hs : s.Counted) (hmade : s.made < s.budget) (buffer : Point) :
    s.streamed buffer = s.stream.streamed buffer := by
  have hsettle := settle_stream hs hmade
  unfold streamed next
  cases hs₁ : s.settle with
  | error e =>
    cases hs₂ : s.stream.settle with
    | error e' =>
      rw [hs₁, hs₂] at hsettle
      cases hsettle
      rfl
    | ok s₂ =>
      rw [hs₁, hs₂] at hsettle
      cases hsettle
  | ok s₁ =>
    cases hs₂ : s.stream.settle with
    | error e =>
      rw [hs₁, hs₂] at hsettle
      cases hsettle
    | ok s₂ =>
      rw [hs₁, hs₂] at hsettle
      have hsame : s₁.stream = s₂.stream := Except.ok.inj hsettle
      have hemit := emit_stream s₁ buffer
      rw [hsame, ← emit_stream s₂ buffer] at hemit
      exact congrArg Except.ok hemit

/-- Steps of two simulations with one stream have the same fault, or make the same point and leave
one stream behind. -/
theorem next_of_stream_eq {s₁ s₂ : Simulation γ} (h : s₁.stream = s₂.stream) (h₁ : s₁.Counted)
    (h₂ : s₂.Counted) (hmade₁ : s₁.made < s₁.budget) (hmade₂ : s₂.made < s₂.budget)
    (buffer : Point) :
    (∃ e, s₁.next buffer = .error e ∧ s₂.next buffer = .error e)
      ∨ ∃ s₁' s₂' w₁ w₂ q, s₁.next buffer = .ok (s₁', w₁, q) ∧ s₂.next buffer = .ok (s₂', w₂, q)
        ∧ s₁'.stream = s₂'.stream := by
  have hnext : s₁.streamed buffer = s₂.streamed buffer := by
    rw [next_stream h₁ hmade₁, next_stream h₂ hmade₂, h]
  unfold streamed at hnext
  cases hn₁ : s₁.next buffer with
  | error e =>
    cases hn₂ : s₂.next buffer with
    | error e' =>
      rw [hn₁, hn₂] at hnext
      cases hnext
      exact .inl ⟨e, rfl, rfl⟩
    | ok made =>
      rw [hn₁, hn₂] at hnext
      cases hnext
  | ok made =>
    obtain ⟨s₁', w₁, q₁⟩ := made
    cases hn₂ : s₂.next buffer with
    | error e =>
      rw [hn₁, hn₂] at hnext
      cases hnext
    | ok made =>
      obtain ⟨s₂', w₂, q₂⟩ := made
      rw [hn₁, hn₂] at hnext
      obtain ⟨hstream, hq⟩ := Prod.mk.inj (Except.ok.inj hnext)
      cases (show q₁ = q₂ from hq)
      exact .inr ⟨s₁', s₂', w₁, w₂, q₁, rfl, rfl, hstream⟩

/-- What a step makes of the point in a buffer. -/
def filled (s : Simulation γ) (buffer : Point) : Except Fault Point :=
  (s.next buffer).map (·.2.2)

/-- Step `k` of two simulations with one stream makes the same point, for every `k` below the number
of steps of either. A fault on the way is the same one as well. -/
theorem filled_of_stream_eq {s₁ s₂ : Simulation γ} (h : s₁.stream = s₂.stream) (h₁ : s₁.Counted)
    (h₂ : s₂.Counted) (buffers : List Point) (buffer : Point)
    (hmade₁ : s₁.made + buffers.length < s₁.budget)
    (hmade₂ : s₂.made + buffers.length < s₂.budget) :
    ((s₁.steps buffers).bind fun s => s.filled buffer) =
      (s₂.steps buffers).bind fun s => s.filled buffer := by
  induction buffers generalizing s₁ s₂ with
  | nil =>
    show s₁.filled buffer = s₂.filled buffer
    rcases next_of_stream_eq h h₁ h₂ hmade₁ hmade₂ buffer with
      ⟨e, hn₁, hn₂⟩ | ⟨_, _, _, _, q, hn₁, hn₂, -⟩
    · rw [filled, filled, hn₁, hn₂]
    · rw [filled, filled, hn₁, hn₂]
      rfl
  | cons first rest ih =>
    rw [List.length_cons] at hmade₁ hmade₂
    have hleft₁ : s₁.made < s₁.budget := by omega
    have hleft₂ : s₂.made < s₂.budget := by omega
    rcases next_of_stream_eq h h₁ h₂ hleft₁ hleft₂ first with
      ⟨e, hn₁, hn₂⟩ | ⟨s₁', s₂', w₁, w₂, q, hn₁, hn₂, hstream⟩
    · simp only [steps, hn₁, hn₂, bind, Except.bind]
    · obtain ⟨h₁', hm₁, hb₁⟩ := next_counted h₁ hleft₁ hn₁
      obtain ⟨h₂', hm₂, hb₂⟩ := next_counted h₂ hleft₂ hn₂
      simp only [steps, hn₁, hn₂, bind, Except.bind]
      exact ih hstream h₁' h₂' (by omega) (by omega)

/-! ## All hosts online -/

/-- All hosts are online, from the first epoch on. -/
def AllOnline (s : Simulation γ) : Prop := s.initial = s.hosts.size ∧ s.online = s.hosts.size

theorem onlineIn_all {hosts epochs epoch online : Nat}
    (h : onlineIn hosts hosts epochs epoch = .ok online) : online = hosts := by
  unfold onlineIn at h
  split_ifs at h with hone
  · exact (Except.ok.inj h).symm
  · rw [Nat.sub_self, Nat.zero_mul] at h
    obtain ⟨product, hproduct, h⟩ := Except.bind_eq_ok.mp h
    cases hproduct
    obtain ⟨sum, hsum, h⟩ := Except.bind_eq_ok.mp h
    rw [Nat.zero_div, Nat.add_zero, countOf] at hsum
    split_ifs at hsum
    cases hsum
    rw [← Except.ok.inj h]
    exact Nat.min_self hosts

/-- With all hosts online every step is to be written. -/
theorem next_allOnline (hs : s.Counted) (hmade : s.made < s.budget) (hall : s.AllOnline)
    {buffer q : Point} {isWritten : Bool} (h : s.next buffer = .ok (s', isWritten, q)) :
    isWritten = true ∧ s'.AllOnline := by
  obtain ⟨s₁, hsettle, h⟩ := Except.bind_eq_ok.mp h
  obtain ⟨-, -, -, hhost⟩ := settle_counted hs hmade hsettle
  have hall₁ : s₁.AllOnline := by
    rcases settle_cases hsettle with ⟨-, rfl⟩ | ⟨-, -, rfl⟩ |
      ⟨-, -, hosts, words, online, htick, honline, rfl⟩
    · exact hall
    · exact hall
    · have hsize : hosts.toArray.size = s.hosts.size := length_tickHosts htick
      rw [hall.1] at honline
      exact ⟨hall.1.trans hsize.symm, (onlineIn_all honline).trans hsize.symm⟩
  obtain ⟨host, hget⟩ : ∃ host, s₁.hosts[s₁.host]? = some host :=
    ⟨_, Array.getElem?_eq_getElem hhost⟩
  simp only [emit, hget, pure, Except.pure, Except.ok.injEq, Prod.mk.injEq] at h
  obtain ⟨rfl, rfl, -⟩ := h
  exact ⟨decide_eq_true (hall₁.2 ▸ hhost), hall₁⟩

end Simulation

end SeriesLoad
