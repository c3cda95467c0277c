import Mathlib.Algebra.BigOperators.Intervals
import Mathlib.Algebra.Order.Floor.Div
import Mathlib.Data.Nat.Count
import SeriesLoad.Proofs.Run.Limited
import SeriesLoad.Proofs.Run.SharedBuffer

/-!
# The numbers that a run reports

**What a run reports of itself is what it did** (`run_statistics`): the steps that it made, their
points that were to be written, of those the ones that were its group's in turn, and the bytes by
which its output grew. None of this depends on what the points are, on when the run is told to stop,
or on whether its output has a limit, as long as the run is reported as a success.

The invariant is `Unbuffered.Tallied`. One step adds one point to the script of a run, or ends the
run with an error (`step_tallied`); so the numbers of a run are those of the script that it made
(`loop_tallied`), and two runs that are not interrupted made the same script. Of the output it is
enough to know that a write that it takes makes it larger by the bytes written, `Output.Grows`.
-/

namespace SeriesLoad

/-! ## Counting turns -/

namespace Share

variable {share : Share}

/-- The turns of a group are counted by its rounds. -/
theorem count_turns (h : share.group < share.groups) (n : Nat) :
    Nat.count (fun k => k % share.groups = share.group) n = share.rounds n := by
  induction n with
  | zero => simp [rounds]
  | succ n ih => rw [Nat.count_succ, rounds_succ h, ih]

/-- The turns of a group, counted from its first one. -/
theorem rounds_eq_ceilDiv (h : share.group < share.groups) (n : Nat) :
    share.rounds n = if share.group < n then (n - share.group) ⌈/⌉ share.groups else 0 := by
  have hpos : 0 < share.groups := Nat.zero_lt_of_lt h
  have hmod : n % share.groups < share.groups := Nat.mod_lt n hpos
  have hsplit : share.groups * (n / share.groups) + n % share.groups = n := Nat.div_add_mod _ _
  have hpast : ∀ whole rest : Nat, n - share.group + share.groups - 1 =
      share.groups * whole + rest → rest < share.groups →
        (n - share.group) ⌈/⌉ share.groups = whole := by
    intro whole rest hsum hrest
    rw [Nat.ceilDiv_eq_add_pred_div, hsum, Nat.mul_add_div hpos, Nat.div_eq_of_lt hrest,
      Nat.add_zero]
  unfold rounds
  by_cases hround : share.group < n % share.groups
  · -- the group has had its turn in the round that is not whole
    have hfirst : share.group < n := Nat.lt_of_lt_of_le hround (Nat.mod_le _ _)
    rw [if_pos hround, if_pos hfirst]
    refine (hpast _ (n % share.groups - share.group - 1) ?_ ?_).symm
    · rw [Nat.mul_add, Nat.mul_one]
      omega
    · omega
  · rw [if_neg hround, Nat.add_zero]
    by_cases hfirst : share.group < n
    · rw [if_pos hfirst]
      refine (hpast _ (n % share.groups + (share.groups - 1 - share.group)) ?_ ?_).symm
      · omega
      · omega
    · rw [if_neg hfirst, Nat.div_eq_of_lt (by omega)]

/-- Every turn is that of one of the groups. -/
theorem sum_count_turns {groups : Nat} (hpos : 0 < groups) (n : Nat) :
    ∑ g ∈ Finset.range groups, Nat.count (fun k => k % groups = g) n = n := by
  induction n with
  | zero => simp
  | succ n ih =>
    have hturn : ∑ g ∈ Finset.range groups, (if n % groups = g then 1 else 0) = 1 := by
      rw [Finset.sum_ite_eq, if_pos (Finset.mem_range.mpr (Nat.mod_lt n hpos))]
    simp only [Nat.count_succ]
    rw [Finset.sum_add_distrib, ih, hturn]

end Share

/-! ## Outputs that grow -/

/-- A write that is taken makes an output larger by the bytes that were written. -/
def Output.Grows {ω : Type} [Output ω] (size : ω → Nat) : Prop :=
  ∀ {out out' : ω} {bs : ByteArray}, Output.write out bs = (out', true) →
    size out' = size out + bs.size

theorem Sink.size_write {s s' : Sink} {bs : ByteArray} (h : s.write bs = (s', true)) :
    s'.received.size = s.received.size + bs.size := by
  unfold write at h
  simp only at h
  split_ifs at h
  · cases h
    exact ByteArray.size_append
  · cases h

theorem Sink.grows : Output.Grows fun s : Sink => s.received.size := Sink.size_write

namespace Buffer

/-- The bytes that a buffer holds and those that it has handed on. -/
def size (b : Buffer) : Nat := b.sink.received.size + b.pending.size

/-- A buffer that is handed on whole is empty, and its bytes are in the sink. -/
theorem size_flush {b b' : Buffer} (h : b.flush = (b', true)) :
    b'.sink.received.size = b.size ∧ b'.size = b.size := by
  unfold flush at h
  cases hwrite : b.sink.write b.pending with
  | mk sink isWhole =>
    rw [hwrite] at h
    cases h
    exact ⟨Sink.size_write hwrite, Sink.size_write hwrite⟩

theorem grows : Output.Grows size := by
  intro b b' bs h
  -- what is handed on ahead of the bytes changes nothing in the size
  obtain ⟨b₁, hfirst, hsize⟩ : ∃ b₁,
      (if b.limit < b.pending.size + bs.size then b.flush else (b, true)) = (b₁, true)
        ∧ b₁.size = b.size := by
    cases hflush : (if b.limit < b.pending.size + bs.size then b.flush else (b, true)) with
    | mk b₁ isWhole =>
      have hwhole : isWhole = true := by
        cases isWhole with
        | true => rfl
        | false =>
          change Buffer.write b bs = (b', true) at h
          simp [Buffer.write, hflush] at h
      subst isWhole
      refine ⟨b₁, rfl, ?_⟩
      by_cases hover : b.limit < b.pending.size + bs.size
      · rw [if_pos hover] at hflush
        exact (size_flush hflush).2
      · rw [if_neg hover] at hflush
        cases hflush
        rfl
  change Buffer.write b bs = (b', true) at h
  unfold Buffer.write at h
  simp only [hfirst, Bool.not_true, Bool.false_eq_true, if_false] at h
  rw [← hsize]
  by_cases hlarge : b₁.limit ≤ bs.size
  · rw [if_pos hlarge] at h
    cases hwrite : b₁.sink.write bs with
    | mk sink isWhole =>
      rw [hwrite] at h
      cases h
      have hsink := Sink.size_write hwrite
      simp only [size]
      omega
  · rw [if_neg hlarge] at h
    cases h
    simp only [size, ByteArray.size_append]
    omega

end Buffer

/-- A writer gives the bytes by which it makes its output larger. -/
def Writer.Accounts {ω : Type} (put : Writer ω) (size : ω → Nat) : Prop :=
  ∀ {p : Point} {out out' : ω} {n : Nat}, put p out = (out', .ok n) → size out' = size out + n

/-- The formats do so, on every output that grows. -/
theorem Format.accounts {ω : Type} [Output ω] {size : ω → Nat} (h : Output.Grows size)
    (f : Format) : Writer.Accounts f.write size := by
  intro p out out' n hwrite
  unfold Format.write at hwrite
  cases hrecord : f.encode p with
  | error e => simp [hrecord] at hwrite
  | ok record =>
    simp only [hrecord] at hwrite
    rcases hout : Output.write out record with ⟨taken, isWhole⟩
    rw [hout] at hwrite
    cases isWhole with
    | false => simp at hwrite
    | true =>
      cases hwrite
      exact h hout

/-! ## What a run counts -/

/-- The numbers of steps and records are those of a script, and of the records those were written
that were the group's in turn. -/
structure RunStats.Counts (stats : RunStats) (share : Share) (made : Script) : Prop where
  points : stats.points = made.length
  records : stats.records = (Script.emitted made).length
  written : stats.written = Nat.count (fun k => k % share.groups = share.group) stats.records

namespace Unbuffered

variable {σ ω : Type} {src : Source σ} {put : Writer ω} {share : Share} {size : ω → Nat}
  {before : Nat} {made : Script} {u : Unbuffered σ ω}

/-- A run has counted the script that it made so far and the bytes by which its output grew, and it
is the turn of the group after that of the last record. -/
structure Tallied (share : Share) (size : ω → Nat) (before : Nat) (made : Script)
    (u : Unbuffered σ ω) : Prop where
  counts : u.stats.Counts share made
  turn : u.turn = u.stats.records % share.groups
  bytes : size u.output = before + u.stats.bytes

theorem tallied_start (share : Share) (size : ω → Nat) (s : σ) (out : ω) :
    ({ source := s, output := out } : Unbuffered σ ω).Tallied share size (size out) [] where
  counts := ⟨rfl, rfl, (Nat.count_zero _).symm⟩
  turn := (Nat.zero_mod _).symm
  bytes := rfl

/-- When the turn is passed on, a record has been counted. Whether it was written was settled
before. -/
theorem Tallied.passTurn (hpos : 0 < share.groups) {v : Unbuffered σ ω}
    (hpoints : v.stats.points = made.length)
    (hrecords : v.stats.records + 1 = (Script.emitted made).length)
    (hwritten : v.stats.written =
      Nat.count (fun k => k % share.groups = share.group) (v.stats.records + 1))
    (hturn : v.turn = v.stats.records % share.groups)
    (hbytes : size v.output = before + v.stats.bytes) :
    ∃ v', v.passTurn share.groups = .ok v' ∧ v'.source = v.source
      ∧ v'.Tallied share size before made := by
  refine ⟨_, if_neg (Nat.ne_of_gt hpos), rfl, ⟨hpoints, hrecords, hwritten⟩, ?_, hbytes⟩
  change (v.turn + 1) % share.groups = (v.stats.records + 1) % share.groups
  rw [hturn, Nat.mod_add_mod]

/-- Counting one more turn tells whether it is the group's. -/
theorem Tallied.count_succ (h : u.Tallied share size before made) :
    Nat.count (fun k => k % share.groups = share.group) (u.stats.records + 1) =
      u.stats.written + if u.turn = share.group then 1 else 0 := by
  rw [Nat.count_succ, h.counts.written, h.turn]

/-- A step ends the run with an error, or adds its point to the script that was counted. -/
theorem step_tallied (src : Source σ) (hgroup : share.group < share.groups)
    (hput : put.Accounts size) (h : u.Tallied share size before made) :
    (∃ e err, u.step src put share = .error e ∧ e.result = .error err)
      ∨ ∃ u' isWritten p, u.step src put share = .ok u'
        ∧ src.next u.source .empty = .ok (u'.source, isWritten, p)
        ∧ u'.Tallied share size before (made ++ [(p, isWritten)]) := by
  have hpos : 0 < share.groups := Nat.zero_lt_of_lt hgroup
  have hcount := h.count_succ
  obtain ⟨⟨hpoints, hrecords, hwritten⟩, hturn, hbytes⟩ := h
  unfold step
  cases hnext : src.next u.source .empty with
  | error e => exact .inl ⟨_, _, rfl, rfl⟩
  | ok made₁ =>
    obtain ⟨source, isWritten, p⟩ := made₁
    have hpoints' : u.stats.points + 1 = (made ++ [(p, isWritten)]).length := by
      rw [hpoints, List.length_append, List.length_singleton]
    cases isWritten with
    | false =>
      refine .inr ⟨u.stepped source, false, p, rfl, rfl, ⟨hpoints', ?_, hwritten⟩, hturn, hbytes⟩
      rw [Script.emitted_concat, if_neg Bool.false_ne_true, List.append_nil]
      exact hrecords
    | true =>
      have hrecords' : u.stats.records + 1 = (Script.emitted (made ++ [(p, true)])).length := by
        rw [Script.emitted_concat, if_pos rfl, List.length_append, List.length_singleton, hrecords]
      simp only [if_true, offer]
      by_cases hown : (u.stepped source).turn = share.group
      · rw [if_pos hown]
        rw [if_pos (show u.turn = share.group from hown)] at hcount
        rcases hout : put p (u.stepped source).output with ⟨output, e | n⟩
        · exact .inl ⟨_, _, rfl, rfl⟩
        · have hbytes' : size output = before + (u.stats.bytes + n) := by
            rw [hput hout, show (u.stepped source).output = u.output from rfl, hbytes,
              Nat.add_assoc]
          obtain ⟨u', hpass, hsource, htallied⟩ := Tallied.passTurn hpos
            (v := (u.stepped source).wrote output n) hpoints' hrecords' hcount.symm hturn hbytes'
          exact .inr ⟨u', true, p, hpass, by rw [hsource]; rfl, htallied⟩
      · rw [if_neg hown]
        rw [if_neg (show ¬ u.turn = share.group from hown)] at hcount
        obtain ⟨u', hpass, hsource, htallied⟩ := Tallied.passTurn hpos
          (v := u.stepped source) hpoints' hrecords' hcount.symm hturn hbytes
        exact .inr ⟨u', true, p, hpass, by rw [hsource]; rfl, htallied⟩

/-- What a run that goes through reports is what it did. If it was not interrupted, it made the
whole course of its source. -/
theorem loop_tallied (hgroup : share.group < share.groups) (hput : put.Accounts size)
    (stop : RunStats → ω → Bool) (steps : Nat) (h : u.Tallied share size before made)
    {stats : RunStats} (hok : (u.loop src put share stop steps).result = .ok stats) :
    ∃ more, src.play more.length u.source = .ok (more, (u.loop src put share stop steps).source)
      ∧ stats.Counts share (made ++ more)
      ∧ size (u.loop src put share stop steps).output = before + stats.bytes
      ∧ (stats.interrupted = false → src.course (fun _ => false) steps u.source made =
          ⟨made ++ more, (u.loop src put share stop steps).source, .finished⟩) := by
  induction steps generalizing u made with
  | zero =>
    cases hok
    refine ⟨[], rfl, ?_, h.bytes, ?_⟩
    · rw [List.append_nil]
      exact h.counts
    · intro _
      rw [List.append_nil]
      rfl
  | succ steps ih =>
    rw [loop] at hok ⊢
    rw [Source.course, if_neg Bool.false_ne_true]
    by_cases hdone : src.remaining u.source = 0
    · rw [if_pos hdone] at hok ⊢
      cases hok
      refine ⟨[], rfl, ?_, h.bytes, ?_⟩
      · rw [List.append_nil]
        exact h.counts
      · intro _
        rw [if_pos hdone, List.append_nil]
    rw [if_neg hdone] at hok ⊢
    by_cases hstop : stop u.stats u.output = true
    · rw [if_pos hstop] at hok ⊢
      cases hok
      refine ⟨[], rfl, ?_, h.bytes, ?_⟩
      · rw [List.append_nil]
        exact ⟨h.counts.points, h.counts.records, h.counts.written⟩
      · intro hnot
        cases hnot
    rw [if_neg hstop] at hok ⊢
    rcases step_tallied src hgroup hput h with
      ⟨e, err, hstep, herr⟩ | ⟨u', isWritten, p, hstep, hnext, h'⟩
    · rw [hstep] at hok
      change e.result = .ok stats at hok
      rw [herr] at hok
      cases hok
    · rw [hstep] at hok ⊢
      obtain ⟨rest, hplay, hcounts, hbytes, hcourse⟩ := ih h' hok
      rw [← List.append_cons] at hcounts hcourse
      refine ⟨(p, isWritten) :: rest, Source.play_succ hnext hplay, hcounts, hbytes, ?_⟩
      intro hnot
      rw [if_neg hdone, hnext]
      exact hcourse hnot

end Unbuffered

/-! ## What a run reports -/

/-- The numbers of a run are what it did: it made so many steps, so many of their points were to be
written, it wrote of those the ones that were its group's when all are dealt in turn, and its output
grew by so many bytes. -/
structure RunEnd.IsExact {σ ω : Type} (src : Source σ) (share : Share) (size : ω → Nat) (s : σ)
    (out : ω) (stats : RunStats) (e : RunEnd σ ω) : Prop where
  steps : ∃ made, src.play stats.points s = .ok (made, e.source) ∧ stats.Counts share made
  written : stats.written =
    if share.group < stats.records then (stats.records - share.group) ⌈/⌉ share.groups else 0
  bytes : size e.output = size out + stats.bytes

/-- All that a source makes if it is never told to stop. -/
def Source.whole {σ : Type} (src : Source σ) (s : σ) : Script :=
  (src.course (fun _ => false) (src.remaining s) s []).made

namespace RunState

variable {σ ω : Type} {src : Source σ} {share : Share} {size : ω → Nat} {stats : RunStats}

/-- With any writer, a loop reports what it did. If it was not interrupted, it made the whole course
of its source. -/
theorem loopWith_isExact {put : Writer ω} (hgroup : share.group < share.groups)
    (hput : put.Accounts size) (stop : RunStats → ω → Bool) (steps : Nat) (s : σ) (out : ω)
    (hok : (loopWith src put share stop steps { source := s, output := out }).result =
      .ok stats) :
    (loopWith src put share stop steps { source := s, output := out }).IsExact src share size s out
        stats
      ∧ (stats.interrupted = false →
        stats.Counts share (src.course (fun _ => false) steps s []).made) := by
  have hloop : loopWith src put share stop steps { source := s, output := out } =
      Unbuffered.loop src put share stop steps { source := s, output := out } :=
    loopWith_filled stop steps { source := s, output := out }
  rw [hloop] at hok ⊢
  obtain ⟨made, hplay, hcounts, hbytes, hcourse⟩ :=
    Unbuffered.loop_tallied hgroup hput stop steps (Unbuffered.tallied_start share size s out) hok
  rw [List.nil_append] at hcounts hcourse
  rw [← hcounts.points] at hplay
  refine ⟨⟨⟨made, hplay, hcounts⟩, ?_, hbytes⟩, ?_⟩
  · rw [hcounts.written, Share.count_turns hgroup, Share.rounds_eq_ceilDiv hgroup]
  · intro hnot
    rw [hcourse hnot]
    exact hcounts

theorem run_isExact [Output ω] (share : Share) (hgroup : share.group < share.groups)
    (hgrows : Output.Grows size) (f : Format) (stop : RunStats → Bool) (s : σ) (out : ω)
    (hok : (run src f share stop s out).result = .ok stats) :
    (run src f share stop s out).IsExact src share size s out stats
      ∧ (stats.interrupted = false → stats.Counts share (src.whole s)) := by
  have hrun : run src f share stop s out = loopWith src f.write share (fun stats _ => stop stats)
      (src.remaining s) { source := s, output := out } := loop_eq_loopWith src f share stop _ _
  rw [hrun] at hok ⊢
  exact loopWith_isExact hgroup (f.accounts hgrows) _ _ s out hok

end RunState

/-! ## Jobs -/

namespace DataJob

variable {j : DataJob} {stop : RunStats → Bool} {stats : RunStats}

/-- A job that goes through has put out its preamble and run its simulation. -/
theorem generate_run {ω : Type} [Output ω] {size : ω → Nat} (hgrows : Output.Grows size) {out : ω}
    {e : RunEnd (Simulation ChaCha) ω} (h : j.generate stop out = .ok e)
    (hok : e.result = .ok stats) :
    ∃ s out', j.simulation = .ok s ∧ size out' = size out + (j.preamble s).size
      ∧ e = run Simulation.source j.format j.share stop s out' := by
  cases hs : j.simulation with
  | error fault =>
    rw [generate_of_error hs] at h
    cases h
  | ok s =>
    simp only [generate, hs, bind, Except.bind, pure, Except.pure] at h
    by_cases hneeds : j.format.needsPreamble = true
    · have hpreamble : j.preamble s = s.schema.preamble.toUTF8 := if_pos hneeds
      rw [if_pos hneeds] at h
      rcases hwrite : Output.write out s.schema.preamble.toUTF8 with ⟨out', isWhole⟩
      rw [hwrite] at h
      cases isWhole with
      | false =>
        cases h
        cases hok
      | true =>
        cases h
        exact ⟨s, out', rfl, hpreamble ▸ hgrows hwrite, rfl⟩
    · have hpreamble : j.preamble s = .empty := if_neg hneeds
      rw [if_neg hneeds] at h
      cases h
      exact ⟨s, out, rfl, by rw [hpreamble]; rfl, rfl⟩

/-- The output of a job grows by the preamble and the bytes that the run reports. -/
theorem generate_size {ω : Type} [Output ω] {size : ω → Nat} (hgrows : Output.Grows size) {out : ω}
    (hgroup : j.share.group < j.share.groups) {e : RunEnd (Simulation ChaCha) ω}
    (h : j.generate stop out = .ok e) (hok : e.result = .ok stats) :
    ∃ s, j.simulation = .ok s
      ∧ size e.output = size out + (j.preamble s).size + stats.bytes := by
  obtain ⟨s, out', hs, hpreamble, rfl⟩ := generate_run hgrows h hok
  have hbytes := (RunState.run_isExact j.share hgroup hgrows j.format stop s out' hok).1.bytes
  exact ⟨s, hs, by rw [hbytes, hpreamble]⟩

/-- Through a buffer as well, once that is handed on. -/
theorem generateBuffered_size (hgroup : j.share.group < j.share.groups) {sink : Sink}
    {e : RunEnd (Simulation ChaCha) Sink} (h : j.generateBuffered stop sink = .ok e)
    (hok : e.result = .ok stats) :
    ∃ s, j.simulation = .ok s
      ∧ e.output.received.size = sink.received.size + (j.preamble s).size + stats.bytes := by
  rw [generateBuffered_eq] at h
  cases hb : j.generate stop ({ sink } : Buffer) with
  | error fault =>
    rw [hb] at h
    cases h
  | ok b =>
    rw [hb] at h
    cases h
    obtain ⟨hokb, hwhole⟩ : b.result = .ok stats ∧ b.output.flush.2 = true := by
      unfold RunEnd.flushed at hok
      cases hresult : b.result with
      | error err => simp [hresult] at hok
      | ok stats' =>
        simp only [hresult] at hok
        split_ifs at hok with hwhole
        cases hok
        exact ⟨rfl, hwhole⟩
    obtain ⟨s, hs, hsize⟩ := generate_size Buffer.grows hgroup hb hokb
    have hflush : b.output.flush = (b.output.flush.1, true) := by rw [← hwhole]
    refine ⟨s, hs, ?_⟩
    change b.output.flush.1.sink.received.size = _
    rw [(Buffer.size_flush hflush).1, hsize]
    rfl

/-- In every format, all groups of an accepted job come to the end of its simulation. -/
theorem IsSet.run_ok {clock : UInt64} {st : DataSettings} (h : j.IsSet clock st)
    {s : Simulation ChaCha} (hs : j.simulation = .ok s) (f : Format) (share : Share)
    (hpos : 0 < share.groups) (out : Sink) (hcap : out.capacity = none) :
    (run Simulation.source f share (fun _ => false) s out).result =
      .ok (.ofScript f share (Simulation.source.whole s)) := by
  rw [RunState.run_eq_ofCourse (fun _ => false) hcap hpos s]
  · exact RunState.ofCourse_finished share (h.course_finished hs).1
  · intro p hp
    exact ((h.course hs _ _).1 _ (Script.mem_emitted.mp hp)).encodes f

end DataJob

/-! ## Groups and formats -/

/-- Runs of all groups that are not interrupted write together what each of them counts. -/
theorem RunStats.sum_written {stats : Nat → RunStats} {groups : Nat} {made : Script}
    (h : ∀ g < groups, (stats g).Counts ⟨g, groups⟩ made) {g : Nat} (hg : g < groups) :
    (stats g).records = ∑ i ∈ Finset.range groups, (stats i).written := by
  have hwritten : ∀ i ∈ Finset.range groups, (stats i).written =
      Nat.count (fun k => k % groups = i) (Script.emitted made).length := by
    intro i hi
    have hcounts := h i (Finset.mem_range.mp hi)
    rw [hcounts.written, hcounts.records]
  rw [Finset.sum_congr rfl hwritten, Share.sum_count_turns (Nat.zero_lt_of_lt hg),
    (h g hg).records]

/-- The statistics of a run are exact. Whatever its source, its format, its group and when it is
told to stop, and with or without a limit to its sink: if it reports numbers at all, they are those
of the steps that it made, of their points that were to be written, of the ones among these that
were its group's in turn, and of the bytes that reached the sink. They are exact with any other
writer on any other output too, as long as the writer knows by how much it makes its output larger.
So the sink of a job is larger by its preamble and the bytes that are reported, with a buffer and
without one. The runs of all groups that are not interrupted count the same records and write each
of them once, the same number for a group in every format; and an accepted job comes to such an end
for every group in every format. -/
theorem run_statistics :
    (∀ {σ : Type} (src : Source σ) (s : σ) (sink : Sink) (f : Format) (share : Share)
        (stop : RunStats → Bool) (stats : RunStats), share.group < share.groups →
      (run src f share stop s sink).result = .ok stats →
      (run src f share stop s sink).IsExact src share (fun sink => sink.received.size) s sink stats)
    ∧ (∀ {σ ω : Type} (src : Source σ) (s : σ) (out : ω) (size : ω → Nat) (put : Writer ω)
        (share : Share) (stop : RunStats → ω → Bool) (steps : Nat) (stats : RunStats),
      put.Accounts size → share.group < share.groups →
      (RunState.loopWith src put share stop steps { source := s, output := out }).result =
        .ok stats →
      (RunState.loopWith src put share stop steps { source := s, output := out }).IsExact src share
        size s out stats)
    ∧ (∀ (j : DataJob) (stop : RunStats → Bool) (sink : Sink) (e : RunEnd (Simulation ChaCha) Sink)
        (stats : RunStats), j.share.group < j.share.groups →
      j.generate stop sink = .ok e ∨ j.generateBuffered stop sink = .ok e →
      e.result = .ok stats →
      ∃ s, j.simulation = .ok s
        ∧ e.output.received.size = sink.received.size + (j.preamble s).size + stats.bytes)
    ∧ (∀ {σ : Type} (src : Source σ) (s : σ) (groups : Nat) (f f' : Nat → Format)
        (stop stop' : Nat → RunStats → Bool) (out out' : Nat → Sink)
        (stats stats' : Nat → RunStats),
      (∀ g < groups, (run src (f g) ⟨g, groups⟩ (stop g) s (out g)).result = .ok (stats g)
        ∧ (stats g).interrupted = false) →
      (∀ g < groups, (run src (f' g) ⟨g, groups⟩ (stop' g) s (out' g)).result = .ok (stats' g)
        ∧ (stats' g).interrupted = false) →
      ∀ g < groups, (stats g).records = ∑ i ∈ Finset.range groups, (stats i).written
        ∧ (stats' g).points = (stats g).points ∧ (stats' g).records = (stats g).records
        ∧ (stats' g).written = (stats g).written)
    ∧ ∀ (clock : UInt64) (st : DataSettings) (j : DataJob), DataJob.ofSettings clock st = .ok j →
      ∀ s, j.simulation = .ok s → ∀ groups, ∃ written : Nat → Nat, ∀ (f : Format), ∀ g < groups,
        ∃ e stats, ({ j with format := f, share := ⟨g, groups⟩ } : DataJob).generate
            (fun _ => false) ({} : Sink) = .ok e
          ∧ e.result = .ok stats ∧ stats.interrupted = false ∧ stats.written = written g
          ∧ stats.records = ∑ i ∈ Finset.range groups, written i := by
  refine ⟨?_, ?_, ?_, ?_, ?_⟩
  · intro σ src s sink f share stop stats hgroup hok
    exact (RunState.run_isExact share hgroup Sink.grows f stop s sink hok).1
  · intro σ ω src s out size put share stop steps stats hput hgroup hok
    exact (RunState.loopWith_isExact hgroup hput stop steps s out hok).1
  · intro j stop sink e stats hgroup hmade hok
    rcases hmade with h | h
    · exact DataJob.generate_size Sink.grows hgroup h hok
    · exact DataJob.generateBuffered_size hgroup h hok
  · intro σ src s groups f f' stop stop' out out' stats stats' h h' g hg
    have hcounts : ∀ i < groups, (stats i).Counts ⟨i, groups⟩ (src.whole s) := by
      intro i hi
      have hrun := RunState.run_isExact ⟨i, groups⟩ hi Sink.grows (f i) (stop i) s
        (out i) (h i hi).1
      exact hrun.2 (h i hi).2
    have hcounts' : (stats' g).Counts ⟨g, groups⟩ (src.whole s) := by
      have hrun := RunState.run_isExact ⟨g, groups⟩ hg Sink.grows (f' g) (stop' g) s
        (out' g) (h' g hg).1
      exact hrun.2 (h' g hg).2
    have hrecords : (stats' g).records = (stats g).records := by
      rw [hcounts'.records, (hcounts g hg).records]
    refine ⟨RunStats.sum_written hcounts hg, ?_, hrecords, ?_⟩
    · rw [hcounts'.points, (hcounts g hg).points]
    · rw [hcounts'.written, (hcounts g hg).written, hrecords]
  · intro clock st j hj s hs groups
    have hset := DataJob.ofSettings_eq_ok.mp hj
    refine ⟨fun g => Nat.count (fun k => k % groups = g)
      (Script.emitted (Simulation.source.whole s)).length, ?_⟩
    intro f g hg
    have hpos : 0 < groups := Nat.zero_lt_of_lt hg
    have hok := hset.run_ok hs f ⟨g, groups⟩ hpos
      { received := ({ j with format := f } : DataJob).preamble s } rfl
    have hcounts := (RunState.run_isExact ⟨g, groups⟩ hg Sink.grows f _ s _ hok).2 rfl
    refine ⟨_, _, DataJob.generate_of_ok (j := { j with format := f, share := ⟨g, groups⟩ }) hs _,
      hok, rfl, ?_, ?_⟩
    · rw [hcounts.written, hcounts.records]
    · rw [hcounts.records, Share.sum_count_turns hpos]

/-- The second of two groups of a script of three steps; the groups of that script in two formats;
and an accepted job of two groups. -/
theorem run_statistics_three_steps :
    (∃ stats, (run Script.source .influx ⟨1, 2⟩ (fun _ => false) threeSteps
          ({ capacity := some 40 } : Sink)).result = .ok stats
        ∧ stats.points = 3 ∧ stats.records = 2 ∧ stats.written = 1
        ∧ (run Script.source .influx ⟨1, 2⟩ (fun _ => false) threeSteps
          ({ capacity := some 40 } : Sink)).output.received.size = 0 + stats.bytes)
      ∧ (∃ stats : Nat → RunStats, (∀ g < 2, (run Script.source .influx ⟨g, 2⟩ (fun _ => false)
            threeSteps ({} : Sink)).result = .ok (stats g))
        ∧ 2 = ∑ i ∈ Finset.range 2, (stats i).written)
      ∧ ∃ e stats, ({ DataJob.twoHostJob with share := ⟨1, 3⟩ } : DataJob).generate
            (fun _ => false) ({} : Sink) = .ok e
        ∧ e.result = .ok stats ∧ stats.interrupted = false
        ∧ ∃ s, DataJob.twoHostJob.simulation = .ok s ∧ e.output.received.size =
          0 + (DataJob.twoHostJob.preamble s).size + stats.bytes := by
  refine ⟨?_, ?_, ?_⟩
  · have hrun : (run Script.source .influx ⟨1, 2⟩ (fun _ => false) threeSteps
        ({ capacity := some 40 } : Sink)).result = .ok ⟨3, 2, 1, 6, false⟩ := by rfl
    have hexact := run_statistics.1 Script.source threeSteps _ .influx ⟨1, 2⟩ _ _ (by decide) hrun
    exact ⟨_, hrun, rfl, rfl, rfl, hexact.bytes⟩
  · have hrun : ∀ f : Format, f = .influx ∨ f = .timescaledb → ∀ g < 2,
        (run Script.source f ⟨g, 2⟩ (fun _ => false) threeSteps ({} : Sink)).result =
            .ok (.ofScript f ⟨g, 2⟩ threeSteps)
          ∧ (RunStats.ofScript f ⟨g, 2⟩ threeSteps).interrupted = false := by
      rintro f (rfl | rfl) g hg
      all_goals
        obtain rfl | rfl : g = 0 ∨ g = 1 := by omega
        · exact ⟨by rfl, rfl⟩
        · exact ⟨by rfl, rfl⟩
    have hsum := run_statistics.2.2.2.1 Script.source threeSteps 2 (fun _ => .influx)
      (fun _ => .timescaledb) _ _ _ _ _ _ (hrun .influx (.inl rfl)) (hrun .timescaledb (.inr rfl))
    exact ⟨_, fun g hg => (hrun .influx (.inl rfl) g hg).1, (hsum 0 (by decide)).1⟩
  · rcases DataJob.twoHostJob.simulation_cases with ⟨-, s, hs⟩ | ⟨hout, -⟩
    · obtain ⟨written, hwritten⟩ :=
        run_statistics.2.2.2.2 0 _ _ DataJob.ofSettings_twoHosts s hs 3
      obtain ⟨e, stats, he, hok, hinterrupted, -, -⟩ := hwritten .timescaledb 1 (by decide)
      obtain ⟨s', hs', hsize⟩ := run_statistics.2.2.1 _ _ _ e stats (by decide) (.inl he) hok
      exact ⟨e, stats, he, hok, hinterrupted, s', hs', hsize⟩
    · exact absurd hout (by decide)

end SeriesLoad
