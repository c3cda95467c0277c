import SeriesLoad.Proofs.Run.Partition

/-!
# Runs on a sink that runs full

**A sink with room for `n` bytes gets the first `n` bytes of what an unlimited sink gets, and the
run fails exactly if there are more** (`full_sink_cuts_output`). Without a buffer the run goes no
further than the step of the first record that does not fit; with one the failure is found later, but
the sink holds the same.

Both are read off the course of the source. A run either takes it to the end, or breaks off with a
record that the output does not take (`RunState.loop_reached`); what the output holds then is known
from what it keeps track of.
-/

namespace SeriesLoad

variable {σ : Type}

/-- The end of a run on a sink with room for `n` bytes, where an unlimited sink would get `whole`:
the sink got the front of it, and the run failed exactly if that is not all. -/
structure RunEnd.CutAt (n : Nat) (whole : ByteArray) (e : RunEnd σ Sink) : Prop where
  received : e.output.received = whole.extract 0 n
  failed : (∃ err, e.result = .error err) ↔ n < whole.size

/-- With `base` written ahead of the records, those of a script before the point `p` end within the
first `n` bytes, and the record of `p`, which is for the group to write, ends beyond them. -/
structure Share.Crosses (share : Share) (f : Format) (base : ByteArray) (n : Nat)
    (before : Script) (p : Point) : Prop where
  turn : share.HasTurn before
  fits : (base ++ share.written f before).size ≤ n
  exceeds : n < (base ++ share.written f (before ++ [(p, true)])).size

/-- The course that a source takes under a run. -/
def Source.courseOf (src : Source σ) (f : Format) (share : Share) (stop : RunStats → Bool) (s : σ) :
    Course σ :=
  src.course (fun made => stop (.ofScript f share made)) (src.remaining s) s []

/-! ## What the sink got -/

namespace RunEnd

variable {n : Nat} {whole : ByteArray} {e : RunEnd σ Sink}

theorem cutAt_of_held (h : e.output.Held n whole) (hok : ∀ err, e.result ≠ .error err) :
    e.CutAt n whole where
  received := by rw [h.received, extract_of_size_le h.size]
  failed := ⟨fun ⟨err, herr⟩ => absurd herr (hok err), fun hlt =>
    absurd h.size (Nat.not_le_of_lt hlt)⟩

theorem cutAt_of_full (h : e.output.Full n whole) {err : RunError} (herr : e.result = .error err) :
    e.CutAt n whole where
  received := h.received
  failed := ⟨fun _ => h.size, fun _ => ⟨err, herr⟩⟩

/-- The end of a run through a buffer, once the buffer is flushed. -/
def flushed (e : RunEnd σ Buffer) : RunEnd σ Sink where
  source := e.source
  output := e.output.flush.1.sink
  result := match e.result with
    | .error err => .error err
    | .ok stats => if e.output.flush.2 then .ok stats else .error (.write .sinkFull)

variable {b : RunEnd σ Buffer}

theorem flushed_of_held (h : b.output.Held n whole) (hok : ∀ err, b.result ≠ .error err) :
    b.flushed.CutAt n whole := by
  obtain ⟨b', isWhole, hflush, h'⟩ := h.flush_cases
  cases hresult : b.result with
  | error err => exact absurd hresult (hok err)
  | ok stats =>
    cases isWhole with
    | true =>
      refine cutAt_of_held (e := b.flushed) ?_ fun err => ?_
      · simpa only [flushed, hflush] using h'.1.sink h'.2
      · simp [flushed, hresult, hflush]
    | false =>
      rw [if_neg Bool.false_ne_true] at h'
      have herr : b.flushed.result = .error (.write .sinkFull) := by
        simp [flushed, hresult, hflush]
      refine cutAt_of_full ?_ herr
      simpa only [flushed, hflush] using h'

theorem flushed_of_full (h : b.output.sink.Full n whole) {err : RunError}
    (herr : b.result = .error err) : b.flushed.CutAt n whole := by
  have herr' : b.flushed.result = .error err := by simp only [flushed, herr]
  refine cutAt_of_full ?_ herr'
  show (b.output.sink.write b.output.pending).1.Full n whole
  rw [h.write]
  exact h

end RunEnd

namespace RunState

/-- A course without a fault is reported as a success. -/
theorem report_ne_error {f : Format} {share : Share} {c : Source.Course σ}
    (h : ∀ e, c.ending ≠ .fault e) (err : RunError) : report f share c ≠ .error err := by
  unfold report
  cases hending : c.ending with
  | finished => simp
  | stopped => simp
  | fault e => exact absurd hending (h e)

variable {src : Source σ} {f : Format} {share : Share} {stop : RunStats → Bool} {s : σ} {n : Nat}
  {base : ByteArray}

/-- A run whose steps have no fault, on a sink with room for `n` bytes of which some may be taken
already. -/
theorem run_limited (hpos : 0 < share.groups) {out : Sink} (hout : out.Held n base)
    (henc : ∀ p ∈ Script.emitted (src.courseOf f share stop s).made, f.Encodes p)
    (hfault : ∀ e, (src.courseOf f share stop s).ending ≠ .fault e) :
    (run src f share stop s out).CutAt n
        (base ++ share.written f (src.courseOf f share stop s).made)
      ∧ (n < (base ++ share.written f (src.courseOf f share stop s).made).size →
        ∃ before p, before ++ [(p, true)] <+: (src.courseOf f share stop s).made
          ∧ src.play (before.length + 1) s =
            .ok (before ++ [(p, true)], (run src f share stop s out).source)
          ∧ share.Crosses f base n before p) := by
  rw [run, ← reached_nil f share out s]
  have hheld : out.Held n (base ++ share.written f []) := by
    rwa [Share.written_nil, ByteArray.append_empty]
  rcases loop_reached Sink.tracks stop hpos base (src.remaining s) s [] hheld henc with
    ⟨out', hout', hloop⟩ | ⟨before, p, hmade, hplay, hbreaks⟩
  · rw [hloop]
    exact ⟨RunEnd.cutAt_of_held hout' (report_ne_error hfault),
      fun hlt => absurd hout'.size (Nat.not_le_of_lt hlt)⟩
  · rw [List.nil_append] at hmade hbreaks
    obtain ⟨out₁, hout₁⟩ := hbreaks.held
    exact ⟨RunEnd.cutAt_of_full (hbreaks.lost_whole Sink.tracks hmade) hbreaks.result,
      fun _ => ⟨before, p, hmade, hplay, hbreaks.turn, hout₁.size, hbreaks.lost.size⟩⟩

/-- The same run through a buffer. -/
theorem run_buffered (hpos : 0 < share.groups) {out : Buffer} (hout : out.Held n base)
    (henc : ∀ p ∈ Script.emitted (src.courseOf f share stop s).made, f.Encodes p)
    (hfault : ∀ e, (src.courseOf f share stop s).ending ≠ .fault e) :
    (run src f share stop s out).flushed.CutAt n
      (base ++ share.written f (src.courseOf f share stop s).made) := by
  rw [run, ← reached_nil f share out s]
  have hheld : out.Held n (base ++ share.written f []) := by
    rwa [Share.written_nil, ByteArray.append_empty]
  rcases loop_reached Buffer.tracks stop hpos base (src.remaining s) s [] hheld henc with
    ⟨out', hout', hloop⟩ | ⟨before, p, hmade, -, hbreaks⟩
  · rw [hloop]
    exact RunEnd.flushed_of_held hout' (report_ne_error hfault)
  · rw [List.nil_append] at hmade hbreaks
    exact RunEnd.flushed_of_full (hbreaks.lost_whole Buffer.tracks hmade) hbreaks.result

end RunState

/-! ## Scripts -/

theorem Point.empty_append (q : Point) : Point.empty.append q = q := by
  have hname : (if q.name.isEmpty then "" else q.name) = q.name := by
    split_ifs with hempty
    · exact (String.isEmpty_iff.mp hempty).symm
    · rfl
  show Point.mk (if q.name.isEmpty then "" else q.name) (q.timestamp.or none) (#[] ++ q.tags)
    (#[] ++ q.fields) = q
  rw [hname, Option.or_none, Array.empty_append, Array.empty_append]

namespace Script

theorem next_cons (q : Point × Bool) (rest : Script) :
    source.next (q :: rest) .empty = .ok (rest, q.2, q.1) := by
  show Except.ok (rest, q.2, Point.empty.append q.1) = _
  rw [Point.empty_append]

theorem play_append (made rest : Script) :
    source.play made.length (made ++ rest) = .ok (made, rest) := by
  induction made with
  | nil => rfl
  | cons q made ih => exact Source.play_succ (next_cons q (made ++ rest)) ih

/-- The course of a script makes its points in order and has no fault. -/
theorem course_source (halt : Script → Bool) (steps : Nat) (script : Script) :
    (source.course halt steps script []).made <+: script
      ∧ ∀ e, (source.course halt steps script []).ending ≠ .fault e := by
  have hcourse := source.course_induction (I := fun rest made => made ++ rest = script)
    (fun {rest made} hrest hleft => ?_) halt steps [] (List.nil_append script)
  · exact ⟨⟨_, hcourse.1⟩, hcourse.2⟩
  · cases rest with
    | nil => exact absurd rfl hleft
    | cons q rest =>
      exact ⟨rest, q.2, q.1, next_cons q rest, by rw [← hrest, ← List.append_cons]⟩

/-- A run of a script on a sink that runs full. -/
theorem run_cut {script : Script} {f : Format} {share : Share}
    (henc : ∀ p ∈ emitted script, f.Encodes p) (hpos : 0 < share.groups)
    (stop : RunStats → Bool) (n : Nat) :
    (run source f share stop script ({ capacity := some n } : Sink)).CutAt n
        (run source f share stop script ({} : Sink)).output.received
      ∧ (n < (run source f share stop script ({} : Sink)).output.received.size →
        ∃ before p, script = before ++ (p, true) ::
            (run source f share stop script ({ capacity := some n } : Sink)).source
          ∧ share.Crosses f .empty n before p) := by
  obtain ⟨hmade, hfault⟩ :=
    course_source (fun made => stop (.ofScript f share made)) script.length script
  have hcourse : ∀ p ∈ emitted (source.courseOf f share stop script).made, f.Encodes p :=
    fun p hp => henc p (mem_emitted.mpr (hmade.subset (mem_emitted.mp hp)))
  have hwhole : (run source f share stop script ({} : Sink)).output.received =
      .empty ++ share.written f (source.courseOf f share stop script).made := by
    rw [RunState.run_eq_ofCourse stop rfl hpos script hcourse]
    rfl
  have hheld : Sink.Held n .empty { capacity := some n } := ⟨rfl, rfl, Nat.zero_le n⟩
  obtain ⟨hcut, hcross⟩ := RunState.run_limited hpos hheld hcourse hfault
  rw [hwhole]
  refine ⟨hcut, fun hlt => ?_⟩
  obtain ⟨before, p, hbefore, hplay, hcrosses⟩ := hcross hlt
  refine ⟨before, p, ?_, hcrosses⟩
  obtain ⟨rest, hrest⟩ := hbefore.trans hmade
  have hplay' := play_append (before ++ [(p, true)]) rest
  rw [hrest, List.length_append, List.length_singleton, hplay, Except.ok.injEq,
    Prod.mk.injEq] at hplay'
  rw [hplay'.2, List.append_cons, hrest]

end Script

/-! ## Jobs -/

namespace DataJob

theorem generateBuffered_eq (j : DataJob) (stop : RunStats → Bool) (sink : Sink) :
    j.generateBuffered stop sink = (j.generate stop ({ sink } : Buffer)).map RunEnd.flushed := by
  unfold generateBuffered
  cases j.generate stop ({ sink } : Buffer) with
  | error e => rfl
  | ok ended => rfl

/-- A job runs its simulation behind the preamble, if its output takes the preamble. -/
theorem generate_tracks {ω : Type} [Output ω] {Held Lost : ByteArray → ω → Prop}
    (htracks : Output.Tracks Held Lost) {j : DataJob} {s : Simulation ChaCha}
    (hs : j.simulation = .ok s) (stop : RunStats → Bool) {out : ω} (hout : Held .empty out) :
    (∃ out', Held (j.preamble s) out'
        ∧ j.generate stop out = .ok (run Simulation.source j.format j.share stop s out'))
      ∨ ∃ out', Lost (j.preamble s) out'
        ∧ j.generate stop out = .ok ⟨s, out', .error (.write .sinkFull)⟩ := by
  unfold preamble
  split_ifs with hneeds
  · obtain ⟨out', isWhole, hwrite, hout'⟩ := htracks.write hout s.schema.preamble.toUTF8
    rw [ByteArray.empty_append] at hout'
    cases isWhole with
    | true =>
      refine .inl ⟨out', hout', ?_⟩
      simp only [generate, hs, hneeds, if_true, hwrite, bind, Except.bind, pure, Except.pure]
    | false =>
      refine .inr ⟨out', hout', ?_⟩
      simp only [generate, hs, hneeds, if_true, hwrite, bind, Except.bind, pure, Except.pure]
  · refine .inl ⟨out, hout, ?_⟩
    simp [generate, hs, hneeds, bind, Except.bind, pure, Except.pure]

/-- What an accepted job writes on an unlimited sink. -/
def whole (j : DataJob) (stop : RunStats → Bool) (s : Simulation ChaCha) : ByteArray :=
  j.preamble s
    ++ j.share.written j.format (Simulation.source.courseOf j.format j.share stop s).made

namespace IsSet

variable {clock : UInt64} {st : DataSettings} {j : DataJob} {s : Simulation ChaCha}

theorem encodes_course (h : j.IsSet clock st) (hs : j.simulation = .ok s)
    (stop : RunStats → Bool) :
    ∀ p ∈ Script.emitted (Simulation.source.courseOf j.format j.share stop s).made,
      j.format.Encodes p := by
  intro p hp
  exact ((h.course hs _ _).1 _ (Script.mem_emitted.mp hp)).encodes j.format

theorem generate_whole (h : j.IsSet clock st) (hs : j.simulation = .ok s)
    (stop : RunStats → Bool) :
    ∃ ended, j.generate stop ({} : Sink) = .ok ended
      ∧ ended.output.received = j.whole stop s := by
  refine ⟨_, generate_of_ok hs stop, ?_⟩
  rw [h.run_eq_ofCourse hs j.share (Nat.zero_lt_of_lt h.share_lt) stop _ rfl]
  rfl

theorem generate_limited (h : j.IsSet clock st) (hs : j.simulation = .ok s)
    (stop : RunStats → Bool) (n : Nat) :
    ∃ ended, j.generate stop ({ capacity := some n } : Sink) = .ok ended
      ∧ ended.CutAt n (j.whole stop s)
      ∧ (n < (j.preamble s).size → ended.source = s)
      ∧ ((j.preamble s).size ≤ n → n < (j.whole stop s).size →
        ∃ before p, Simulation.source.play (before.length + 1) s =
            .ok (before ++ [(p, true)], ended.source)
          ∧ j.share.Crosses j.format (j.preamble s) n before p) := by
  have hheld : Sink.Held n .empty { capacity := some n } := ⟨rfl, rfl, Nat.zero_le n⟩
  rcases generate_tracks Sink.tracks hs stop hheld with
    ⟨out, hout, hgenerate⟩ | ⟨out, hfull, hgenerate⟩
  · obtain ⟨hcut, hcross⟩ := RunState.run_limited (Nat.zero_lt_of_lt h.share_lt) hout
      (h.encodes_course hs stop) (h.course hs _ _).2
    refine ⟨_, hgenerate, hcut, fun hlt => absurd hout.size (Nat.not_le_of_lt hlt),
      fun _ hlt => ?_⟩
    obtain ⟨before, p, -, hplay, hcrosses⟩ := hcross hlt
    exact ⟨before, p, hplay, hcrosses⟩
  · exact ⟨_, hgenerate, RunEnd.cutAt_of_full (hfull.append _) rfl, fun _ => rfl,
      fun hle => absurd hfull.size (Nat.not_lt_of_le hle)⟩

theorem generateBuffered_limited (h : j.IsSet clock st) (hs : j.simulation = .ok s)
    (stop : RunStats → Bool) (n : Nat) :
    ∃ ended, j.generateBuffered stop { capacity := some n } = .ok ended
      ∧ ended.CutAt n (j.whole stop s) := by
  have hheld : Buffer.Held n .empty { sink := { capacity := some n } } :=
    ⟨rfl, Nat.zero_le n, rfl⟩
  rw [generateBuffered_eq]
  rcases generate_tracks Buffer.tracks hs stop hheld with
    ⟨out, hout, hgenerate⟩ | ⟨out, hfull, hgenerate⟩
  · rw [hgenerate]
    exact ⟨_, rfl, RunState.run_buffered (Nat.zero_lt_of_lt h.share_lt) hout
      (h.encodes_course hs stop) (h.course hs _ _).2⟩
  · rw [hgenerate]
    exact ⟨_, rfl, RunEnd.flushed_of_full (hfull.append _) rfl⟩

end IsSet

end DataJob

/-- Of what an unlimited sink gets, a sink with room for `n` bytes gets the first `n`, and the run
fails exactly if there are more. For a script whose points have records, and for an accepted job
behind its preamble, the source has then made the steps up to the first one whose record, written by
the group, ends beyond the `n` bytes; where the preamble does not fit, it has made none. A job that
writes through a buffer leaves the same bytes and fails in the same cases. -/
theorem full_sink_cuts_output :
    (∀ (script : Script) (f : Format) (share : Share) (stop : RunStats → Bool) (n : Nat),
      (∀ p ∈ Script.emitted script, ∃ record, f.encode p = .ok record) →
      share.group < share.groups →
      ∃ whole ended, run Script.source f share stop script ({} : Sink) = whole
        ∧ run Script.source f share stop script ({ capacity := some n } : Sink) = ended
        ∧ ended.CutAt n whole.output.received
        ∧ (n < whole.output.received.size →
          ∃ before p, script = before ++ (p, true) :: ended.source
            ∧ share.Crosses f .empty n before p))
    ∧ ∀ (clock : UInt64) (st : DataSettings) (j : DataJob),
      DataJob.ofSettings clock st = .ok j →
      ∀ (stop : RunStats → Bool) (n : Nat),
      ((roomLimit < j.population.hosts ∨ 2 ^ 64 ≤ j.steps)
        ∧ ∃ e, j.generate stop ({} : Sink) = .error e
          ∧ j.generate stop ({ capacity := some n } : Sink) = .error e
          ∧ j.generateBuffered stop { capacity := some n } = .error e)
      ∨ ∃ s whole ended buffered, j.simulation = .ok s
        ∧ j.generate stop ({} : Sink) = .ok whole
        ∧ j.generate stop ({ capacity := some n } : Sink) = .ok ended
        ∧ j.generateBuffered stop { capacity := some n } = .ok buffered
        ∧ ended.CutAt n whole.output.received
        ∧ buffered.CutAt n whole.output.received
        ∧ (n < (j.preamble s).size → ended.source = s)
        ∧ ((j.preamble s).size ≤ n → n < whole.output.received.size →
          ∃ before p, Simulation.source.play (before.length + 1) s =
              .ok (before ++ [(p, true)], ended.source)
            ∧ j.share.Crosses j.format (j.preamble s) n before p) := by
  refine ⟨fun script f share stop n hencode hlt => ?_, fun clock st j hj stop n => ?_⟩
  · have henc : ∀ p ∈ Script.emitted script, f.Encodes p := fun p hp => by
      obtain ⟨record, hrecord⟩ := hencode p hp
      rw [Format.Encodes, Format.recordOf, hrecord]
      rfl
    obtain ⟨hcut, hcross⟩ := Script.run_cut henc (Nat.zero_lt_of_lt hlt) stop n
    exact ⟨_, _, rfl, rfl, hcut, hcross⟩
  · have hset := DataJob.ofSettings_eq_ok.mp hj
    rcases j.simulation_cases with ⟨-, s, hs⟩ | ⟨hout, e, he⟩
    · right
      obtain ⟨whole, hwhole, hreceived⟩ := hset.generate_whole hs stop
      obtain ⟨ended, hended, hcut, hnone, hcross⟩ := hset.generate_limited hs stop n
      obtain ⟨buffered, hbuffered, hcut'⟩ := hset.generateBuffered_limited hs stop n
      rw [← hreceived] at hcut hcut' hcross
      exact ⟨s, whole, ended, buffered, hs, hwhole, hended, hbuffered, hcut, hcut', hnone, hcross⟩
    · refine .inl ⟨hout, e, DataJob.generate_of_error he stop _,
        DataJob.generate_of_error he stop _, ?_⟩
      rw [DataJob.generateBuffered_eq, DataJob.generate_of_error he stop _]
      rfl

/-- Three steps, the second of which makes a point that is not to be written. -/
def threeSteps : Script :=
  [({ name := "cpu" }, true), ({ name := "mem" }, false), ({ name := "net" }, true)]

theorem full_sink_cuts_output_three_steps :
    (∀ p ∈ Script.emitted threeSteps, ∃ record, Format.influx.encode p = .ok record)
      ∧ (⟨0, 1⟩ : Share).group < 1
      ∧ 4 < (run Script.source .influx ⟨0, 1⟩ (fun _ => false) threeSteps
        ({} : Sink)).output.received.size
      ∧ (∃ before p, threeSteps = before ++ (p, true) ::
          (run Script.source .influx ⟨0, 1⟩ (fun _ => false) threeSteps
            ({ capacity := some 4 } : Sink)).source
        ∧ (⟨0, 1⟩ : Share).Crosses .influx .empty 4 before p)
      ∧ DataJob.ofSettings 0 DataJob.twoHostSettings = .ok DataJob.twoHostJob
      ∧ ∃ whole buffered, DataJob.twoHostJob.generate (fun _ => false) ({} : Sink) = .ok whole
        ∧ DataJob.twoHostJob.generateBuffered (fun _ => false) { capacity := some 100 } =
          .ok buffered
        ∧ buffered.CutAt 100 whole.output.received := by
  have hencode : ∀ p ∈ Script.emitted threeSteps, ∃ record, Format.influx.encode p = .ok record :=
    fun _ _ => ⟨_, rfl⟩
  have hover : 4 < (run Script.source .influx ⟨0, 1⟩ (fun _ => false) threeSteps
      ({} : Sink)).output.received.size := by decide
  refine ⟨hencode, by decide, hover, ?_, DataJob.ofSettings_twoHosts, ?_⟩
  · obtain ⟨_, _, rfl, rfl, -, hcross⟩ := full_sink_cuts_output.1 threeSteps .influx ⟨0, 1⟩
      (fun _ => false) 4 hencode (by decide)
    exact hcross hover
  · rcases full_sink_cuts_output.2 0 _ _ DataJob.ofSettings_twoHosts (fun _ => false) 100 with
      ⟨hout, -⟩ | ⟨s, whole, ended, buffered, -, hwhole, -, hbuffered, -, hcut, -⟩
    · exact absurd hout (by decide)
    · exact ⟨whole, buffered, hwhole, hbuffered, hcut⟩

end SeriesLoad
