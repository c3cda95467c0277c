import SeriesLoad.Proofs.Run.Limited

/-!
# Runs that are told to stop

**A run that is told to stop writes a front part of what it would have written, and that part ends
between two records** (`stop_cuts_between_records`). It makes the steps ahead of the first check
that sees the flag, whichever of them are silent or for other groups, and says that it was
interrupted exactly if there were more steps to be made.

The source comes to its end if it is not told to stop; call the script it makes then the whole
script. The induction is on the steps that are left of that course: the course that is told to stop
goes along with it up to the first check that sees the flag (`Source.course_haltsAt`). What is
written of a front part of the whole script is a front part of the records, since dealing in turn
keeps front parts (`Share.deal_prefix`).

A buffer in front of the sink changes nothing: it is flushed on every way out of a run.
-/

namespace SeriesLoad

/-! ## Where a run halts -/

/-- Of a script, `n` steps are made: none of the checks ahead of them says to halt, and the check
behind them does, unless no step is left by then. -/
structure Script.HaltsAt (halt : Script → Bool) (whole : Script) (n : Nat) : Prop where
  le : n ≤ whole.length
  unseen : ∀ k < n, halt (whole.take k) = false
  seen : n < whole.length → halt (whole.take n) = true

/-- There is only one such number of steps. -/
theorem Script.HaltsAt.unique {halt : Script → Bool} {whole : Script} {m n : Nat}
    (hm : whole.HaltsAt halt m) (hn : whole.HaltsAt halt n) : m = n := by
  rcases Nat.lt_trichotomy m n with hlt | heq | hgt
  · have hseen := hm.seen (Nat.lt_of_lt_of_le hlt hn.le)
    rw [hn.unseen m hlt] at hseen
    cases hseen
  · exact heq
  · have hseen := hn.seen (Nat.lt_of_lt_of_le hgt hm.le)
    rw [hm.unseen n hgt] at hseen
    cases hseen

/-- The stop flag as a run sees it, if it is raised during the `k`-th step of the run, or ahead of
the run if `k` is zero. -/
def RunStats.raisedIn (k : Nat) (stats : RunStats) : Bool := k ≤ stats.points

/-- A flag that is raised during a step is seen right behind it. -/
theorem Script.haltsAt_raisedIn (f : Format) (share : Share) (whole : Script) (k : Nat) :
    whole.HaltsAt (fun made => RunStats.raisedIn k (.ofScript f share made))
      (min k whole.length) where
  le := Nat.min_le_right k whole.length
  unseen := by
    intro i hi
    have hpoints : (RunStats.ofScript f share (whole.take i)).points = i := by
      show (whole.take i).length = i
      rw [List.length_take]
      omega
    rw [RunStats.raisedIn, hpoints]
    exact decide_eq_false (by omega)
  seen := by
    intro hlt
    have hpoints : (RunStats.ofScript f share (whole.take (min k whole.length))).points = k := by
      show (whole.take (min k whole.length)).length = k
      rw [List.length_take]
      omega
    rw [RunStats.raisedIn, hpoints]
    exact decide_eq_true (Nat.le_refl k)

namespace Source

variable {σ : Type} {src : Source σ}

/-- A course that may be told to stop follows another one from where the script was `before`: it is
that course, or a check behind a front part of its script is the first that says to halt. -/
structure Course.Follows (src : Source σ) (halt : Script → Bool) (before : Script)
    (whole c : Course σ) : Prop where
  made : c.made <+: whole.made
  unseen : ∀ k, before.length ≤ k → k < c.made.length → halt (whole.made.take k) = false
  ends : c = whole ∨ c.ending = .stopped ∧ halt c.made = true
    ∧ c.made.length < whole.made.length ∧ src.remaining c.source ≠ 0

theorem course_follows (halt : Script → Bool) (steps : Nat) (s : σ) (made : Script)
    (hfinished : (src.course (fun _ => false) steps s made).ending = .finished) :
    Course.Follows src halt made (src.course (fun _ => false) steps s made)
      (src.course halt steps s made) := by
  have hnone : ∀ k, made.length ≤ k → ¬k < made.length := fun k hk => Nat.not_lt_of_le hk
  induction steps generalizing s made with
  | zero => exact ⟨List.prefix_rfl, fun k hk hlt => absurd hlt (hnone k hk), .inl rfl⟩
  | succ steps ih =>
    rw [course, if_neg Bool.false_ne_true] at hfinished ⊢
    rw [course]
    by_cases hdone : src.remaining s = 0
    · rw [if_pos hdone, if_pos hdone]
      exact ⟨List.prefix_rfl, fun k hk hlt => absurd hlt (hnone k hk), .inl rfl⟩
    · rw [if_neg hdone] at hfinished
      rw [if_neg hdone, if_neg hdone]
      cases hnext : src.next s .empty with
      | error e => simp [hnext] at hfinished
      | ok made₁ =>
        obtain ⟨s', isWritten, p⟩ := made₁
        simp only [hnext] at hfinished ⊢
        have hmore := course_made src (fun _ => false) steps s' (made ++ [(p, isWritten)])
        have hmade : made <+: made ++ [(p, isWritten)] := List.prefix_append _ _
        by_cases hhalt : halt made = true
        · -- the check ahead of this step says to halt
          rw [if_pos hhalt]
          refine ⟨hmade.trans hmore, fun k hk hlt => absurd hlt (hnone k hk),
            .inr ⟨rfl, hhalt, ?_, hdone⟩⟩
          have hle := hmore.length_le
          rw [List.length_append, List.length_singleton] at hle
          exact hle
        · rw [if_neg hhalt]
          have hrest := ih s' (made ++ [(p, isWritten)]) hfinished
            (fun k hk => Nat.not_lt_of_le hk)
          refine ⟨hrest.made, ?_, hrest.ends⟩
          intro k hk hlt
          rcases Nat.eq_or_lt_of_le hk with rfl | hgt
          · rw [List.prefix_iff_eq_take.mp (hmade.trans hmore)] at hhalt
            exact eq_false_of_ne_true hhalt
          · refine hrest.unseen k ?_ hlt
            rw [List.length_append, List.length_singleton]
            exact hgt

namespace Course.Follows

variable {halt : Script → Bool} {whole c : Course σ}

/-- A course that follows another one from the start makes the steps ahead of the first check that
says to halt. -/
theorem haltsAt (h : Follows src halt [] whole c) : whole.made.HaltsAt halt c.made.length where
  le := h.made.length_le
  unseen := fun k hk => h.unseen k (Nat.zero_le k) hk
  seen := by
    intro hlt
    rcases h.ends with rfl | ⟨-, hhalt, -⟩
    · exact absurd hlt (Nat.lt_irrefl _)
    · rwa [← List.prefix_iff_eq_take.mp h.made]

/-- A run that takes the course reports an interruption exactly if there were more steps. -/
theorem report_eq (h : Follows src halt [] whole c) (hfinished : whole.ending = .finished)
    (hdone : src.remaining whole.source = 0) (f : Format) (share : Share) :
    RunState.report f share c = .ok { RunStats.ofScript f share c.made with
      interrupted := decide (src.remaining c.source ≠ 0) } := by
  rcases h.ends with rfl | ⟨hstopped, -, -, hleft⟩
  · simp [RunState.report, hfinished, hdone]
    rfl
  · simp [RunState.report, hstopped, hleft]

end Course.Follows

end Source

open Source (Course)

/-! ## What is written by then -/

namespace Share

/-- What is written of a front part of a script is a front part of the records. -/
theorem written_take (share : Share) (f : Format) (whole : Script) (n : Nat) :
    share.written f (whole.take n) =
      joined (((share.deal (Script.emitted whole)).map f.recordOf).take
        (share.deal (Script.emitted (whole.take n))).length) := by
  have hemitted : Script.emitted (whole.take n) <+: Script.emitted whole :=
    ((List.take_prefix n whole).filter _).map _
  rw [written, ← List.map_take, ← List.prefix_iff_eq_take.mp (share.deal_prefix hemitted)]

end Share

/-- A run made the first `n` steps of a source that it would have stepped through the script `whole`,
and wrote, behind `base`, as many of the `records` of its group as these steps have. It says that it
was interrupted if the source had more steps to be made. -/
structure RunEnd.StopsAfter {σ : Type} (src : Source σ) (f : Format) (share : Share)
    (stop : RunStats → Bool) (base : ByteArray) (s : σ) (whole : Script)
    (records : List ByteArray) (n : Nat) (e : RunEnd σ Sink) : Prop where
  halts : whole.HaltsAt (fun made => stop (.ofScript f share made)) n
  played : src.play n s = .ok (whole.take n, e.source)
  received : e.output.received =
    base ++ joined (records.take (share.deal (Script.emitted (whole.take n))).length)
  result : e.result = .ok { RunStats.ofScript f share (whole.take n) with
    interrupted := decide (src.remaining e.source ≠ 0) }

namespace RunEnd.StopsAfter

variable {σ : Type} {src : Source σ} {f : Format} {share : Share} {stop : RunStats → Bool}
  {base : ByteArray} {s : σ} {whole : Script} {records : List ByteArray} {n : Nat}
  {e : RunEnd σ Sink}

/-- A flag that is raised during a step leaves the steps up to that one. -/
theorem eq_of_raisedIn (h : e.StopsAfter src f share stop base s whole records n) {k : Nat}
    (hstop : stop = RunStats.raisedIn k) : n = min k whole.length := by
  subst hstop
  exact h.halts.unique (Script.haltsAt_raisedIn f share whole k)

/-- Without a flag a run makes all steps. -/
theorem eq_length (h : e.StopsAfter src f share (fun _ => false) base s whole records n) :
    n = whole.length := by
  rcases Nat.eq_or_lt_of_le h.halts.le with heq | hlt
  · exact heq
  · have hseen := h.halts.seen hlt
    cases hseen

/-- Without a flag a run writes all records. -/
theorem received_whole {f' : Point → ByteArray}
    (h : e.StopsAfter src f share (fun _ => false) base s whole
      ((share.deal (Script.emitted whole)).map f') n) :
    e.output.received = base ++ joined ((share.deal (Script.emitted whole)).map f') := by
  rw [h.received, h.eq_length, List.take_length, List.take_of_length_le]
  rw [List.length_map]

end RunEnd.StopsAfter

/-- A flush hands on all that a buffer in front of an unlimited sink has taken. -/
theorem RunEnd.flushed_of_keeps {σ : Type} {b : RunEnd σ Buffer} {done : ByteArray}
    (h : b.output.Keeps done) : b.flushed = ⟨b.source, { received := done }, b.result⟩ := by
  rw [flushed, h.flush]
  cases b.result with
  | error e => rfl
  | ok stats => rfl

namespace RunState

variable {σ : Type} {src : Source σ} {f : Format} {share : Share} {stop : RunStats → Bool} {s : σ}
  {whole : Course σ}

/-- A run on an output that takes everything goes along with the course of its source. -/
theorem run_reached {ω : Type} [Output ω] {Held : ByteArray → ω → Prop}
    (htracks : Output.Tracks Held (fun _ _ => False)) (hpos : 0 < share.groups)
    {base : ByteArray} {out : ω} (hout : Held base out)
    (henc : ∀ p ∈ Script.emitted (src.courseOf f share stop s).made, f.Encodes p) :
    ∃ out', Held (base ++ share.written f (src.courseOf f share stop s).made) out'
      ∧ run src f share stop s out = ⟨(src.courseOf f share stop s).source, out',
        report f share (src.courseOf f share stop s)⟩ := by
  have hheld : Held (base ++ share.written f []) out := by
    rwa [Share.written_nil, ByteArray.append_empty]
  rcases loop_reached htracks stop hpos base (src.remaining s) s [] hheld henc with
    ⟨out', hout', hloop⟩ | ⟨_, _, -, -, hbreaks⟩
  · rw [reached_nil] at hloop
    exact ⟨out', hout', hloop⟩
  · exact hbreaks.lost.elim

/-- The end of such a run, once its sink has all that was written, if the source comes to its end
when it is not told to stop. -/
theorem stopsAfter_courseOf
    (hwhole : src.course (fun _ => false) (src.remaining s) s [] = whole)
    (hfinished : whole.ending = .finished) (hdone : src.remaining whole.source = 0)
    (base : ByteArray) :
    RunEnd.StopsAfter src f share stop base s whole.made
      ((share.deal (Script.emitted whole.made)).map f.recordOf)
      (src.courseOf f share stop s).made.length
      ⟨(src.courseOf f share stop s).source,
        { received := base ++ share.written f (src.courseOf f share stop s).made },
        report f share (src.courseOf f share stop s)⟩ := by
  subst hwhole
  have hfollows := Source.course_follows (fun made => stop (.ofScript f share made))
    (src.remaining s) s [] hfinished
  have htake := List.prefix_iff_eq_take.mp hfollows.made
  refine ⟨hfollows.haltsAt, ?_, ?_, ?_⟩
  · rw [Source.courseOf, ← htake]
    exact src.play_course_made _ _ _
  · rw [← share.written_take f, Source.courseOf, ← htake]
  · rw [Source.courseOf, ← htake]
    exact hfollows.report_eq hfinished hdone f share

end RunState

/-! ## Scripts -/

namespace Script

/-- Played back without a flag, a script comes to its end. -/
theorem course_never (script made : Script) :
    source.course (fun _ => false) script.length script made =
      ⟨made ++ script, [], .finished⟩ := by
  induction script generalizing made with
  | nil =>
    rw [List.append_nil]
    rfl
  | cons q rest ih =>
    have hleft : ¬source.remaining (q :: rest) = 0 := Nat.succ_ne_zero rest.length
    rw [List.length_cons, Source.course, if_neg hleft, if_neg Bool.false_ne_true, next_cons]
    show source.course (fun _ => false) rest.length rest (made ++ [q]) = _
    rw [ih, ← List.append_cons]

/-- After so many steps of a script the rest of it is left. -/
theorem source_of_play {script rest : Script} {n : Nat} (hle : n ≤ script.length)
    (hplay : source.play n script = .ok (script.take n, rest)) : rest = script.drop n := by
  have hsplit := play_append (script.take n) (script.drop n)
  rw [List.take_append_drop, List.length_take, Nat.min_eq_left hle, hplay] at hsplit
  cases hsplit
  rfl

/-- A run of a script that is told to stop. -/
theorem run_stopsAfter {script : Script} {f : Format} {share : Share}
    (henc : ∀ p ∈ emitted script, f.Encodes p) (hpos : 0 < share.groups)
    (stop : RunStats → Bool) :
    ∃ n, RunEnd.StopsAfter source f share stop .empty script script
      ((share.deal (emitted script)).map f.recordOf) n
      (run source f share stop script ({} : Sink)) := by
  have hmade := (course_source (fun made => stop (.ofScript f share made)) script.length script).1
  have hcourse : ∀ p ∈ emitted (source.courseOf f share stop script).made, f.Encodes p := by
    intro p hp
    exact henc p (mem_emitted.mpr (hmade.subset (mem_emitted.mp hp)))
  obtain ⟨out', rfl, hrun⟩ := RunState.run_reached (@Sink.tracks_unlimited {} rfl) hpos rfl hcourse
  rw [hrun]
  exact ⟨_, RunState.stopsAfter_courseOf (course_never script []) rfl rfl .empty⟩

end Script

/-! ## Jobs -/

namespace DataJob.IsSet

variable {clock : UInt64} {st : DataSettings} {j : DataJob} {s : Simulation ChaCha}

/-- A job that is told to stop leaves the same behind with and without a buffer. -/
theorem generate_stopsAfter (h : j.IsSet clock st) (hs : j.simulation = .ok s)
    {whole : Course (Simulation ChaCha)}
    (hwhole : Simulation.source.course (fun _ => false) s.remaining s [] = whole)
    (stop : RunStats → Bool) :
    ∃ n ended, j.generate stop ({} : Sink) = .ok ended
      ∧ j.generateBuffered stop {} = .ok ended
      ∧ RunEnd.StopsAfter Simulation.source j.format j.share stop (j.preamble s) s whole.made
        ((j.share.deal (Script.emitted whole.made)).map j.format.recordOf) n ended := by
  have hpos : 0 < j.share.groups := Nat.zero_lt_of_lt h.share_lt
  obtain ⟨hfinished, hsource⟩ := h.course_finished hs
  rw [hwhole] at hfinished hsource
  have hdone : Simulation.source.remaining whole.source = 0 :=
    Nat.sub_eq_zero_of_le (of_decide_eq_true hsource)
  refine ⟨_, _, ?_, ?_, RunState.stopsAfter_courseOf hwhole hfinished hdone (j.preamble s)⟩
  · -- straight to the sink
    obtain ⟨out', rfl, hrun⟩ := RunState.run_reached
      (@Sink.tracks_unlimited { received := j.preamble s } rfl) hpos rfl (h.encodes_course hs stop)
    rw [generate_of_ok hs stop, hrun]
  · -- through the buffer, which hands everything on when it is flushed
    have hempty : Buffer.Keeps .empty { sink := {} } := ⟨rfl, ByteArray.append_empty⟩
    rw [generateBuffered_eq]
    rcases generate_tracks Buffer.tracks_unlimited hs stop hempty with
      ⟨out, hout, hgenerate⟩ | ⟨_, hlost, -⟩
    · obtain ⟨out', hout', hrun⟩ := RunState.run_reached Buffer.tracks_unlimited hpos hout
        (h.encodes_course hs stop)
      rw [hgenerate, hrun]
      exact congrArg Except.ok (RunEnd.flushed_of_keeps hout')
    · exact hlost.elim

end DataJob.IsSet

/-- A run that is told to stop makes the steps ahead of the first check that sees the flag, and
writes exactly the records that its group has among these steps: the first ones of those that it
would have written, each of them whole. It is interrupted exactly if steps were left by then; so a
flag that is raised during the last step, like any that is raised later, is not noticed at all.

This holds of every script whose points have records, where a flag that is raised during step `k`
leaves `k` steps, and of every accepted job behind its whole preamble, with and without a buffer. -/
theorem stop_cuts_between_records :
    (∀ (script : Script) (f : Format) (share : Share) (stop : RunStats → Bool),
      (∀ p ∈ Script.emitted script, ∃ record, f.encode p = .ok record) →
      share.group < share.groups →
      ∃ records n whole ended, run Script.source f share (fun _ => false) script ({} : Sink) = whole
        ∧ run Script.source f share stop script ({} : Sink) = ended
        ∧ (share.deal (Script.emitted script)).map f.encode = records.map .ok
        ∧ whole.output.received = joined records
        ∧ ended.StopsAfter Script.source f share stop .empty script script records n
        ∧ ended.source = script.drop n
        ∧ ∀ k, stop = RunStats.raisedIn k → n = min k script.length)
    ∧ ∀ (clock : UInt64) (st : DataSettings) (j : DataJob),
      DataJob.ofSettings clock st = .ok j →
      ∀ stop : RunStats → Bool,
      ((roomLimit < j.population.hosts ∨ 2 ^ 64 ≤ j.steps)
        ∧ ∃ e, j.generate stop ({} : Sink) = .error e ∧ j.generateBuffered stop {} = .error e)
      ∨ ∃ s made records n whole ended, j.simulation = .ok s
        ∧ j.generate (fun _ => false) ({} : Sink) = .ok whole
        ∧ j.generate stop ({} : Sink) = .ok ended
        ∧ j.generateBuffered stop {} = .ok ended
        ∧ Simulation.source.play made.length s = .ok (made, whole.source)
        ∧ whole.source.finished = true
        ∧ (j.share.deal (Script.emitted made)).map j.format.encode = records.map .ok
        ∧ whole.output.received = j.preamble s ++ joined records
        ∧ ended.StopsAfter Simulation.source j.format j.share stop (j.preamble s) s made records n
        ∧ ∀ k, stop = RunStats.raisedIn k → n = min k made.length := by
  refine ⟨?_, ?_⟩
  · intro script f share stop hencode hlt
    have hpos : 0 < share.groups := Nat.zero_lt_of_lt hlt
    have henc : ∀ p ∈ Script.emitted script, f.Encodes p := by
      intro p hp
      obtain ⟨record, hrecord⟩ := hencode p hp
      exact Format.encodes_of_ok hrecord
    obtain ⟨n, hstops⟩ := Script.run_stopsAfter henc hpos stop
    obtain ⟨_, hnever⟩ := Script.run_stopsAfter henc hpos (fun _ => false)
    refine ⟨_, n, _, _, rfl, rfl, Format.map_encode fun p hp => henc p (Share.mem_of_mem_deal hp),
      ?_, hstops, ?_, fun k => hstops.eq_of_raisedIn⟩
    · rw [hnever.received_whole, ByteArray.empty_append]
    · exact Script.source_of_play hstops.halts.le hstops.played
  · intro clock st j hj stop
    have hset := DataJob.ofSettings_eq_ok.mp hj
    rcases j.simulation_cases with ⟨-, s, hs⟩ | ⟨hout, e, he⟩
    · right
      generalize hwhole : Simulation.source.course (fun _ => false) s.remaining s [] = whole
      obtain ⟨n, ended, hgenerate, hbuffered, hstops⟩ :=
        hset.generate_stopsAfter hs hwhole stop
      obtain ⟨m, never, hnever, -, hall⟩ :=
        hset.generate_stopsAfter hs hwhole (fun _ => false)
      have hplay := hall.played
      rw [hall.eq_length, List.take_length] at hplay
      have hsamples := (hset.course hs (fun _ => false) s.remaining).1
      have hfinished := (hset.course_finished hs).2
      have hmade := Simulation.source.play_course_made (fun _ => false) s.remaining s
      rw [hwhole] at hsamples hfinished hmade
      have hsource : whole.source = never.source := by
        rw [hplay, Except.ok.injEq, Prod.mk.injEq] at hmade
        exact hmade.2.symm
      have henc : ∀ p ∈ j.share.deal (Script.emitted whole.made), j.format.Encodes p := by
        intro p hp
        have hp := Script.mem_emitted.mp (Share.mem_of_mem_deal hp)
        exact (hsamples _ hp).encodes j.format
      exact ⟨s, whole.made, _, n, never, ended, hs, hnever, hgenerate, hbuffered, hplay,
        hsource ▸ hfinished, Format.map_encode henc, hall.received_whole, hstops,
        fun k => hstops.eq_of_raisedIn⟩
    · left
      refine ⟨hout, e, DataJob.generate_of_error he stop _, ?_⟩
      rw [DataJob.generateBuffered_eq, DataJob.generate_of_error he stop _]
      rfl

/-- The first of two groups, told to stop during the second of three steps; and a job for which the
flag is up before it begins, which still writes its preamble. -/
theorem stop_cuts_between_records_three_steps :
    (∀ p ∈ Script.emitted threeSteps, ∃ record, Format.influx.encode p = .ok record)
      ∧ (⟨0, 2⟩ : Share).group < 2
      ∧ (run Script.source .influx ⟨0, 2⟩ (RunStats.raisedIn 2) threeSteps
          ({} : Sink)).source = threeSteps.drop 2
      ∧ DataJob.ofSettings 0 DataJob.twoHostSettings = .ok DataJob.twoHostJob
      ∧ ∃ s ended, DataJob.twoHostJob.simulation = .ok s
        ∧ DataJob.twoHostJob.generateBuffered (RunStats.raisedIn 0) {} = .ok ended
        ∧ ended.output.received = DataJob.twoHostJob.preamble s := by
  have hencode : ∀ p ∈ Script.emitted threeSteps, ∃ record, Format.influx.encode p = .ok record :=
    fun _ _ => ⟨_, rfl⟩
  refine ⟨hencode, by decide, ?_, DataJob.ofSettings_twoHosts, ?_⟩
  · obtain ⟨records, n, _, _, -, rfl, -, -, -, hsource, hn⟩ := stop_cuts_between_records.1
      threeSteps .influx ⟨0, 2⟩ (RunStats.raisedIn 2) hencode (by decide)
    rw [hsource, hn 2 rfl]
    rfl
  · rcases stop_cuts_between_records.2 0 _ _ DataJob.ofSettings_twoHosts (RunStats.raisedIn 0) with
      ⟨hout, -⟩ | ⟨s, made, records, n, _, ended, hs, -, -, hbuffered, -, -, -, -, hstops, hn⟩
    · exact absurd hout (by decide)
    · refine ⟨s, ended, hs, hbuffered, ?_⟩
      have hzero : n = 0 := by rw [hn 0 rfl, Nat.zero_min]
      subst hzero
      rw [hstops.received]
      exact ByteArray.append_empty

end SeriesLoad
