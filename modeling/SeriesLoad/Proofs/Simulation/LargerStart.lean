import SeriesLoad.Proofs.Simulation.Growth
import SeriesLoad.Proofs.Simulation.Stream

/-!
# Populations with more hosts at the start

Of two populations that differ only in the hosts online at the start, the one with more of them
grows more slowly, and both numbers are rounded down in every epoch. **The larger one is never
overtaken** (`onlineAfter_mono`), so **whatever the smaller start emits, the larger start emits as
well, in the same order** (`larger_start_emits_more`).

The points do not depend on who is online: the two simulations have one stream
(`Simulation.stream`). `Simulation.Trails` is the invariant of the pair. It adds to the common
stream that each has as many hosts online as it should have in its epoch (`Simulation.Even`). The
clocks of the hosts have no part in it, so a fault of one simulation is a fault of the other. Both
take the same words, and a loop of drawing that is cut (`Draw.retry`) is cut in both.
-/

namespace SeriesLoad

/-! ## Scripts with more to be written -/

/-- The second script has the points of the first, and writes all that the first one writes. -/
def Script.Within (few many : Script) : Prop :=
  List.Forall₂ (fun x y => x.1 = y.1 ∧ (x.2 = true → y.2 = true)) few many

namespace Script

theorem Within.concat {few many : Script} (h : few.Within many) {p : Point} {w w' : Bool}
    (hw : w = true → w' = true) : Within (few ++ [(p, w)]) (many ++ [(p, w')]) :=
  List.rel_append h (.cons ⟨rfl, hw⟩ .nil)

theorem Within.sublist {few many : Script} (h : few.Within many) :
    (emitted few).Sublist (emitted many) := by
  induction h with
  | nil => exact .refl _
  | @cons x y few many hxy hrest ih =>
    obtain ⟨p, w⟩ := x
    obtain ⟨q, w'⟩ := y
    obtain ⟨rfl, hw⟩ := hxy
    cases w with
    | true =>
      cases hw rfl
      simpa [emitted] using ih
    | false =>
      cases w' with
      | true => simpa [emitted] using ih.cons p
      | false => simpa [emitted] using ih

end Script

namespace Simulation

/-! ## How many hosts are online -/

/-- The hosts online after some epochs of an even growth to all of them: `Population.onlineAt` as a
function of the numbers that it depends on. -/
def onlineAfter (hosts initial epochs epoch : Nat) : Nat :=
  initial + (hosts - initial) * epoch / (epochs - 1)

/-- A host that is online at the start is missing in the growth, but the growth of one host is at
most one. -/
theorem onlineAfter_mono {hosts few many epochs epoch : Nat} (hle : few ≤ many)
    (hmany : many ≤ hosts) (hepoch : epoch ≤ epochs - 1) :
    onlineAfter hosts few epochs epoch ≤ onlineAfter hosts many epochs epoch := by
  unfold onlineAfter
  by_cases hpos : 0 < epochs - 1
  · have hsplit : hosts - few = hosts - many + (many - few) := by omega
    have hgrowth : (hosts - few) * epoch ≤
        (hosts - many) * epoch + (many - few) * (epochs - 1) := by
      rw [hsplit, Nat.add_mul]
      exact Nat.add_le_add_left (Nat.mul_le_mul_left _ hepoch) _
    calc few + (hosts - few) * epoch / (epochs - 1)
        ≤ few + ((hosts - many) * epoch + (many - few) * (epochs - 1)) / (epochs - 1) :=
          Nat.add_le_add_left (Nat.div_le_div_right hgrowth) _
      _ = few + ((hosts - many) * epoch / (epochs - 1) + (many - few)) := by
          rw [Nat.add_mul_div_right _ _ hpos]
      _ = many + (hosts - many) * epoch / (epochs - 1) := by omega
  · have hzero : epochs - 1 = 0 := by omega
    rw [hzero, Nat.div_zero, Nat.div_zero]
    exact hle

variable {γ : Type}

/-- As many hosts are online as there should be in the epoch. -/
def Even (s : Simulation γ) : Prop :=
  s.online = onlineAfter s.hosts.size s.initial s.epochs s.epoch

/-- Behind a step the epoch is one of those that there are. -/
theorem Counted.epoch_lt_epochs {s : Simulation γ} (h : s.Counted) (hmade : s.made ≤ s.budget)
    (hhost : 0 < s.host) : s.epoch < s.epochs := by
  by_contra hge
  have hsteps : s.budget ≤ (s.epoch * s.passes + s.pass) * s.hosts.size :=
    calc s.budget
        = s.epochs * s.passes * s.hosts.size := by rw [h.budget_eq, Nat.mul_right_comm]
      _ ≤ s.epoch * s.passes * s.hosts.size :=
          Nat.mul_le_mul_right _ (Nat.mul_le_mul_right _ (Nat.le_of_not_lt hge))
      _ ≤ (s.epoch * s.passes + s.pass) * s.hosts.size :=
          Nat.mul_le_mul_right _ (Nat.le_add_right _ _)
  have := h.made_eq
  omega

variable [Words γ]

/-! ## One step -/

theorem settle_even {s s' : Simulation γ} (hs : s.Counted) (hmade : s.made < s.budget)
    (he : s.Even) (h : s.settle = .ok s') :
    s'.Even ∧ s'.initial = s.initial ∧ s'.epochs = s.epochs := by
  rcases settle_cases h with ⟨-, rfl⟩ | ⟨-, -, rfl⟩ |
    ⟨hhost, hpass, hosts, words, online, htick, honline, rfl⟩
  · exact ⟨he, rfl, rfl⟩
  · exact ⟨he, rfl, rfl⟩
  · refine ⟨?_, rfl, rfl⟩
    have hepoch := (hs.epoch_lt hmade hhost hpass).2
    have hsize : hosts.toArray.size = s.hosts.size := length_tickHosts htick
    show online = onlineAfter hosts.toArray.size s.initial s.epochs (s.epoch + 1)
    rw [hsize]
    exact onlineIn_eq_ok hs.initial_le (by omega) hepoch honline

/-- A step is to be written if it samples a host that is online. -/
theorem next_even {s s' : Simulation γ} (hs : s.Counted) (hmade : s.made < s.budget)
    (he : s.Even) {buffer q : Point} {isWritten : Bool}
    (h : s.next buffer = .ok (s', isWritten, q)) :
    s'.Even ∧ s'.initial = s.initial ∧ s'.epochs = s.epochs ∧ 0 < s'.host
      ∧ isWritten = decide (s'.host ≤ s'.online) := by
  obtain ⟨s₁, hsettle, h⟩ := Except.bind_eq_ok.mp h
  obtain ⟨-, -, -, hhost⟩ := settle_counted hs hmade hsettle
  obtain ⟨he₁, hinitial, hepochs⟩ := settle_even hs hmade he hsettle
  obtain ⟨host, hget⟩ : ∃ host, s₁.hosts[s₁.host]? = some host :=
    ⟨_, Array.getElem?_eq_getElem hhost⟩
  simp only [emit, hget, pure, Except.pure, Except.ok.injEq, Prod.mk.injEq] at h
  obtain ⟨rfl, rfl, -⟩ := h
  exact ⟨he₁, hinitial, hepochs, Nat.succ_pos _, rfl⟩

omit [Words γ] in
/-- Simulations with one stream are at the same place. -/
theorem place_of_stream_eq {s t : Simulation γ} (h : s.stream = t.stream) :
    s.hosts.size = t.hosts.size ∧ s.passes = t.passes ∧ s.host = t.host ∧ s.epoch = t.epoch
      ∧ s.made = t.made := by
  simp only [stream, mk.injEq] at h
  obtain ⟨hhosts, hpasses, -, -, -, -, -, hhost, -, hepoch, -, hmade⟩ := h
  exact ⟨congrArg Array.size hhosts, hpasses, hhost, hepoch, hmade⟩

/-- Two simulations that make the same points, the second with no fewer hosts online. -/
structure Trails (s t : Simulation γ) : Prop where
  stream_eq : s.stream = t.stream
  counted_left : s.Counted
  counted_right : t.Counted
  even_left : s.Even
  even_right : t.Even
  initial_le : s.initial ≤ t.initial
  epochs_eq : s.epochs = t.epochs

namespace Trails

variable {s t : Simulation γ}

omit [Words γ] in
theorem made_eq (h : s.Trails t) : s.made = t.made := (place_of_stream_eq h.stream_eq).2.2.2.2

omit [Words γ] in
theorem budget_eq (h : s.Trails t) : s.budget = t.budget := by
  obtain ⟨hsize, hpasses, -⟩ := place_of_stream_eq h.stream_eq
  rw [h.counted_left.budget_eq, h.counted_right.budget_eq, h.epochs_eq, hsize, hpasses]

omit [Words γ] in
theorem remaining_eq (h : s.Trails t) : t.remaining = s.remaining := by
  rw [remaining, remaining, h.budget_eq, h.made_eq]

omit [Words γ] in
theorem online_le (h : s.Trails t) (hepoch : s.epoch < s.epochs) : s.online ≤ t.online := by
  obtain ⟨hsize, -, -, hsame, -⟩ := place_of_stream_eq h.stream_eq
  have heven : t.online = onlineAfter t.hosts.size t.initial t.epochs t.epoch := h.even_right
  rw [heven, h.even_left, ← hsize, ← h.epochs_eq, ← hsame]
  refine onlineAfter_mono h.initial_le ?_ (by omega)
  rw [hsize]
  exact h.counted_right.initial_le

/-- What the first simulation emits in a step, the second emits as well. -/
theorem next (h : s.Trails t) (hmade : s.made < s.budget) (buffer : Point) :
    (∃ e, s.next buffer = .error e ∧ t.next buffer = .error e)
      ∨ ∃ s' t' w w' q, s.next buffer = .ok (s', w, q) ∧ t.next buffer = .ok (t', w', q)
        ∧ (w = true → w' = true) ∧ s'.Trails t' := by
  have hmade' : t.made < t.budget := by
    rw [← h.made_eq, ← h.budget_eq]
    exact hmade
  rcases next_of_stream_eq h.stream_eq h.counted_left h.counted_right hmade hmade' buffer with
    ⟨e, hs, ht⟩ | ⟨s', t', w, w', q, hs, ht, hstream⟩
  · exact .inl ⟨e, hs, ht⟩
  · right
    obtain ⟨hcounted, hnext, hbudget⟩ := next_counted h.counted_left hmade hs
    obtain ⟨hcounted', -, -⟩ := next_counted h.counted_right hmade' ht
    obtain ⟨heven, hinitial, hepochs, hhost, hw⟩ := next_even h.counted_left hmade h.even_left hs
    obtain ⟨heven', hinitial', hepochs', -, hw'⟩ :=
      next_even h.counted_right hmade' h.even_right ht
    have htrails : s'.Trails t' := by
      refine ⟨hstream, hcounted, hcounted', heven, heven', ?_, ?_⟩
      · rw [hinitial, hinitial']
        exact h.initial_le
      · rw [hepochs, hepochs']
        exact h.epochs_eq
    have honline := htrails.online_le (hcounted.epoch_lt_epochs (by omega) hhost)
    obtain ⟨-, -, hsame, -⟩ := place_of_stream_eq hstream
    refine ⟨s', t', w, w', q, hs, ht, ?_, htrails⟩
    rw [hw, hw', decide_eq_true_eq, decide_eq_true_eq, ← hsame]
    intro hle
    exact Nat.le_trans hle honline

/-! ## Many steps -/

/-- The two simulations come to the same end, behind scripts of which the second writes more. -/
theorem course (h : s.Trails t) {few many : Script} (hwithin : few.Within many) (steps : Nat) :
    (source.course (fun _ => false) steps s few).made.Within
        (source.course (fun _ => false) steps t many).made
      ∧ (source.course (fun _ => false) steps s few).ending =
        (source.course (fun _ => false) steps t many).ending := by
  induction steps generalizing s t few many with
  | zero => exact ⟨hwithin, rfl⟩
  | succ steps ih =>
    have hremaining : source.remaining t = source.remaining s := h.remaining_eq
    rw [Source.course, Source.course, hremaining]
    by_cases hdone : source.remaining s = 0
    · rw [if_pos hdone, if_pos hdone]
      exact ⟨hwithin, rfl⟩
    · rw [if_neg hdone, if_neg hdone, if_neg Bool.false_ne_true, if_neg Bool.false_ne_true]
      have hnext : ∀ u : Simulation γ, source.next u .empty = u.next .empty := fun _ => rfl
      rw [hnext, hnext]
      rcases h.next (remaining_ne_zero.mp hdone) .empty with
        ⟨e, hs, ht⟩ | ⟨s', t', w, w', q, hs, ht, hw, htrails⟩
      · rw [hs, ht]
        exact ⟨hwithin, rfl⟩
      · rw [hs, ht]
        exact ih htrails (hwithin.concat hw)

end Trails

/-! ## Populations -/

variable {p : Population} {passes : Nat} {interval : Span}

/-- Of two numbers of hosts at the start the smaller one trails the larger one. -/
theorem init_trails {few many : Nat} (hle : few ≤ many) (hpos : 0 < passes)
    (hroom : p.hosts ≤ roomLimit)
    (hsteps : epochCount p.start p.stop interval * p.hosts * passes < 2 ^ 64) (words : γ) :
    ∃ s t, init { p with initial := few } passes interval words = .ok s
      ∧ init { p with initial := many } passes interval words = .ok t ∧ s.Trails t
      ∧ s.remaining = epochCount p.start p.stop interval * p.hosts * passes := by
  obtain ⟨s, hs, hcounted, hmade, hbudget, hsize, hinitial, honline⟩ :=
    init_counted (p := { p with initial := few }) hpos hroom hsteps words
  obtain ⟨t, ht, hcounted', -, -, hsize', hinitial', honline'⟩ :=
    init_counted (p := { p with initial := many }) hpos hroom hsteps words
  have hparts := init_eq_ok (p := { p with initial := few }) hroom hsteps words
  have hparts' := init_eq_ok (p := { p with initial := many }) hroom hsteps words
  rw [hs, Except.ok.injEq] at hparts
  rw [ht, Except.ok.injEq] at hparts'
  have heven : ∀ u : Simulation γ, u.epoch = 0 → u.online = u.initial → u.Even := by
    intro u hepoch honline
    simp [Even, onlineAfter, hepoch, honline]
  refine ⟨s, t, hs, ht, ⟨?_, hcounted, hcounted', ?_, ?_, ?_, ?_⟩, ?_⟩
  · rw [hparts, hparts']
    rfl
  · exact heven s (by rw [hparts]) (honline.trans hinitial.symm)
  · exact heven t (by rw [hparts']) (honline'.trans hinitial'.symm)
  · rw [hinitial, hinitial']
    show min few p.hosts ≤ min many p.hosts
    omega
  · rw [hparts, hparts']
  · rw [remaining, hmade, hbudget, Nat.sub_zero]

/-- Alone on an unlimited sink, the run of a simulation takes its course if what it emits has
records. -/
theorem run_alone_eq {f : Format} {s : Simulation γ}
    (henc : ∀ q ∈ Script.emitted (source.course (fun _ => false) s.remaining s []).made,
      f.Encodes q) :
    run source f ⟨0, 1⟩ (fun _ => false) s ({} : Sink) =
      RunState.ofCourse f ⟨0, 1⟩ {} (source.course (fun _ => false) s.remaining s []) :=
  RunState.run_eq_ofCourse (fun _ => false) rfl Nat.one_pos s henc

/-- It then writes all those records, unless a step has a fault. -/
theorem run_alone {f : Format} {s : Simulation γ}
    (henc : ∀ q ∈ Script.emitted (source.course (fun _ => false) s.remaining s []).made,
      f.Encodes q)
    (hfinished : (source.course (fun _ => false) s.remaining s []).ending = .finished) :
    (run source f ⟨0, 1⟩ (fun _ => false) s ({} : Sink)).output.received =
        joined ((Script.emitted (source.course (fun _ => false) s.remaining s []).made).map
          f.recordOf)
      ∧ (run source f ⟨0, 1⟩ (fun _ => false) s ({} : Sink)).result =
        .ok (.ofScript f ⟨0, 1⟩ (source.course (fun _ => false) s.remaining s []).made) := by
  rw [run_alone_eq henc]
  refine ⟨?_, RunState.ofCourse_finished _ hfinished⟩
  show ByteArray.empty ++ _ = _
  rw [Share.deal_whole, ByteArray.empty_append]

/-- A run that ends well has found a record for every point, and has come to the end of its
simulation. -/
theorem finished_of_run_alone {f : Format} {s : Simulation γ} {stats : RunStats}
    (h : (run source f ⟨0, 1⟩ (fun _ => false) s ({} : Sink)).result = .ok stats) :
    (∀ q ∈ Script.emitted (source.course (fun _ => false) s.remaining s []).made, f.Encodes q)
      ∧ (source.course (fun _ => false) s.remaining s []).ending = .finished := by
  have hcap : ({} : Sink).capacity = none := rfl
  have henc : ∀ q ∈ Script.emitted (source.course (fun _ => false) s.remaining s []).made,
      f.Encodes q :=
    RunState.encodes_of_loop_ok hcap s.remaining s [] (by simp [Script.emitted])
      (by rw [RunState.after_nil]; exact h)
  rw [run_alone_eq henc] at h
  exact ⟨henc, RunState.finished_of_ofCourse_ok
    (Source.course_not_stopped (fun _ => rfl) s.remaining s []) h⟩

/-- Two populations that differ only in the hosts online at the start. Either neither fits in
memory, or their simulations have equally many steps, and after any number of them they are still
running, finished or at the same fault, and have made the same points. What the smaller start
emitted of these, the larger one emitted too, so that the points of the one are found among those of
the other in the same order. If a run alone writes all that the larger start emits, then one writes
all that the smaller start emits, and its records are found among the others. -/
theorem larger_start_emits_more (p : Population) {few many : Nat} (hle : few ≤ many)
    {passes : Nat} (hpos : 0 < passes) (interval : Span)
    (hsteps : epochCount p.start p.stop interval * p.hosts * passes < 2 ^ 64) (words : γ) :
    (roomLimit < p.hosts
      ∧ ∀ initial, init { p with initial } passes interval words = .error .noRoom)
    ∨ ∃ s t, init { p with initial := few } passes interval words = .ok s
      ∧ init { p with initial := many } passes interval words = .ok t
      ∧ s.remaining = epochCount p.start p.stop interval * p.hosts * passes
      ∧ t.remaining = s.remaining
      ∧ (∀ n, (source.course (fun _ => false) n s []).ending =
            (source.course (fun _ => false) n t []).ending
          ∧ (source.course (fun _ => false) n s []).made.Within
            (source.course (fun _ => false) n t []).made
          ∧ (Script.emitted (source.course (fun _ => false) n s []).made).Sublist
            (Script.emitted (source.course (fun _ => false) n t []).made))
      ∧ ∀ (f : Format) (stats' : RunStats),
        (run source f ⟨0, 1⟩ (fun _ => false) t ({} : Sink)).result = .ok stats' →
        ∃ stats records records',
          (run source f ⟨0, 1⟩ (fun _ => false) s ({} : Sink)).result = .ok stats
          ∧ (run source f ⟨0, 1⟩ (fun _ => false) s ({} : Sink)).output.received = joined records
          ∧ (run source f ⟨0, 1⟩ (fun _ => false) t ({} : Sink)).output.received = joined records'
          ∧ stats.records = records.length ∧ stats'.records = records'.length
          ∧ records.Sublist records' := by
  by_cases hroom : p.hosts ≤ roomLimit
  · right
    obtain ⟨s, t, hs, ht, htrails, hremaining⟩ := init_trails hle hpos hroom hsteps words
    have hnone : Script.Within [] [] := .nil
    have hcourse := htrails.course hnone
    refine ⟨s, t, hs, ht, hremaining, htrails.remaining_eq,
      fun n => ⟨(hcourse n).2, (hcourse n).1, (hcourse n).1.sublist⟩, fun f stats' hok => ?_⟩
    obtain ⟨hwithin, hending⟩ := hcourse s.remaining
    obtain ⟨henc', hfinished'⟩ := finished_of_run_alone hok
    obtain ⟨hwritten', hresult'⟩ := run_alone henc' hfinished'
    rw [htrails.remaining_eq] at henc' hfinished' hwritten' hresult'
    obtain ⟨hwritten, hresult⟩ := run_alone
      (fun q hq => henc' q (hwithin.sublist.subset hq)) (hending.trans hfinished')
    rw [hok, Except.ok.injEq] at hresult'
    refine ⟨_, _, _, hresult, hwritten, hwritten', ?_, ?_, hwithin.sublist.map f.recordOf⟩
    · rw [List.length_map]
      rfl
    · rw [hresult', List.length_map]
      rfl
  · left
    refine ⟨Nat.lt_of_not_le hroom, fun initial => ?_⟩
    simp only [init, requireRoom, if_neg hroom, bind, Except.bind]

/-- Two hosts, one of them or both online at the start; a start with five is one with both. -/
theorem larger_start_emits_more_two_hosts :
    1 ≤ 5 ∧ 0 < 9
      ∧ epochCount twoHosts.start twoHosts.stop ⟨500000000⟩ * twoHosts.hosts * 9 < 2 ^ 64
      ∧ ∃ s t, init { twoHosts with initial := 1 } 9 ⟨500000000⟩ (ChaCha.ofSeed 7) = .ok s
        ∧ init { twoHosts with initial := 5 } 9 ⟨500000000⟩ (ChaCha.ofSeed 7) = .ok t
        ∧ s.remaining = 36
        ∧ (Script.emitted (source.course (fun _ => false) 36 s []).made).Sublist
          (Script.emitted (source.course (fun _ => false) 36 t []).made) := by
  refine ⟨by decide, by decide, by decide, ?_⟩
  rcases larger_start_emits_more twoHosts (by decide : 1 ≤ 5) (by decide : 0 < 9) ⟨500000000⟩
    (by decide) (ChaCha.ofSeed 7) with ⟨hroom, -⟩ | ⟨s, t, hs, ht, hsteps, -, hcourse, -⟩
  · exact absurd hroom (by decide)
  · exact ⟨s, t, hs, ht, hsteps.trans (by decide), (hcourse 36).2.2⟩

end Simulation

end SeriesLoad
