import SeriesLoad.Proofs.Encoding.Stamps
import SeriesLoad.Proofs.Run.Coverage

/-!
# The cadence of a series

A host is sampled once an epoch for each of its measurements, and its clock is moved by the interval
in between. **Of two records of one series the later has the later time, and the times of
successive ones are apart by the interval, in every format** (`records_follow_interval`).

The records of a series need not follow each other in the output, and a host that is not online has
none. `Simulation.InOrder` therefore tells the step of an entry from its place in the script. A host
that is online stays online, so between two records of a series that are more than an epoch apart
there is another one.

What is written of a time is its count of nanoseconds in 64 bits. Out of their range it is cut off,
and a clock that leaves a leap second does not count it; so there are jobs that write one time twice
(`records_share_time`).
-/

namespace SeriesLoad

/-! ## Counts of a clock -/

namespace Instant

/-- So many steps of a clock later the count is so many times the span higher, but for a leap second
that is left. -/
theorem unixNanos_later? {t u t' : Instant} {d : Span} (hd : 0 ≤ d.nanos) {m n : Nat}
    (hu : t.later? d m = some u) (ht' : t.later? d (m + n) = some t') (huw : u.InWord)
    (htw : t'.InWord) : t'.unixNanos = u.unixNanos + n * d.nanos - u.leapLeft t' := by
  rw [later?_add hu] at ht'
  rw [unixNanos_of_inWord huw, unixNanos_of_inWord htw]
  exact (exactNanos_later? hd ht').2

end Instant

/-! ## Entries in order -/

/-- A point to be written has its place in the script. -/
theorem Script.emitted_eq_append_cons {made : Script} {before rest : List Point} {p : Point}
    (h : emitted made = before ++ p :: rest) :
    ∃ front back, made = front ++ (p, true) :: back
      ∧ emitted front = before ∧ emitted back = rest := by
  obtain ⟨ahead, behind, hfilter, hbefore, hbehind⟩ := List.map_eq_append_iff.mp h
  obtain ⟨⟨q, isWritten⟩, left, rfl, rfl, hrest⟩ := List.map_eq_cons_iff.mp hbehind
  obtain ⟨front₁, back₁, rfl, hfront₁, hback₁⟩ := List.filter_eq_append_iff.mp hfilter
  obtain ⟨front₂, back, rfl, hnone, hwritten, hback⟩ := List.filter_eq_cons_iff.mp hback₁
  cases show isWritten = true from hwritten
  refine ⟨front₁ ++ front₂, back, by rw [List.append_assoc], ?_, ?_⟩
  · rw [emitted, List.filter_append, hfront₁, List.filter_eq_nil_iff.mpr hnone, List.append_nil,
      hbefore]
  · rw [emitted, hback, hrest]

/-- Two points to be written have places in the script with nothing to be written in between but
the points between them. -/
theorem Script.places_of_emitted {made : Script} {before between after : List Point} {p q : Point}
    (h : emitted made = before ++ p :: (between ++ q :: after)) :
    ∃ k l : Nat, k < l ∧ made[k]? = some (p, true) ∧ made[l]? = some (q, true)
      ∧ ∀ (i : Nat) r, k < i → i < l → made[i]? = some (r, true) → r ∈ between := by
  obtain ⟨front, back, rfl, -, hback⟩ := emitted_eq_append_cons h
  obtain ⟨middle, rest, rfl, rfl, -⟩ := emitted_eq_append_cons hback
  refine ⟨front.length, front.length + (middle.length + 1), by omega, ?_, ?_, ?_⟩
  · simp
  · simp
  · intro i r hki hil hget
    obtain ⟨j, rfl⟩ := Nat.exists_eq_add_of_lt hki
    rw [Nat.add_assoc, List.getElem?_append_right (Nat.le_add_right _ _), Nat.add_sub_cancel_left,
      List.getElem?_cons_succ, List.getElem?_append_left (by omega)] at hget
    exact mem_emitted.mpr (List.mem_of_getElem? hget)

namespace Simulation

/-! ## Epochs of a series -/

/-- The steps are of one host and measurement, each in its epoch. -/
def SamePlace (hosts passes k l : Nat) : Prop :=
  k % hosts = l % hosts ∧ k / hosts % passes = l / hosts % passes

theorem step_eq (k hosts passes : Nat) :
    (k / (hosts * passes) * passes + k / hosts % passes) * hosts + k % hosts = k := by
  rw [← Nat.div_div_eq_div_mul, Nat.div_add_mod', Nat.div_add_mod']

/-- In later epochs the step of a host and measurement comes later. -/
theorem strictMono_step {hosts passes : Nat} (hhosts : 0 < hosts) (hpasses : 0 < passes)
    (pass host : Nat) : StrictMono fun epoch => (epoch * passes + pass) * hosts + host := by
  intro epoch later h
  have hpass : epoch * passes + pass < later * passes + pass :=
    Nat.add_lt_add_right (Nat.mul_lt_mul_of_pos_right h hpasses) _
  exact Nat.add_lt_add_right (Nat.mul_lt_mul_of_pos_right hpass hhosts) _

theorem SamePlace.epoch_lt_iff {hosts passes k l : Nat} (h : SamePlace hosts passes k l)
    (hhosts : 0 < hosts) (hpasses : 0 < passes) :
    k / (hosts * passes) < l / (hosts * passes) ↔ k < l := by
  rw [← (strictMono_step hhosts hpasses (k / hosts % passes) (k % hosts)).lt_iff_lt]
  simp only [step_eq k hosts passes]
  rw [h.1, h.2, step_eq l hosts passes]

/-- In every epoch there is a step of the host and measurement of a step. -/
theorem exists_samePlace {hosts passes : Nat} (hhosts : 0 < hosts) (hpasses : 0 < passes)
    (k epoch : Nat) : ∃ i, SamePlace hosts passes k i ∧ i / (hosts * passes) = epoch := by
  obtain ⟨hmod, hdiv, hepoch⟩ :=
    step_place epoch (Nat.mod_lt (k / hosts) hpasses) (Nat.mod_lt k hhosts)
  exact ⟨_, ⟨hmod.symm, hdiv.symm⟩, hepoch⟩

end Simulation

/-- The points are of one host and of one measurement. -/
def Point.SameSeries (p q : Point) : Prop :=
  p.tag? "hostname" = q.tag? "hostname" ∧ p.name = q.name

namespace Population

variable {p : Population} {passes : Nat} {interval : Span}

theorem IsOnline.hosts_pos {k : Nat} (h : p.IsOnline passes interval k) : 0 < p.hosts := by
  rcases Nat.eq_zero_or_pos p.hosts with hzero | hpos
  · simp [IsOnline, onlineAt, hzero] at h
  · exact hpos

/-- A host that is online stays online. -/
theorem IsOnline.of_samePlace {k l : Nat} (h : p.IsOnline passes interval k)
    (hplace : Simulation.SamePlace p.hosts passes k l)
    (hle : k / (p.hosts * passes) ≤ l / (p.hosts * passes)) : p.IsOnline passes interval l := by
  rw [IsOnline, ← hplace.1]
  exact Nat.lt_of_lt_of_le h (onlineAt_mono hle)

/-- Entries have points of one series if their steps differ in nothing but the epoch. -/
theorem IsEntry.sameSeries_iff {k l : Nat} {a b : Point × Bool}
    (ha : p.IsEntry passes interval k a) (hb : p.IsEntry passes interval l b) :
    a.1.SameSeries b.1 ↔ Simulation.SamePlace p.hosts passes k l := by
  have hname : ∀ {k entry}, p.IsEntry passes interval k entry →
      (p.model.columns.map (·.1))[k / p.hosts % passes]? = some entry.1.name := by
    intro k entry h
    rw [List.getElem?_map, h.column]
    rfl
  rw [Point.SameSeries, ha.host, hb.host, Option.some_inj]
  constructor
  · rintro ⟨hhost, hmeasurement⟩
    refine ⟨HostTags.nameOf_injective hhost, ?_⟩
    obtain ⟨hlt, -⟩ := List.getElem?_eq_some_iff.mp (hname ha)
    refine (List.getElem?_inj hlt p.model.nodup_columns).mp ?_
    rw [hname ha, hname hb, hmeasurement]
  · rintro ⟨hhost, hpass⟩
    refine ⟨congrArg _ hhost, Option.some_inj.mp ?_⟩
    rw [← hname ha, ← hname hb, hpass]

/-- Of two points of a series in a script the later one is of a later epoch, and if there is none in
between it is of the next one. -/
theorem epoch_of_sameSeries (hpasses : 0 < passes) {made : Script}
    (hentries : ∀ k entry, made[k]? = some entry → p.IsTimedEntry passes interval k entry)
    {k l : Nat} {a b : Point} (hkl : k < l) (ha : made[k]? = some (a, true))
    (hb : made[l]? = some (b, true)) (hseries : a.SameSeries b) :
    k / (p.hosts * passes) < l / (p.hosts * passes)
      ∧ ((∀ i r, k < i → i < l → made[i]? = some (r, true) → ¬ a.SameSeries r) →
        l / (p.hosts * passes) = k / (p.hosts * passes) + 1) := by
  have hentry := (hentries k _ ha).toIsEntry
  have hplace := (hentry.sameSeries_iff (hentries l _ hb).toIsEntry).mp hseries
  have honline : p.IsOnline passes interval k := of_decide_eq_true hentry.flag.symm
  have hhosts := honline.hosts_pos
  have hlt := (hplace.epoch_lt_iff hhosts hpasses).mpr hkl
  refine ⟨hlt, ?_⟩
  intro hnone
  by_contra hne
  -- the host is online in the next epoch too, and its step there lies between the two
  obtain ⟨i, hki, hepoch⟩ :=
    Simulation.exists_samePlace hhosts hpasses k (k / (p.hosts * passes) + 1)
  have hil : Simulation.SamePlace p.hosts passes i l :=
    ⟨hki.1.symm.trans hplace.1, hki.2.symm.trans hplace.2⟩
  have hbehind : k < i := (hki.epoch_lt_iff hhosts hpasses).mp (by omega)
  have hahead : i < l := (hil.epoch_lt_iff hhosts hpasses).mp (by omega)
  obtain ⟨hlast, -⟩ := List.getElem?_eq_some_iff.mp hb
  obtain ⟨⟨r, isWritten⟩, hget⟩ : ∃ entry, made[i]? = some entry :=
    ⟨_, List.getElem?_eq_getElem (Nat.lt_trans hahead hlast)⟩
  have hbetween := (hentries i _ hget).toIsEntry
  have hwritten : isWritten = true :=
    hbetween.flag.trans (decide_eq_true (honline.of_samePlace hki (by omega)))
  rw [hwritten] at hget
  exact hnone i r hbehind hahead hget ((hentry.sameSeries_iff hbetween).mpr hki)

end Population

/-! ## Times of a series -/

/-- The points show times of one clock, the second of them so many steps of the clock later. -/
def Population.Shows (p : Population) (interval : Span) (a b : Point) (steps : Nat) : Prop :=
  ∃ epoch, p.start.later? interval epoch = some a.time
    ∧ p.start.later? interval (epoch + steps) = some b.time

namespace Simulation

variable {γ : Type} [Words γ] {p : Population} {passes : Nat} {interval : Span} {words : γ}
  {s : Simulation γ}

/-- Of two points of a series the later one shows a later time, and if there is none in between it
shows the next one. -/
theorem shows_of_points (h : p.Schedulable passes interval) (hs : s.Stands p passes interval words)
    (hg : s.Grown p interval) (hmade : s.made = 0) {before between after : List Point} {a b : Point}
    (hpoints : s.points = before ++ a :: (between ++ b :: after)) (hseries : a.SameSeries b) :
    ∃ steps, 0 < steps ∧ p.Shows interval a b steps
      ∧ ((∀ r ∈ between, ¬ a.SameSeries r) → steps = 1) := by
  obtain ⟨-, hentries⟩ := course_inOrder h hs hg hmade
  obtain ⟨k, l, hkl, ha, hb, hbetween⟩ := Script.places_of_emitted hpoints
  obtain ⟨hlt, hnext⟩ :=
    Population.epoch_of_sameSeries h.passes_pos hentries hkl ha hb hseries
  refine ⟨l / (p.hosts * passes) - k / (p.hosts * passes), Nat.sub_pos_of_lt hlt,
    ⟨k / (p.hosts * passes), (hentries k _ ha).time, ?_⟩, ?_⟩
  · rw [Nat.add_sub_cancel' (Nat.le_of_lt hlt)]
    exact (hentries l _ hb).time
  · intro hnone
    rw [hnext fun i r hki hil hget => hnone r (hbetween i r hki hil hget), Nat.add_sub_cancel_left]

end Simulation

namespace DataJob

/-- The interval of an accepted job is not empty. -/
theorem IsSet.interval_pos {clock : UInt64} {st : DataSettings} {j : DataJob}
    (h : j.IsSet clock st) : 0 < j.interval.nanos := by
  obtain ⟨millis, hpos, hnanos⟩ := Span.read?_eq_some (read?_of_interval h.interval)
  omega

/-- A record of an accepted job has the time of its point. -/
theorem IsSet.stamp?_recordOf {clock : UInt64} {st : DataSettings} {j : DataJob}
    (h : j.IsSet clock st) {s : Simulation ChaCha} (hs : j.simulation = .ok s) {q : Point}
    (hq : q ∈ s.points) : j.format.stamp? (j.format.recordOf q) = some q.nanos :=
  ((h.course hs _ _).1 _ (Script.mem_emitted.mp hq)).stamp?_recordOf
    (j.population.isPlain_hostTags (ChaCha.ofSeed j.seed)) j.format

/-- An accepted job of one group writes its records with times that follow the interval. Of two
records of one host and measurement, whose counts fit in 64 bits, the time of the later one is
higher by a number of intervals, and by one if there is no other record of the host and measurement
between them; a leap second that was left in between does not count, and only then can the times be
the same. This holds of the times that are read from the records, in each of the formats. A job
whose simulation cannot be set up has no output. -/
theorem records_follow_interval {clock : UInt64} {st : DataSettings} {j : DataJob}
    (h : ofSettings clock st = .ok j) (hgroups : st.groups = 1) :
    ((roomLimit < j.population.hosts ∨ 2 ^ 64 ≤ j.steps)
        ∧ ∃ e, j.generate (fun _ => false) ({} : Sink) = .error e)
      ∨ ∃ s ended, j.simulation = .ok s ∧ j.generate (fun _ => false) ({} : Sink) = .ok ended
        ∧ j.Wrote s.points ended
        ∧ ∀ before p between q after, s.points = before ++ p :: (between ++ q :: after) →
          p.SameSeries q → p.time.InWord → q.time.InWord →
          ∃ m n, j.format.stamp? (j.format.recordOf p) = some m
            ∧ j.format.stamp? (j.format.recordOf q) = some n
            ∧ (∃ steps : Nat, n = m + steps * j.interval.nanos - p.time.leapLeft q.time
              ∧ 0 < steps ∧ ((∀ r ∈ between, ¬ p.SameSeries r) → steps = 1))
            ∧ (p.time.leapLeft q.time = 0 → m < n) := by
  have hset := ofSettings_eq_ok.mp h
  rcases j.simulation_cases with ⟨-, s, hs⟩ | ⟨hout, e, he⟩
  · obtain ⟨ended, hended, hwrote⟩ := hset.generate_wrote hgroups hs
    refine .inr ⟨s, ended, hs, hended, hwrote, ?_⟩
    intro before p between q after hpoints hseries hpw hqw
    have hpos := hset.interval_pos
    have hp : p ∈ s.points := by simp [hpoints]
    have hq : q ∈ s.points := by simp [hpoints]
    obtain ⟨hstands, hmade, -⟩ := hset.stands hs
    obtain ⟨steps, hsteps, ⟨epoch, hfirst, hsecond⟩, hone⟩ :=
      Simulation.shows_of_points (hset.schedulable hs) hstands (hset.grown hs) hmade hpoints hseries
    have hcount : q.nanos = p.nanos + steps * j.interval.nanos - p.time.leapLeft q.time :=
      Instant.unixNanos_later? (Int.le_of_lt hpos) hfirst hsecond hpw hqw
    refine ⟨p.nanos, q.nanos, hset.stamp?_recordOf hs hp, hset.stamp?_recordOf hs hq,
      ⟨steps, hcount, hsteps, hone⟩, ?_⟩
    intro hnone
    rw [hcount, hnone, Int.sub_zero]
    exact Int.lt_add_of_pos_right _ (Int.mul_pos (Int.natCast_pos.mpr hsteps) hpos)
  · exact .inl ⟨hout, e, generate_of_error he _ _⟩

/-! ## Two records of one series -/

/-- Settings for the one measurement of one host between two times. -/
def pairSettings (start stop interval : String) : DataSettings where
  format := "influx"
  model := "cpu-single"
  start := start
  stop := stop
  seed := 7
  interval := interval

/-- The job of such settings. -/
def pairJob (start stop : Instant) (interval : Span) : DataJob where
  format := .influx
  population :=
    { model := .cpuSingle
      start := start
      stop := stop
      initial := 1
      hosts := 1 }
  seed := 7
  interval := interval
  share := ⟨0, 1⟩

/-- The host is online from the start. -/
theorem isOnline_pairJob (start stop : Instant) (interval : Span) (k : Nat) :
    (pairJob start stop interval).population.IsOnline 1 interval k := by
  have hfirst : (pairJob start stop interval).population.IsOnline 1 interval 0 := by
    show 0 % 1 < Population.onlineAt _ interval (0 / (1 * 1))
    rw [Population.onlineAt_zero]
    exact (by decide : 0 % 1 < min 1 1)
  have hplace : Simulation.SamePlace 1 1 0 k :=
    ⟨(Nat.mod_one k).symm, (Nat.mod_one (k / 1)).symm⟩
  exact hfirst.of_samePlace hplace (Nat.div_le_div_right (Nat.zero_le k))

/-- Over two epochs such a job writes two records. -/
theorem points_pairJob {clock : UInt64} {st : DataSettings} {start stop : Instant} {interval : Span}
    (h : ofSettings clock st = .ok (pairJob start stop interval))
    (hepochs : epochCount start stop interval = 2) {s : Simulation ChaCha}
    (hs : (pairJob start stop interval).simulation = .ok s) :
    ∃ p q, s.points = [p, q] ∧ p.SameSeries q ∧ p.time = start
      ∧ start.add? interval = some q.time := by
  have hset := ofSettings_eq_ok.mp h
  obtain ⟨hstands, hmade, -⟩ := hset.stands hs
  have hcourse := Simulation.course_inOrder (hset.schedulable hs) hstands (hset.grown hs) hmade
  rw [Simulation.points]
  generalize (Simulation.source.course (fun _ => false) s.remaining s []).made = made at hcourse ⊢
  have htwo : made.length = epochCount start stop interval * 1 * 1 := hcourse.1
  have hentries : ∀ k entry, made[k]? = some entry →
      (pairJob start stop interval).population.IsTimedEntry 1 interval k entry := hcourse.2
  rw [hepochs] at htwo
  obtain ⟨⟨p, pWritten⟩, ⟨q, qWritten⟩, rfl⟩ := List.length_eq_two.mp htwo
  have hp := hentries 0 _ rfl
  have hq := hentries 1 _ rfl
  cases show pWritten = true from hp.flag.trans (decide_eq_true (isOnline_pairJob ..))
  cases show qWritten = true from hq.flag.trans (decide_eq_true (isOnline_pairJob ..))
  have hplace : Simulation.SamePlace 1 1 0 1 := ⟨rfl, rfl⟩
  have hfirst : start.later? interval (0 / (1 * 1)) = some p.time := hp.time
  have hsecond : start.later? interval (1 / (1 * 1)) = some q.time := hq.time
  exact ⟨p, q, rfl, (hp.sameSeries_iff hq.toIsEntry).mpr hplace,
    (Option.some_inj.mp hfirst).symm, hsecond⟩

theorem records_follow_interval_two_records :
    let st := pairSettings "1969-12-31T23:59:50Z" "1970-01-01T00:00:10Z" "10s"
    let j := pairJob (.ofSecs (-10)) (.ofSecs 10) ⟨10000000000⟩
    ofSettings 0 st = .ok j ∧ st.groups = 1
      ∧ ∃ (s : Simulation ChaCha) (ended : _) (p q : Point),
        j.generate (fun _ => false) ({} : Sink) = .ok ended
        ∧ j.Wrote s.points ended ∧ s.points = [p, q] ∧ p.SameSeries q
        ∧ ∃ m n, j.format.stamp? (j.format.recordOf p) = some m
          ∧ j.format.stamp? (j.format.recordOf q) = some n ∧ n = m + 10000000000 ∧ m < n := by
  have hset : ofSettings 0 (pairSettings "1969-12-31T23:59:50Z" "1970-01-01T00:00:10Z" "10s") =
      .ok (pairJob (.ofSecs (-10)) (.ofSecs 10) ⟨10000000000⟩) := by rfl
  intro st j
  rcases records_follow_interval hset rfl with ⟨hout, -⟩ | ⟨s, ended, hs, hended, hwrote, hfollow⟩
  · rcases hout with hroom | hsteps
    · exact absurd hroom (by decide)
    · exact absurd hsteps (by decide)
  · obtain ⟨p, q, hpoints, hseries, hp, hadd⟩ := points_pairJob hset (by decide) hs
    have hq : q.time = .epoch := Option.some_inj.mp (hadd.symm.trans (by decide))
    have hnone : p.time.leapLeft q.time = 0 := by
      rw [hp, hq]
      decide
    have hpw : p.time.InWord := by
      rw [hp]
      decide
    have hqw : q.time.InWord := by
      rw [hq]
      decide
    obtain ⟨m, n, hm, hn, ⟨steps, hcount, -, hone⟩, hlt⟩ :=
      hfollow [] p [] q [] hpoints hseries hpw hqw
    refine ⟨hset, rfl, s, ended, p, q, hended, hwrote, hpoints, hseries, m, n, hm, hn, ?_,
      hlt hnone⟩
    rw [hcount, hone (List.forall_mem_nil _), hnone, Int.sub_zero]
    rfl

/-- A complete run with the settings writes two records, of one series and with the same time. -/
def SharesTime (st : DataSettings) : Prop :=
  st.groups = 1 ∧ ∃ j s ended p q n, ofSettings 0 st = .ok j ∧ j.simulation = .ok s
    ∧ j.generate (fun _ => false) ({} : Sink) = .ok ended ∧ j.Wrote s.points ended
    ∧ s.points = [p, q] ∧ p.SameSeries q
    ∧ j.format.stamp? (j.format.recordOf p) = some n
    ∧ j.format.stamp? (j.format.recordOf q) = some n

theorem sharesTime_of_unixNanos_eq {st : DataSettings} {start stop t : Instant} {interval : Span}
    (h : ofSettings 0 st = .ok (pairJob start stop interval)) (hgroups : st.groups = 1)
    (hepochs : epochCount start stop interval = 2) (ht : start.add? interval = some t)
    (hnanos : start.unixNanos = t.unixNanos) : SharesTime st := by
  have hset := ofSettings_eq_ok.mp h
  obtain ⟨s, hs⟩ : ∃ s, (pairJob start stop interval).simulation = .ok s := by
    rcases (pairJob start stop interval).simulation_cases with ⟨-, hs⟩ | ⟨hout, -⟩
    · exact hs
    · have hsteps : (pairJob start stop interval).steps = 2 := by
        show epochCount start stop interval * 1 * 1 = 2
        rw [hepochs]
      rcases hout with hroom | hsteps'
      · exact absurd hroom (Nat.not_lt.mpr (show 1 ≤ roomLimit by decide))
      · rw [hsteps] at hsteps'
        exact absurd hsteps' (by decide)
  obtain ⟨ended, hended, hwrote⟩ := hset.generate_wrote hgroups hs
  obtain ⟨p, q, hpoints, hseries, hp, hq⟩ := points_pairJob h hepochs hs
  have hstamp := fun {r} => hset.stamp?_recordOf hs (q := r)
  rw [hpoints] at hstamp
  have hsame : q.nanos = p.nanos := by
    rw [Point.nanos, Point.nanos, hp, ← Option.some_inj.mp (ht.symm.trans hq), hnanos]
  refine ⟨hgroups, _, s, ended, p, q, p.nanos, h, hs, hended, hwrote, hpoints, hseries, ?_, ?_⟩
  · exact hstamp List.mem_cons_self
  · rw [← hsame]
    exact hstamp (List.mem_cons_of_mem _ List.mem_cons_self)

/-- Far from 1970 the counts of two records of one series are cut off to the same number, and where
an interval of a second leads out of a leap second they are the same too. -/
theorem records_share_time :
    SharesTime (pairSettings "3000-01-01T00:00:00Z" "3000-01-01T00:00:20Z" "10s")
      ∧ SharesTime (pairSettings "2015-06-30T23:59:60.25Z" "2015-07-01T00:00:02.25Z" "1s") := by
  constructor
  · have hset : ofSettings 0 (pairSettings "3000-01-01T00:00:00Z" "3000-01-01T00:00:20Z" "10s") =
        .ok (pairJob (.ofSecs 32503680000) (.ofSecs 32503680020) ⟨10000000000⟩) := by rfl
    have hadd : Instant.add? (.ofSecs 32503680000) ⟨10000000000⟩ =
        some (.ofSecs 32503680010) := by decide
    exact sharesTime_of_unixNanos_eq hset rfl (by decide) hadd (by decide)
  · have hset : ofSettings 0
        (pairSettings "2015-06-30T23:59:60.25Z" "2015-07-01T00:00:02.25Z" "1s") =
          .ok (pairJob { secs := 1435708799, nanos := 1250000000 }
            { secs := 1435708802, nanos := 250000000 } ⟨1000000000⟩) := by rfl
    have hadd : Instant.add? { secs := 1435708799, nanos := 1250000000 } ⟨1000000000⟩ =
        some { secs := 1435708800, nanos := 250000000 } := by decide
    exact sharesTime_of_unixNanos_eq hset rfl (by decide) hadd (by decide)

end DataJob

end SeriesLoad
