import Mathlib.Tactic.SplitIfs
import SeriesLoad.Time.Instant
import SeriesLoad.Time.SpanText

/-!
# Adding spans to instants

Outside leap seconds an instant is its count of nanoseconds: `add?` is addition on the counts, and
has a result as long as the sum is in range (`add?_eq_some_iff`). So one span added over and over is
its multiple added once (`later?_eq_add?`).

A leap second breaks this. A clock that begins in one does not count it when it leaves it, and is
exact otherwise (`exactNanos_later?`); so a span that is not negative takes an instant no further
than its length (`exists_add?`). The span between two instants, `since`, is off by at most a second.
-/

namespace SeriesLoad

namespace Instant

/-- The nanoseconds of the first instant. -/
def minNanos : Int := -8334601228800 * nanosPerSecond

/-- The nanoseconds of the last instant that is not in a leap second. -/
def maxNanos : Int := 8210266876799 * nanosPerSecond + 999999999

/-- The start of a second. -/
def ofSecs (secs : Int) (hfirst : -8334601228800 ≤ secs := by decide)
    (hlast : secs ≤ 8210266876799 := by decide) : Instant :=
  ⟨secs, 0, hfirst, hlast, epoch.nanos_lt, fun h => absurd h (by decide)⟩

theorem nanos_lt_of_isLeap_eq_false {t : Instant} (h : t.isLeap = false) :
    t.nanos < nanosPerSecond := by
  simpa [isLeap] using h

theorem eq_of_exactNanos_eq {a b : Instant} (ha : a.isLeap = false) (hb : b.isLeap = false)
    (h : a.exactNanos = b.exactNanos) : a = b := by
  have := nanos_lt_of_isLeap_eq_false ha
  have := nanos_lt_of_isLeap_eq_false hb
  cases a; cases b
  simp only [exactNanos, nanosPerSecond, mk.injEq] at *
  omega

theorem not_le {a b : Instant} : ¬ b ≤ a ↔ a < b := by
  change ¬ (b.secs < a.secs ∨ b.secs = a.secs ∧ b.nanos ≤ a.nanos) ↔
    (a.secs < b.secs ∨ a.secs = b.secs ∧ a.nanos < b.nanos)
  omega

theorem ofParts?_eq_some {secs : Int} {nanos : Nat}
    (h : (-8334601228800 ≤ secs ∧ secs ≤ 8210266876799) ∧ nanos < 2 * nanosPerSecond
      ∧ (nanosPerSecond ≤ nanos → secs % 60 = 59)) :
    ofParts? secs nanos = some ⟨secs, nanos, h.1.1, h.1.2, h.2.1, h.2.2⟩ := by
  rw [ofParts?, dif_pos h]

theorem ofNanos?_of_mem {n : Int} (hmin : minNanos ≤ n) (hmax : n ≤ maxNanos) :
    ∃ t, ofNanos? n = some t ∧ t.exactNanos = n ∧ t.isLeap = false := by
  simp only [minNanos, maxNanos, nanosPerSecond] at hmin hmax
  have hparts : (-8334601228800 ≤ n / nanosPerSecond ∧ n / nanosPerSecond ≤ 8210266876799)
      ∧ (n % nanosPerSecond).toNat < 2 * nanosPerSecond
      ∧ (nanosPerSecond ≤ (n % nanosPerSecond).toNat → n / nanosPerSecond % 60 = 59) := by
    simp only [nanosPerSecond]; omega
  refine ⟨_, ofParts?_eq_some hparts, ?_, ?_⟩
  · simp only [exactNanos, nanosPerSecond]; omega
  · simp only [isLeap, nanosPerSecond, decide_eq_false_iff_not]; omega

theorem exactNanos_of_ofNanos? {n : Int} {t : Instant} (h : ofNanos? n = some t) :
    t.exactNanos = n ∧ t.isLeap = false := by
  unfold ofNanos? ofParts? at h
  split at h
  · cases h
    simp only [exactNanos, isLeap, nanosPerSecond, decide_eq_false_iff_not]
    omega
  · cases h

theorem minNanos_le_exactNanos (t : Instant) : minNanos ≤ t.exactNanos := by
  have := t.first_le_secs
  simp only [minNanos, exactNanos, nanosPerSecond]
  omega

theorem exactNanos_le_maxNanos {t : Instant} (h : t.isLeap = false) : t.exactNanos ≤ maxNanos := by
  have := t.secs_le_last
  have := nanos_lt_of_isLeap_eq_false h
  simp only [maxNanos, exactNanos, nanosPerSecond] at *
  omega

theorem add?_of_not_leap {t : Instant} (h : t.isLeap = false) (d : Span) :
    t.add? d = ofNanos? (t.exactNanos + d.nanos) := by
  simp [add?, h]

/-- Outside leap seconds a span is added exactly. -/
theorem add?_eq_some_iff {t t' : Instant} (h : t.isLeap = false) {d : Span} :
    t.add? d = some t' ↔ t'.isLeap = false ∧ t'.exactNanos = t.exactNanos + d.nanos := by
  rw [add?_of_not_leap h]
  constructor
  · exact fun h' => (exactNanos_of_ofNanos? h').symm
  · rintro ⟨hl, he⟩
    obtain ⟨u, hu, hue, hul⟩ := ofNanos?_of_mem (n := t.exactNanos + d.nanos)
      (he ▸ minNanos_le_exactNanos t') (he ▸ exactNanos_le_maxNanos hl)
    rw [hu, eq_of_exactNanos_eq hul hl (hue.trans he.symm)]

/-- A span that is not negative can be added up to the end of the range, from a leap second too. -/
theorem exists_add? {t : Instant} {d : Span} (hd : 0 ≤ d.nanos)
    (hmax : t.exactNanos + d.nanos ≤ maxNanos) :
    ∃ t', t.add? d = some t' ∧ t'.exactNanos ≤ t.exactNanos + d.nanos := by
  have hmin := minNanos_le_exactNanos t
  by_cases h : t.isLeap = false
  · obtain ⟨t', ht', he, -⟩ := ofNanos?_of_mem (n := t.exactNanos + d.nanos) (by omega) hmax
    exact ⟨t', by rw [add?_of_not_leap h, ht'], Int.le_of_eq he⟩
  · have hleap : t.isLeap = true := by simpa using h
    have hn : nanosPerSecond ≤ t.nanos := by simpa [isLeap] using hleap
    have hs := t.first_le_secs
    have hlt := t.nanos_lt
    simp only [add?, hleap, if_true, Int.tdiv_eq_ediv_of_nonneg hd, Int.tmod_eq_emod_of_nonneg hd]
    split_ifs with hout hback
    · obtain ⟨t', ht', he, -⟩ := ofNanos?_of_mem
        (n := t.exactNanos - nanosPerSecond + d.nanos)
        (by simp only [minNanos, exactNanos, nanosPerSecond] at *; omega)
        (by simp only [nanosPerSecond] at *; omega)
      exact ⟨t', ht', by simp only [nanosPerSecond] at he; omega⟩
    · simp only [nanosPerSecond] at hback
      omega
    · -- the span ends inside the leap second, so it is shorter than a second
      have hparts : (-8334601228800 ≤ t.secs ∧ t.secs ≤ 8210266876799)
          ∧ (t.nanos + d.nanos % nanosPerSecond).toNat < 2 * nanosPerSecond
          ∧ (nanosPerSecond ≤ (t.nanos + d.nanos % nanosPerSecond).toNat → t.secs % 60 = 59) := by
        refine ⟨⟨hs, t.secs_le_last⟩, ?_, fun _ => t.leap_secs hn⟩
        simp only [nanosPerSecond] at *
        omega
      refine ⟨_, ofParts?_eq_some hparts, ?_⟩
      simp only [exactNanos, nanosPerSecond] at *
      omega

theorem unixNanos_mem (t : Instant) : minWord ≤ t.unixNanos ∧ t.unixNanos ≤ maxWord := by
  unfold unixNanos minWord maxWord
  split_ifs with h
  · exact h
  · omega

/-! ## Repeated steps -/

/-- The instant so many spans later, each of them added on its own. -/
def later? (t : Instant) (d : Span) : Nat → Option Instant
  | 0 => some t
  | n + 1 => (later? t d n).bind (·.add? d)

theorem exists_later? {t : Instant} {d : Span} (hd : 0 ≤ d.nanos) {n : Nat}
    (hmax : t.exactNanos + n * d.nanos ≤ maxNanos) :
    ∃ t', t.later? d n = some t' ∧ t'.exactNanos ≤ t.exactNanos + n * d.nanos := by
  induction n with
  | zero => exact ⟨t, rfl, by simp⟩
  | succ n ih =>
    rw [Int.natCast_add, Int.cast_ofNat_Int, Int.add_mul, Int.one_mul, ← Int.add_assoc] at hmax ⊢
    obtain ⟨u, hu, hle⟩ := ih (by omega)
    obtain ⟨t', ht', hle'⟩ := exists_add? (t := u) hd (by omega)
    exact ⟨t', by rw [later?, hu, Option.bind_some, ht'], by omega⟩

theorem isSome_later?_of_le {t : Instant} {d : Span} {k n : Nat} (hle : k ≤ n)
    (h : (t.later? d n).isSome) : (t.later? d k).isSome := by
  induction n with
  | zero => rwa [Nat.le_zero.mp hle]
  | succ n ih =>
    rcases Nat.lt_or_ge n k with hlt | hge
    · rwa [Nat.le_antisymm hle hlt]
    · obtain ⟨t', ht'⟩ := Option.isSome_iff_exists.mp h
      obtain ⟨u, hu, -⟩ := Option.bind_eq_some_iff.mp ht'
      exact ih hge (by rw [hu]; rfl)

/-- Outside leap seconds many small steps are one large one. -/
theorem later?_eq_add? {t : Instant} (h : t.isLeap = false) {d : Span} {n : Nat} {t' : Instant}
    (ht' : t.later? d n = some t') : t.add? ⟨n * d.nanos⟩ = some t' := by
  induction n generalizing t' with
  | zero =>
    cases ht'
    exact (add?_eq_some_iff h).mpr ⟨h, by simp⟩
  | succ n ih =>
    obtain ⟨u, hu, hadd⟩ := Option.bind_eq_some_iff.mp ht'
    obtain ⟨hul, hue⟩ := (add?_eq_some_iff h).mp (ih hu)
    obtain ⟨hl, he⟩ := (add?_eq_some_iff hul).mp hadd
    refine (add?_eq_some_iff h).mpr ⟨hl, ?_⟩
    rw [he, hue, Int.natCast_add, Int.cast_ofNat_Int, Int.add_mul, Int.one_mul, Int.add_assoc]

/-- Steps are counted on from wherever they have got to. -/
theorem later?_add {t : Instant} {d : Span} {m : Nat} {u : Instant} (hu : t.later? d m = some u)
    (n : Nat) : t.later? d (m + n) = u.later? d n := by
  induction n with
  | zero => exact hu
  | succ n ih => rw [← Nat.add_assoc, later?, later?, ih]

/-- The nanoseconds of the leap second that is left on the way from one time to a later one. -/
def leapLeft (t t' : Instant) : Int :=
  if t.isLeap = true ∧ t'.isLeap = false then nanosPerSecond else 0

/-- A leap second is left in one of the parts of a way. -/
theorem leapLeft_add {t u t' : Instant} (hu : u.isLeap = true → t.isLeap = true)
    (ht' : t'.isLeap = true → u.isLeap = true) : t.leapLeft u + u.leapLeft t' = t.leapLeft t' := by
  unfold leapLeft
  cases ht : t.isLeap <;> cases hul : u.isLeap <;> cases htl : t'.isLeap <;> simp_all

/-- A step of a clock is exact but for a leap second that it leaves, and never leads into one. -/
theorem exactNanos_add? {t t' : Instant} {d : Span} (hd : 0 ≤ d.nanos) (ht' : t.add? d = some t') :
    (t'.isLeap = true → t.isLeap = true)
      ∧ t'.exactNanos = t.exactNanos + d.nanos - t.leapLeft t' := by
  cases h : t.isLeap with
  | false =>
    rw [add?_of_not_leap h] at ht'
    obtain ⟨hexact, hnot⟩ := exactNanos_of_ofNanos? ht'
    simp [leapLeft, h, hexact, hnot]
  | true =>
    refine ⟨fun _ => rfl, ?_⟩
    have hn : nanosPerSecond ≤ t.nanos := of_decide_eq_true h
    simp only [add?, h, if_true, Int.tdiv_eq_ediv_of_nonneg hd, Int.tmod_eq_emod_of_nonneg hd]
      at ht'
    split_ifs at ht' with hout hback
    · obtain ⟨hexact, hnot⟩ := exactNanos_of_ofNanos? ht'
      rw [leapLeft, if_pos ⟨h, hnot⟩, hexact]
      omega
    · simp only [nanosPerSecond] at hback
      omega
    · -- no whole second is added, and the rest stays in the leap second
      unfold ofParts? at ht'
      split_ifs at ht' with hparts
      cases ht'
      have hstays : nanosPerSecond ≤ (t.nanos + d.nanos % nanosPerSecond).toNat := by
        simp only [nanosPerSecond] at *
        omega
      rw [leapLeft, if_neg fun hleft => of_decide_eq_false hleft.2 hstays]
      simp only [exactNanos, nanosPerSecond] at *
      omega

/-- A step back is exact, also out of a leap second. -/
theorem exactNanos_add?_of_nonpos {t t' : Instant} {d : Span} (hd : d.nanos ≤ 0)
    (ht' : t.add? d = some t') : t'.exactNanos = t.exactNanos + d.nanos := by
  cases h : t.isLeap with
  | false =>
    rw [add?_of_not_leap h] at ht'
    exact (exactNanos_of_ofNanos? ht').1
  | true =>
    have hn : nanosPerSecond ≤ t.nanos := of_decide_eq_true h
    obtain ⟨back, hback⟩ : ∃ back, d.nanos = -back := ⟨-d.nanos, (Int.neg_neg _).symm⟩
    have hnonneg : 0 ≤ back := by omega
    simp only [add?, h, if_true, hback, Int.neg_tdiv, Int.neg_tmod,
      Int.tdiv_eq_ediv_of_nonneg hnonneg, Int.tmod_eq_emod_of_nonneg hnonneg] at ht'
    split_ifs at ht' with hout hwhole
    · simp only [nanosPerSecond] at hout
      omega
    · rw [(exactNanos_of_ofNanos? ht').1, hback]
    · -- less than a second is taken off, and the leap second has more than that behind it
      unfold ofParts? at ht'
      split_ifs at ht' with hparts
      cases ht'
      simp only [exactNanos, nanosPerSecond] at *
      omega

/-- Many steps of a clock are exact but for a leap second that they leave. -/
theorem exactNanos_later? {t t' : Instant} {d : Span} (hd : 0 ≤ d.nanos) {n : Nat}
    (ht' : t.later? d n = some t') :
    (t'.isLeap = true → t.isLeap = true)
      ∧ t'.exactNanos = t.exactNanos + n * d.nanos - t.leapLeft t' := by
  induction n generalizing t' with
  | zero =>
    cases ht'
    cases h : t.isLeap <;> simp [leapLeft, h]
  | succ n ih =>
    obtain ⟨u, hu, hadd⟩ := Option.bind_eq_some_iff.mp ht'
    obtain ⟨hul, hue⟩ := ih hu
    obtain ⟨hl, he⟩ := exactNanos_add? hd hadd
    refine ⟨fun h => hul (hl h), ?_⟩
    rw [he, hue, ← leapLeft_add hul hl, Int.natCast_add, Int.cast_ofNat_Int, Int.add_mul,
      Int.one_mul]
    omega

/-! ## Spans between instants -/

theorem since_nanos_le (a b : Instant) :
    (a.since b).nanos ≤ a.exactNanos - b.exactNanos + nanosPerSecond := by
  simp only [since, exactNanos, nanosPerSecond]
  split_ifs <;> omega

/-- Outside leap seconds it is exact. -/
theorem since_of_not_leap {a b : Instant} (ha : a.isLeap = false) (hb : b.isLeap = false) :
    a.since b = ⟨a.exactNanos - b.exactNanos⟩ := by
  have hnone : (if b.secondOfDay < a.secondOfDay then (if b.isLeap then 1 else 0)
      else if a.secondOfDay < b.secondOfDay then (if a.isLeap then -1 else 0)
      else 0 : Int) = 0 := by
    simp [ha, hb]
  simp only [since, hnone, exactNanos, nanosPerSecond, Span.mk.injEq]
  omega

end Instant

/-! ## Spans that were read -/

namespace Span

theorem units_pos : ∀ u ∈ units, 0 < u.2 := by decide

theorem splitUnit_snd_pos (cs : List Char) : 0 < (splitUnit cs).2 := by
  unfold splitUnit
  generalize hfind : units.findSome? _ = found?
  cases found? with
  | none => simp
  | some found =>
    obtain ⟨⟨unit, millis⟩, hmem, hfound⟩ := List.exists_of_findSome?_eq_some hfind
    obtain ⟨number, -, rfl⟩ := Option.map_eq_some_iff.mp hfound
    exact units_pos (unit, millis) hmem

/-- A span that was read is a positive number of milliseconds. -/
theorem read?_eq_some {s : String} {d : Span} (h : read? s = some d) :
    ∃ millis : Int, 0 < millis ∧ d.nanos = millis * 1000000 := by
  have hunit := splitUnit_snd_pos (Text.trim s.toList)
  unfold read? at h
  cases hsplit : splitUnit (Text.trim s.toList) with
  | mk number millis =>
    rw [hsplit] at h hunit
    cases hn : Text.Integer.read Text.Integer.signed number with
    | error e => simp [hn] at h
    | ok n =>
      simp only [hn] at h
      split_ifs at h with hpos
      unfold ofMillis? at h
      split_ifs at h with hrange
      cases h
      exact ⟨n * millis, Int.mul_pos hpos hunit, rfl⟩

theorem wholeMillis_of_read? {s : String} {d : Span} (h : read? s = some d) :
    0 < d.wholeMillis ∧ d.nanos = d.wholeMillis * 1000000 := by
  obtain ⟨millis, hpos, hnanos⟩ := read?_eq_some h
  have hwhole : d.wholeMillis = millis := by
    rw [wholeMillis, hnanos, Int.mul_tdiv_cancel _ (by decide)]
  rw [hwhole]
  exact ⟨hpos, hnanos⟩

end Span

end SeriesLoad
