import SeriesLoad.Proofs.Random.Draws
import SeriesLoad.Proofs.Time.Rfc3339
import SeriesLoad.Query.Basic

/-!
# Windows

The bounds of a window are written in two ways: as text and as counts of nanoseconds in 64 bits.
Both are exact as long as the counts fit (`Fits.parse_render`, `Fits.unixNanos_eq`).

What becomes of a window follows from these counts alone (`randomWindow_of_last`). `Interval.Fits`
says that they are exact, and not too far apart. **A window that is drawn from such an interval fits
as well, is as long as was asked for and lies inside** (`randomWindow_cases`); if the window is too
large for the interval, an error says so and no word is taken. There is no fault.

An interval may also begin or end in a leap second, and the length may be negative. Then a window
that was drawn still starts at a count of 64 bits and stops behind none of them
(`bounds_of_randomWindow`).
-/

namespace SeriesLoad

/-! ## Instants that fit 64 bits -/

namespace Instant

/-- Outside leap seconds and with a count of nanoseconds that is a signed 64-bit number. -/
structure Fits (t : Instant) : Prop where
  not_leap : t.isLeap = false
  min_le : minWord ≤ t.exactNanos
  le_max : t.exactNanos ≤ maxWord

theorem Fits.unixNanos_eq {t : Instant} (h : t.Fits) : t.unixNanos = t.exactNanos :=
  if_pos ⟨h.min_le, h.le_max⟩

/-- The nanoseconds since the start of 1970 are a number of 64 bits. -/
def InWord (t : Instant) : Prop := minWord ≤ t.exactNanos ∧ t.exactNanos ≤ maxWord

instance (t : Instant) : Decidable t.InWord :=
  inferInstanceAs (Decidable (minWord ≤ t.exactNanos ∧ t.exactNanos ≤ maxWord))

theorem unixNanos_of_inWord {t : Instant} (h : t.InWord) : t.unixNanos = t.exactNanos := if_pos h

/-- An instant before all those that fit is counted as the first of them. -/
theorem unixNanos_eq_minWord {t : Instant} (h : t.exactNanos < minWord) :
    t.unixNanos = minWord := by
  rw [unixNanos, if_neg (by omega)]
  simp only [exactNanos, nanosPerSecond, minWord, maxWord] at *
  omega

/-- An instant before all counts of 64 bits has the first of them, so no count is before either. -/
theorem lt_unixNanos_iff {t : Instant} (h : t.exactNanos ≤ maxWord) {n : Int} (hn : minWord ≤ n) :
    n < t.unixNanos ↔ n < t.exactNanos := by
  rcases Int.lt_or_le t.exactNanos minWord with hlt | hle
  · rw [unixNanos_eq_minWord hlt]
    omega
  · rw [unixNanos_of_inWord ⟨hle, h⟩]

theorem exists_fits {n : Int} (hmin : minWord ≤ n) (hmax : n ≤ maxWord) :
    ∃ t : Instant, ofNanos? n = some t ∧ t.exactNanos = n ∧ t.Fits := by
  have hminNanos : minNanos ≤ minWord := by decide
  have hmaxNanos : maxWord ≤ maxNanos := by decide
  obtain ⟨t, ht, hexact, hleap⟩ := ofNanos?_of_mem (Int.le_trans hminNanos hmin)
    (Int.le_trans hmax hmaxNanos)
  exact ⟨t, ht, hexact, hleap, by rwa [hexact], by rwa [hexact]⟩

theorem Fits.exists_add? {t : Instant} (h : t.Fits) {d : Span}
    (hmin : minWord ≤ t.exactNanos + d.nanos) (hmax : t.exactNanos + d.nanos ≤ maxWord) :
    ∃ t' : Instant, t.add? d = some t' ∧ t'.exactNanos = t.exactNanos + d.nanos ∧ t'.Fits := by
  rw [add?_of_not_leap h.not_leap]
  exact exists_fits hmin hmax

/-- Its year is one of 1677 to 2262. -/
theorem Fits.parse_render {t : Instant} (h : t.Fits) :
    Rfc3339.parse (Rfc3339.render t) = .ok t := by
  have hnanos := nanos_lt_of_isLeap_eq_false h.not_leap
  have hmin := h.min_le
  have hmax := h.le_max
  simp only [exactNanos, minWord, maxWord, nanosPerSecond] at hmin hmax hnanos
  have hday : -719468 ≤ t.epochDay ∧ t.epochDay ≤ 2000000 := by
    unfold epochDay
    omega
  obtain ⟨hfirst, hlast⟩ := Date.year_ofEpochDay hday.1 hday.2
  exact Rfc3339.parse_render h.not_leap hfirst hlast

end Instant

/-! ## Intervals that fit -/

namespace Interval

/-- Both bounds fit 64 bits, and so does their distance. -/
structure Fits (i : Interval) : Prop where
  start : i.start.Fits
  stop : i.stop.Fits
  apart : i.stop.exactNanos - i.start.exactNanos ≤ Instant.maxWord

variable {γ : Type} [Words γ]

/-- What becomes of a window, by the counts of the first start and of the last one that leaves room
for it. -/
theorem randomWindow_of_last {i : Interval} {length : Span} {last : Instant}
    (hlast : i.stop.add? ⟨-length.nanos⟩ = some last) (words : γ) :
    if last.unixNanos ≤ i.start.unixNanos then
      i.randomWindow length words =
        .ok (.error (.windowTooLarge length.wholeSeconds i.length.wholeSeconds), words)
    else if Instant.maxWord < last.unixNanos - i.start.unixNanos then
      i.randomWindow length words = .error .emptyRange
    else ∃ (offset : Nat) (start : Instant) (words' : γ),
      i.start.unixNanos + offset < last.unixNanos
        ∧ Instant.ofNanos? (i.start.unixNanos + offset) = some start ∧ start.Fits
        ∧ i.randomWindow length words =
          match start.add? length with
          | none => .error .instantRange
          | some stop => .ok (.ok ⟨start, stop⟩, words') := by
  obtain ⟨hlower, -⟩ := i.start.unixNanos_mem
  obtain ⟨-, hupper⟩ := last.unixNanos_mem
  simp only [randomWindow, hlast]
  by_cases hle : last.unixNanos ≤ i.start.unixNanos
  · rw [if_pos hle, if_pos hle]
  rw [if_neg hle, if_neg hle]
  by_cases hfar : Instant.maxWord < last.unixNanos - i.start.unixNanos
  · rw [if_pos hfar, if_pos hfar]
  rw [if_neg hfar, if_neg hfar]
  have hoffset := Draw.below_lt (n := (last.unixNanos - i.start.unixNanos).toNat) .long
    (by omega) words
  generalize (Draw.below .long (last.unixNanos - i.start.unixNanos).toNat).run words = drawn
    at hoffset ⊢
  obtain ⟨offset, words'⟩ := drawn
  simp only at hoffset ⊢
  obtain ⟨start, hstart, -, hfits⟩ :=
    Instant.exists_fits (n := i.start.unixNanos + offset) (by omega) (by omega)
  refine ⟨offset, start, words', by omega, hstart, hfits, ?_⟩
  cases hstop : start.add? length <;> simp only [hstart, hstop]

/-- Either the window is as long as the interval or longer, and then it is too large, or one is drawn
that fits, is inside and has its length. -/
theorem randomWindow_cases {i : Interval} (h : i.Fits) {length : Span} (hpos : 0 ≤ length.nanos)
    {last : Instant} (hlast : i.stop.add? ⟨-length.nanos⟩ = some last) (words : γ) :
    (i.stop.exactNanos - i.start.exactNanos ≤ length.nanos
        ∧ i.randomWindow length words =
          .ok (.error (.windowTooLarge length.wholeSeconds i.length.wholeSeconds), words))
      ∨ length.nanos < i.stop.exactNanos - i.start.exactNanos
        ∧ ∃ window words', i.randomWindow length words = .ok (.ok window, words')
        ∧ window.Fits ∧ i.start.exactNanos ≤ window.start.exactNanos
        ∧ window.stop.exactNanos = window.start.exactNanos + length.nanos
        ∧ window.stop.exactNanos < i.stop.exactNanos := by
  obtain ⟨hleap, hexact⟩ := (Instant.add?_eq_some_iff h.stop.not_leap).mp hlast
  rw [← Int.sub_eq_add_neg] at hexact
  have hlower := h.start.unixNanos_eq
  have hfirst := h.start.min_le
  have hstop := h.stop.le_max
  have hapart := h.apart
  have hcapped : last.unixNanos = max Instant.minWord last.exactNanos := by
    by_cases hlt : last.exactNanos < Instant.minWord
    · rw [Instant.unixNanos_eq_minWord hlt, Int.max_eq_left (Int.le_of_lt hlt)]
    · have hmin : Instant.minWord ≤ last.exactNanos := Int.not_lt.mp hlt
      have hfits : last.Fits := ⟨hleap, hmin, by omega⟩
      rw [hfits.unixNanos_eq, Int.max_eq_right hmin]
  have hwindow := randomWindow_of_last hlast words
  split_ifs at hwindow with hle hfar
  · exact .inl ⟨by omega, hwindow⟩
  · omega
  · obtain ⟨offset, start, words', hoffset, hstart, hfits, hdrawn⟩ := hwindow
    obtain ⟨hstartExact, -⟩ := Instant.exactNanos_of_ofNanos? hstart
    obtain ⟨stop, hadd, hstopExact, hstopFits⟩ :=
      hfits.exists_add? (d := length) (by omega) (by omega)
    simp only [hadd] at hdrawn
    exact .inr ⟨by omega, _, _, hdrawn, ⟨hfits, hstopFits, by simp only; omega⟩,
      by simp only; omega, hstopExact, by simp only; omega⟩

/-! ## Windows that were drawn -/

/-- A window starts somewhere in the interval, before the last start that leaves room for it. -/
theorem randomWindow_eq_ok {i window : Interval} {length : Span} {words words' : γ}
    (h : i.randomWindow length words = .ok (.ok window, words')) :
    ∃ (last : Instant) (offset : Nat), i.stop.add? ⟨-length.nanos⟩ = some last
      ∧ i.start.unixNanos + offset < last.unixNanos
      ∧ Instant.ofNanos? (i.start.unixNanos + offset) = some window.start
      ∧ window.start.add? length = some window.stop := by
  cases hlast : i.stop.add? ⟨-length.nanos⟩ with
  | none => simp [randomWindow, hlast] at h
  | some last =>
    have hwindow := randomWindow_of_last hlast words
    split_ifs at hwindow
    · simp [hwindow] at h
    · simp [hwindow] at h
    · obtain ⟨offset, start, words₁, hoffset, hstart, -, hdrawn⟩ := hwindow
      rw [hdrawn] at h
      cases hstop : start.add? length with
      | none => simp [hstop] at h
      | some stop =>
        simp only [hstop] at h
        cases h
        exact ⟨last, offset, rfl, hoffset, hstart, hstop⟩

/-- The window is not in a leap second, and has the length that was asked for. -/
theorem length_of_randomWindow {i window : Interval} {length : Span} {words words' : γ}
    (h : i.randomWindow length words = .ok (.ok window, words')) : window.length = length := by
  obtain ⟨last, offset, -, -, hstart, hstop⟩ := randomWindow_eq_ok h
  obtain ⟨-, hstartLeap⟩ := Instant.exactNanos_of_ofNanos? hstart
  obtain ⟨hstopLeap, hexact⟩ := (Instant.add?_eq_some_iff hstartLeap).mp hstop
  rw [Interval.length, Instant.since_of_not_leap hstopLeap hstartLeap, hexact,
    add_sub_cancel_left]

/-- Of an interval whose bounds have counts of 64 bits a window starts at such a count and does not
stop behind them, whatever its length. -/
theorem bounds_of_randomWindow {i window : Interval} {length : Span} {words words' : γ}
    (hstart : i.start.InWord) (hstop : i.stop.InWord)
    (h : i.randomWindow length words = .ok (.ok window, words')) :
    window.start.InWord ∧ window.stop.exactNanos ≤ Instant.maxWord := by
  obtain ⟨last, offset, hlast, hoffset, hfirst, hadd⟩ := randomWindow_eq_ok h
  obtain ⟨hexact, hleap⟩ := Instant.exactNanos_of_ofNanos? hfirst
  obtain ⟨-, hlength⟩ := (Instant.add?_eq_some_iff hleap).mp hadd
  rw [Instant.unixNanos_of_inWord hstart] at hexact hoffset
  obtain ⟨hfirstMin, -⟩ := hstart
  have hlastMax := last.unixNanos_mem.2
  refine ⟨⟨by omega, by omega⟩, ?_⟩
  rcases Int.lt_or_le 0 length.nanos with hpos | hnonpos
  · have hback : last.exactNanos = i.stop.exactNanos + -length.nanos :=
      Instant.exactNanos_add?_of_nonpos (Int.neg_nonpos_of_nonneg (Int.le_of_lt hpos)) hlast
    have hstopMax := hstop.2
    -- a last start before all counts would leave no room for the window
    have hlastMin : Instant.minWord ≤ last.exactNanos := by
      by_contra hlt
      rw [Instant.unixNanos_eq_minWord (Int.not_le.mp hlt)] at hoffset
      omega
    have hlastWord : last.InWord := ⟨hlastMin, by omega⟩
    rw [Instant.unixNanos_of_inWord hlastWord] at hoffset
    omega
  · omega

end Interval

end SeriesLoad
