import SeriesLoad.Proofs.Query.Nesting

/-!
# Windows of intervals that do not fit

The bounds of a window are compared as counts of 64 bits, and its place is drawn between them. For
years from 0 to 9999 that are read from texts the counts are cut off before 1677 and after 2262, and
two counts may be further apart than a signed word reaches.

**The counts alone decide what becomes of a window** (`window_by_counts`): it is too large if the
count of the last start is not above that of the first, there is a fault if they are too far apart,
and a window is drawn otherwise. So a window is not always drawn from a longer interval, nor is it
always refused by a shorter one: `Interval.Decides` says when, and `windows_undecided` shows the
three ways in which it fails. As long as both counts are exact the distance is the only way.
-/

namespace SeriesLoad

namespace Instant

variable {t : Instant}

/-- Behind the first count, what is cut off is cut off from above. -/
theorem unixNanos_le_exactNanos (h : minWord ≤ t.exactNanos) : t.unixNanos ≤ t.exactNanos := by
  by_cases hword : t.InWord
  · rw [unixNanos_of_inWord hword]
  · have hmax : maxWord < t.exactNanos := by
      by_contra hle
      exact hword ⟨h, Int.not_lt.mp hle⟩
    have hmem := t.unixNanos_mem
    omega

theorem exactNanos_le_unixNanos (h : t.exactNanos ≤ maxWord) : t.exactNanos ≤ t.unixNanos := by
  by_cases hword : t.InWord
  · rw [unixNanos_of_inWord hword]
  · have hmin : t.exactNanos < minWord := by
      by_contra hge
      exact hword ⟨Int.not_lt.mp hge, h⟩
    have hmem := t.unixNanos_mem
    omega

end Instant

namespace Interval

/-- An interval between two instants that were read, neither of them in a leap second. -/
structure IsRead (i : Interval) : Prop where
  start : ∃ text, Rfc3339.parse text = .ok i.start
  stop : ∃ text, Rfc3339.parse text = .ok i.stop
  start_not_leap : i.start.isLeap = false
  stop_not_leap : i.stop.isLeap = false
  accepted : between i.start i.stop = .ok i

variable {γ : Type} [Words γ]

/-- A window is drawn if it is shorter than the interval, and is too large if it is not. -/
def Decides (i : Interval) (length : Span) (words : γ) : Prop :=
  if length.nanos < i.length.nanos then
    ∃ window words', i.randomWindow length words = .ok (.ok window, words')
  else ∃ words', i.randomWindow length words =
    .ok (.error (.windowTooLarge length.wholeSeconds i.length.wholeSeconds), words')

/-- There is room in the range of instants for the longest window on either side of a time that was
read. -/
theorem IsRead.exists_last {i : Interval} (h : i.IsRead) {length : Span}
    (hpos : 0 ≤ length.nanos) (hmax : length.nanos ≤ 43200 * nanosPerSecond) :
    ∃ last, i.stop.add? ⟨-length.nanos⟩ = some last ∧ last.isLeap = false
      ∧ last.exactNanos = i.stop.exactNanos - length.nanos := by
  obtain ⟨text, htext⟩ := h.stop
  have hfirst := Rfc3339.le_exactNanos_of_parse htext
  have hlast := Rfc3339.exactNanos_of_parse htext
  simp only [nanosPerSecond] at hfirst hlast hmax
  obtain ⟨last, hback, hexact, hleap⟩ :=
    Instant.ofNanos?_of_mem (n := i.stop.exactNanos + -length.nanos) (by omega) (by omega)
  refine ⟨last, ?_, hleap, by omega⟩
  rw [Instant.add?_of_not_leap h.stop_not_leap]
  exact hback

/-- A window of up to twelve hours can be drawn wherever there is room for its start. -/
theorem randomWindow_counts {i : Interval} {length : Span} (hpos : 0 ≤ length.nanos)
    (hmax : length.nanos ≤ 43200 * nanosPerSecond) {last : Instant}
    (hlast : i.stop.add? ⟨-length.nanos⟩ = some last) (words : γ) :
    if last.unixNanos ≤ i.start.unixNanos then
      i.randomWindow length words =
        .ok (.error (.windowTooLarge length.wholeSeconds i.length.wholeSeconds), words)
    else if Instant.maxWord < last.unixNanos - i.start.unixNanos then
      i.randomWindow length words = .error .emptyRange
    else ∃ window words', i.randomWindow length words = .ok (.ok window, words') := by
  have hroom : Instant.maxWord + 43200 * nanosPerSecond ≤ Instant.maxNanos := by decide
  have hwindow := randomWindow_of_last hlast words
  split_ifs at hwindow ⊢ with hle hfar
  · exact hwindow
  · exact hwindow
  · obtain ⟨offset, start, words', -, -, hfits, hdrawn⟩ := hwindow
    have hend := hfits.le_max
    obtain ⟨stop, hstop, -⟩ := Instant.exists_add? (t := start) hpos (by omega)
    rw [hstop] at hdrawn
    exact ⟨⟨start, stop⟩, words', hdrawn⟩

/-- A window that was drawn stops before the interval, and starts no earlier if the interval does
not start behind all counts. -/
theorem bounds_of_drawn {i window : Interval} (hstart : i.start.isLeap = false)
    (hstop : i.stop.isLeap = false) {length : Span} {words words' : γ}
    (h : i.randomWindow length words = .ok (.ok window, words')) :
    window.stop < i.stop
      ∧ (i.start.exactNanos ≤ Instant.maxWord → i.start ≤ window.start) := by
  obtain ⟨last, offset, hlast, hoffset, hfirst, hadd⟩ := randomWindow_eq_ok h
  obtain ⟨hexact, hleap⟩ := Instant.exactNanos_of_ofNanos? hfirst
  obtain ⟨hleap', hexact'⟩ := (Instant.add?_eq_some_iff hleap).mp hadd
  have hback : last.exactNanos = i.stop.exactNanos + -length.nanos :=
    ((Instant.add?_eq_some_iff hstop).mp hlast).2
  have hlower := i.start.unixNanos_mem.1
  constructor
  · -- a last start before all counts would leave nothing to draw from
    have hword : Instant.minWord ≤ last.exactNanos := by
      by_contra hlt
      rw [Instant.unixNanos_eq_minWord (Int.not_le.mp hlt)] at hoffset
      omega
    have hcut := Instant.unixNanos_le_exactNanos hword
    rw [Instant.lt_iff hleap' hstop]
    omega
  · intro hmax
    have hcut := Instant.exactNanos_le_unixNanos hmax
    rw [Instant.le_iff hstart hleap]
    omega

/-- So the window is decided just if the counts agree with its length and have a difference. -/
theorem decides_iff {i : Interval} {length : Span} (hpos : 0 ≤ length.nanos)
    (hmax : length.nanos ≤ 43200 * nanosPerSecond) {last : Instant}
    (hlast : i.stop.add? ⟨-length.nanos⟩ = some last) (words : γ) :
    i.Decides length words ↔
      last.unixNanos - i.start.unixNanos ≤ Instant.maxWord
        ∧ (i.start.unixNanos < last.unixNanos ↔ length.nanos < i.length.nanos) := by
  have hcounts := randomWindow_counts hpos hmax hlast words
  have hword : 0 ≤ Instant.maxWord := by decide
  split_ifs at hcounts with hle hfar
  · have hlarge : i.Decides length words ↔ ¬ length.nanos < i.length.nanos := by
      by_cases hshort : length.nanos < i.length.nanos <;> simp [Decides, hcounts, hshort]
    rw [hlarge]
    omega
  · have hfault : ¬ i.Decides length words := by
      by_cases hshort : length.nanos < i.length.nanos <;> simp [Decides, hcounts, hshort]
    constructor
    · intro hdecides
      exact absurd hdecides hfault
    · omega
  · obtain ⟨window, words', hwindow⟩ := hcounts
    have hdrawn : i.Decides length words ↔ length.nanos < i.length.nanos := by
      by_cases hshort : length.nanos < i.length.nanos <;> simp [Decides, hwindow, hshort]
    rw [hdrawn]
    omega

/-- Of an interval that was read and of a window of up to twelve hours, the counts of the first and
of the last start decide what becomes of the window. It is drawn from longer intervals and too large
for others just if the counts are in the order of the starts and no further apart than a signed word
reaches. If both counts are exact, it depends on their distance alone. -/
theorem window_by_counts {i : Interval} (h : i.IsRead) {length : Span} (hpos : 0 ≤ length.nanos)
    (hmax : length.nanos ≤ 43200 * nanosPerSecond) (words : γ) :
    ∃ last, i.stop.add? ⟨-length.nanos⟩ = some last
      ∧ (if last.unixNanos ≤ i.start.unixNanos then
          i.randomWindow length words =
            .ok (.error (.windowTooLarge length.wholeSeconds i.length.wholeSeconds), words)
        else if Instant.maxWord < last.unixNanos - i.start.unixNanos then
          i.randomWindow length words = .error .emptyRange
        else ∃ window words', i.randomWindow length words = .ok (.ok window, words')
          ∧ window.length = length ∧ window.stop < i.stop
          ∧ (i.start.exactNanos ≤ Instant.maxWord → i.start ≤ window.start))
      ∧ (i.Decides length words ↔
        last.unixNanos - i.start.unixNanos ≤ Instant.maxWord
          ∧ (i.start.unixNanos < last.unixNanos ↔ length.nanos < i.length.nanos))
      ∧ (i.start.InWord → last.InWord →
        (i.Decides length words ↔ i.length.nanos - length.nanos ≤ Instant.maxWord)) := by
  obtain ⟨last, hlast, hleap, hexact⟩ := h.exists_last hpos hmax
  have hlength : i.length.nanos = i.stop.exactNanos - i.start.exactNanos := by
    rw [Interval.length, Instant.since_of_not_leap h.stop_not_leap h.start_not_leap]
  have hcounts := randomWindow_counts hpos hmax hlast words
  have hdecides := decides_iff hpos hmax hlast words
  refine ⟨last, hlast, ?_, hdecides, ?_⟩
  · split_ifs at hcounts ⊢ with hle hfar
    · exact hcounts
    · exact hcounts
    · obtain ⟨window, words', hwindow⟩ := hcounts
      exact ⟨window, words', hwindow, length_of_randomWindow hwindow,
        bounds_of_drawn h.start_not_leap h.stop_not_leap hwindow⟩
  · intro hstart hword
    rw [hdecides, Instant.unixNanos_of_inWord hstart, Instant.unixNanos_of_inWord hword]
    omega

/-- An hour. -/
def hour : Span := ⟨3600000000000⟩

/-- Nineteen centuries that end in 1900. Their start is before all counts, and so is cut off. -/
theorem window_by_counts_first_centuries :
    let i : Interval := ⟨.ofSecs (-62167219200), .ofSecs (-2208988800)⟩
    i.IsRead ∧ 0 ≤ hour.nanos ∧ hour.nanos ≤ 43200 * nanosPerSecond
      ∧ i.Decides hour (ChaCha.ofSeed 7) := by
  intro i
  have hread : i.IsRead :=
    ⟨⟨"0000-01-01T00:00:00Z", rfl⟩, ⟨"1900-01-01T00:00:00Z", rfl⟩, rfl, rfl, rfl⟩
  have hpos : 0 ≤ hour.nanos := by decide
  have hmax : hour.nanos ≤ 43200 * nanosPerSecond := by decide
  obtain ⟨last, hlast, -, hdecides, -⟩ := window_by_counts hread hpos hmax (ChaCha.ofSeed 7)
  have hback : i.stop.add? ⟨-hour.nanos⟩ = some (.ofSecs (-2208992400)) := rfl
  rw [hback] at hlast
  cases hlast
  exact ⟨hread, hpos, hmax, hdecides.mpr (by decide)⟩

/-- Four centuries. Both bounds have exact counts, which are too far apart for a word. -/
def farApart : Interval := ⟨.ofSecs (-8520336000), .ofSecs 4102444800⟩

/-- A day of the year 3000, behind all counts. -/
def behindCounts : Interval := ⟨.ofSecs 32503680000, .ofSecs 32503766400⟩

/-- Half a second less than an hour, from within the last second that has counts. -/
def fromLastCount : Interval where
  start := { secs := 9223372036, nanos := 900000000 }
  stop := { secs := 9223375636, nanos := 500000000 }

/-- An hour is shorter than the first two of these intervals and longer than the third. Of the first
there is a fault, it is too large for the second, and from the third a window is drawn that starts
before it. -/
theorem windows_undecided :
    (farApart.IsRead ∧ ¬ farApart.Decides hour (ChaCha.ofSeed 7)
        ∧ farApart.randomWindow hour (ChaCha.ofSeed 7) = .error .emptyRange)
      ∧ (behindCounts.IsRead ∧ ¬ behindCounts.Decides hour (ChaCha.ofSeed 7)
        ∧ behindCounts.randomWindow hour (ChaCha.ofSeed 7) =
          .ok (.error (.windowTooLarge 3600 86400), ChaCha.ofSeed 7))
      ∧ fromLastCount.IsRead ∧ ¬ fromLastCount.Decides hour (ChaCha.ofSeed 7)
        ∧ ∃ window words', fromLastCount.randomWindow hour (ChaCha.ofSeed 7) =
            .ok (.ok window, words')
          ∧ window.start < fromLastCount.start := by
  have hpos : 0 ≤ hour.nanos := by decide
  have hmax : hour.nanos ≤ 43200 * nanosPerSecond := by decide
  have hfar : farApart.stop.add? ⟨-hour.nanos⟩ = some (.ofSecs 4102441200) := rfl
  have hbehind : behindCounts.stop.add? ⟨-hour.nanos⟩ = some (.ofSecs 32503762800) := rfl
  have hfrom : fromLastCount.stop.add? ⟨-hour.nanos⟩ =
      some { secs := 9223372036, nanos := 500000000 } := rfl
  refine ⟨⟨?_, ?_, rfl⟩, ⟨?_, ?_, rfl⟩, ?_, ?_, ?_⟩
  · exact ⟨⟨"1700-01-01T00:00:00Z", rfl⟩, ⟨"2100-01-01T00:00:00Z", rfl⟩, rfl, rfl, rfl⟩
  · rw [decides_iff hpos hmax hfar]
    decide
  · exact ⟨⟨"3000-01-01T00:00:00Z", rfl⟩, ⟨"3000-01-02T00:00:00Z", rfl⟩, rfl, rfl, rfl⟩
  · rw [decides_iff hpos hmax hbehind]
    decide
  · exact ⟨⟨"2262-04-11T23:47:16.900Z", rfl⟩, ⟨"2262-04-12T00:47:16.500Z", rfl⟩, rfl, rfl, rfl⟩
  · rw [decides_iff hpos hmax hfrom]
    decide
  · have hdrawn := randomWindow_counts hpos hmax hfrom (ChaCha.ofSeed 7)
    rw [if_neg (by decide), if_neg (by decide)] at hdrawn
    obtain ⟨window, words', hwindow⟩ := hdrawn
    obtain ⟨last, offset, hlast, hoffset, hfirst, -⟩ := randomWindow_eq_ok hwindow
    obtain ⟨hexact, hleap⟩ := Instant.exactNanos_of_ofNanos? hfirst
    rw [hfrom] at hlast
    cases hlast
    refine ⟨window, words', hwindow, (Instant.lt_iff hleap rfl).mpr ?_⟩
    calc window.start.exactNanos
        < Instant.unixNanos { secs := 9223372036, nanos := 500000000 } := by omega
      _ < fromLastCount.start.exactNanos := by decide

end Interval

end SeriesLoad
