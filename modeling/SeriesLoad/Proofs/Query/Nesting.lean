import SeriesLoad.Proofs.Query.Window
import SeriesLoad.Random.ChaCha

/-!
# Windows inside windows

Of an interval that fits, **a window can be drawn just if it is shorter than the interval, and then
it lies inside: it starts no earlier and stops before the interval does** (`windows_nest`). A window
that is not shorter is refused before any word is taken.

A window is an interval that fits as well, so windows can be drawn from windows. The step is
`Interval.Draws.inside`, and an induction along the chain of windows shows that all of them are
inside the interval that the first was drawn from.
-/

namespace SeriesLoad

/-! ## The order of instants -/

namespace Instant

variable {a b : Instant}

/-- Outside leap seconds instants are ordered as their counts. -/
theorem le_iff (ha : a.isLeap = false) (hb : b.isLeap = false) :
    a ≤ b ↔ a.exactNanos ≤ b.exactNanos := by
  have hnanos := nanos_lt_of_isLeap_eq_false ha
  have hnanos' := nanos_lt_of_isLeap_eq_false hb
  change (a.secs < b.secs ∨ a.secs = b.secs ∧ a.nanos ≤ b.nanos) ↔ _
  simp only [exactNanos, nanosPerSecond] at *
  omega

theorem lt_iff (ha : a.isLeap = false) (hb : b.isLeap = false) :
    a < b ↔ a.exactNanos < b.exactNanos := by
  rw [← not_le, le_iff hb ha, Int.not_le]

end Instant

namespace Interval

/-! ## Inside an interval -/

/-- A window starts no earlier than the interval and stops before it. -/
structure Inside (window i : Interval) : Prop where
  start_le : i.start ≤ window.start
  stop_lt : window.stop < i.stop

theorem Inside.trans {inner window i : Interval} (h : inner.Inside window) (h' : window.Inside i) :
    inner.Inside i := by
  obtain ⟨hstart, hstop⟩ := h
  obtain ⟨hstart', hstop'⟩ := h'
  constructor
  · change _ < _ ∨ _ = _ ∧ _ ≤ _ at hstart hstart' ⊢
    omega
  · change _ < _ ∨ _ = _ ∧ _ < _ at hstop hstop' ⊢
    omega

/-- The instants with these bounds are an interval if it is longer than nothing. -/
theorem between_of_length_pos {i : Interval} (hstart : i.start.isLeap = false)
    (hstop : i.stop.isLeap = false) (hpos : 0 < i.length.nanos) :
    between i.start i.stop = .ok i := by
  simp only [length, Instant.since_of_not_leap hstop hstart] at hpos
  have hlt : i.start < i.stop := (Instant.lt_iff hstart hstop).mpr (by omega)
  exact if_neg (Instant.not_le.mpr hlt)

variable {γ : Type} [Words γ]

/-- Some window of this kind was drawn: one of a positive length. -/
def Draws (γ : Type) [Words γ] (i window : Interval) : Prop :=
  ∃ (length : Span) (words words' : γ),
    0 < length.nanos ∧ i.randomWindow length words = .ok (.ok window, words')

/-- A window that is drawn from an interval that fits does so itself, and lies inside. -/
theorem Draws.inside {i window : Interval} (hdraws : Draws γ i window) (h : i.Fits) :
    window.Fits ∧ window.Inside i := by
  obtain ⟨length, words, words', hpos, hdrawn⟩ := hdraws
  obtain ⟨last, -, hlast, -⟩ := randomWindow_eq_ok hdrawn
  rcases randomWindow_cases h (Int.le_of_lt hpos) hlast words with
    ⟨-, hlarge⟩ | ⟨-, window', words'', hwindow, hfits, hfirst, -, hlt⟩
  · rw [hdrawn] at hlarge
    cases hlarge
  · rw [hdrawn] at hwindow
    cases hwindow
    exact ⟨hfits, (Instant.le_iff h.start.not_leap hfits.start.not_leap).mpr hfirst,
      (Instant.lt_iff hfits.stop.not_leap h.stop.not_leap).mpr hlt⟩

/-- Each window of a chain is inside the one before, and so is all that is drawn from it. -/
theorem inside_of_isChain {i : Interval} (h : i.Fits) {windows : List Interval}
    (hchain : (i :: windows).IsChain (Draws γ)) : ∀ window ∈ windows, window.Inside i := by
  induction windows generalizing i with
  | nil => simp
  | cons next rest ih =>
    obtain ⟨hdraws, hrest⟩ := List.isChain_cons_cons.mp hchain
    obtain ⟨hfits, hinside⟩ := hdraws.inside h
    intro window hmem
    rcases List.mem_cons.mp hmem with rfl | hmem
    · exact hinside
    · exact (ih hfits hrest window hmem).trans hinside

/-- From an interval that fits, a window of a positive length is drawn just if it is shorter. It has
that length, is inside the interval and an interval itself. Otherwise it is too large, and no word
is taken. So windows that are drawn one from the other are all inside the first interval. -/
theorem windows_nest {i : Interval} (h : i.Fits) :
    (∀ length : Span, 0 < length.nanos → (i.stop.add? ⟨-length.nanos⟩).isSome → ∀ words : γ,
        if length.nanos < i.length.nanos then
          ∃ window words', i.randomWindow length words = .ok (.ok window, words')
            ∧ window.Inside i ∧ window.length = length
            ∧ between window.start window.stop = .ok window ∧ window.Fits
        else
          i.randomWindow length words =
            .ok (.error (.windowTooLarge length.wholeSeconds i.length.wholeSeconds), words))
      ∧ ∀ windows : List Interval, (i :: windows).IsChain (Draws γ) →
        ∀ window ∈ windows, window.Inside i := by
  refine ⟨?_, fun windows => inside_of_isChain h⟩
  intro length hpos hback words
  obtain ⟨last, hlast⟩ := Option.isSome_iff_exists.mp hback
  have hlength : i.length.nanos = i.stop.exactNanos - i.start.exactNanos := by
    rw [Interval.length, Instant.since_of_not_leap h.stop.not_leap h.start.not_leap]
  rcases randomWindow_cases h (Int.le_of_lt hpos) hlast words with
    ⟨hle, hlarge⟩ | ⟨hlt, window, words', hwindow, -⟩
  · rw [if_neg (by omega)]
    exact hlarge
  · rw [if_pos (by omega)]
    obtain ⟨hfits, hinside⟩ := Draws.inside ⟨length, words, words', hpos, hwindow⟩ h
    have hsame := length_of_randomWindow hwindow
    refine ⟨window, words', hwindow, hinside, hsame, ?_, hfits⟩
    exact between_of_length_pos hfits.start.not_leap hfits.stop.not_leap (by rwa [hsame])

/-- An hour of a day around the start of 1970. -/
theorem windows_nest_around_1970 :
    let day : Interval := ⟨.ofSecs (-43200), .ofSecs 43200⟩
    day.Fits ∧ (0 : Int) < 3600000000000 ∧ (day.stop.add? ⟨-3600000000000⟩).isSome
      ∧ ∃ window words', day.randomWindow ⟨3600000000000⟩ (ChaCha.ofSeed 7) =
          .ok (.ok window, words')
        ∧ window.Inside day ∧ window.length = ⟨3600000000000⟩
        ∧ ∀ inner : Interval, Draws ChaCha window inner → inner.Inside day := by
  intro day
  have hday : day.Fits :=
    ⟨⟨by decide, by decide, by decide⟩, ⟨by decide, by decide, by decide⟩, by decide⟩
  have hback : (day.stop.add? ⟨-3600000000000⟩).isSome := by decide
  obtain ⟨hone, hchain⟩ := windows_nest (γ := ChaCha) hday
  have hdrawn := hone ⟨3600000000000⟩ (by decide) hback (ChaCha.ofSeed 7)
  rw [if_pos (by decide)] at hdrawn
  obtain ⟨window, words', hwindow, hinside, hlength, -⟩ := hdrawn
  refine ⟨hday, by decide, hback, window, words', hwindow, hinside, hlength, ?_⟩
  intro inner hinner
  have hdraws : Draws ChaCha day window := ⟨_, _, _, by decide, hwindow⟩
  exact hchain [window, inner] (by simp [hdraws, hinner]) inner (by simp)

end Interval

end SeriesLoad
