import SeriesLoad.Point
import SeriesLoad.Proofs.Query.Nesting

/-!
# Counts at the ends of 64 bits

The signed 64-bit numbers begin and stop inside a second of nanoseconds. An instant that has no
number of its own is counted by its second alone, cut off at the ends of the range.

Before the range that is the first number, because the second in which the range begins starts
before it. The second in which it stops starts inside: what comes behind the last number in this
second is counted from its start, and so before instants that are earlier (`Instant.FallsBack`,
`Instant.Overtakes`). **Everywhere else the count is exact or the nearer end of the range, and
counts keep the order of instants** (`counts_keep_order`), those of points as well as those of the
bounds of intervals.
-/

namespace SeriesLoad

namespace Instant

/-- The exact count, or the nearer end of the signed 64-bit numbers if it is none of them. -/
def saturated (t : Instant) : Int := max minWord (min maxWord t.exactNanos)

/-- The start of the second in which the signed 64-bit numbers stop. -/
def lastSecond : Int := maxWord / nanosPerSecond * nanosPerSecond

/-- The instant is in the last second that has counts, behind the last of them. -/
def FallsBack (t : Instant) : Prop := maxWord < t.exactNanos ∧ t.secs * nanosPerSecond ≤ maxWord

instance (t : Instant) : Decidable t.FallsBack :=
  inferInstanceAs (Decidable (maxWord < t.exactNanos ∧ t.secs * nanosPerSecond ≤ maxWord))

/-- The first instant has a count that the second one, which falls back, has not kept. -/
def Overtakes (a b : Instant) : Prop :=
  b.FallsBack ∧ ¬ a.FallsBack ∧ lastSecond < a.exactNanos

instance (a b : Instant) : Decidable (a.Overtakes b) :=
  inferInstanceAs (Decidable (b.FallsBack ∧ ¬ a.FallsBack ∧ lastSecond < a.exactNanos))

variable {a b t : Instant}

theorem unixNanos_of_fallsBack (ht : t.isLeap = false) (h : t.FallsBack) :
    t.unixNanos = lastSecond := by
  have hnanos := nanos_lt_of_isLeap_eq_false ht
  obtain ⟨hmax, hsecs⟩ := h
  rw [unixNanos, if_neg fun hword => Int.not_lt.mpr hword.2 hmax]
  simp only [exactNanos, lastSecond, nanosPerSecond, minWord, maxWord] at *
  omega

theorem unixNanos_of_not_fallsBack (h : ¬ t.FallsBack) : t.unixNanos = t.saturated := by
  by_cases hword : t.InWord
  · rw [unixNanos_of_inWord hword, saturated]
    have := hword.1
    have := hword.2
    omega
  · rcases Int.lt_or_le t.exactNanos minWord with hlt | hge
    · rw [unixNanos_eq_minWord hlt, saturated]
      omega
    · have hmax : maxWord < t.exactNanos := Int.not_le.mp fun hle => hword ⟨hge, hle⟩
      have hsecs : maxWord < t.secs * nanosPerSecond := Int.not_le.mp fun hle => h ⟨hmax, hle⟩
      rw [unixNanos, if_neg fun hboth => Int.not_lt.mpr hboth.2 hmax, saturated]
      omega

/-- What falls back is not counted by the end of the range. -/
theorem unixNanos_eq_saturated_iff (ht : t.isLeap = false) :
    t.unixNanos = t.saturated ↔ ¬ t.FallsBack := by
  refine ⟨fun heq hback => ?_, unixNanos_of_not_fallsBack⟩
  have hend : lastSecond < maxWord := by decide
  have hbegin : minWord ≤ maxWord := by decide
  have hmax := hback.1
  rw [unixNanos_of_fallsBack ht hback, saturated] at heq
  omega

/-- The earlier instant has the greater count just if it overtakes the later one. -/
theorem unixNanos_le_iff (ha : a.isLeap = false) (hb : b.isLeap = false) (hle : a ≤ b) :
    a.unixNanos ≤ b.unixNanos ↔ ¬ a.Overtakes b := by
  have hexact : a.exactNanos ≤ b.exactNanos := (le_iff ha hb).mp hle
  have hwords : minWord ≤ lastSecond ∧ lastSecond < maxWord := by decide
  by_cases hback : b.FallsBack
  · by_cases hback' : a.FallsBack
    · have hnot : ¬ a.Overtakes b := fun h => h.2.1 hback'
      rw [unixNanos_of_fallsBack ha hback', unixNanos_of_fallsBack hb hback]
      exact ⟨fun _ => hnot, fun _ => Int.le_refl _⟩
    · rw [unixNanos_of_fallsBack hb hback, unixNanos_of_not_fallsBack hback', saturated, Overtakes]
      have hiff : max minWord (min maxWord a.exactNanos) ≤ lastSecond ↔
          ¬ lastSecond < a.exactNanos := by omega
      rw [hiff]
      exact ⟨fun h h' => h h'.2.2, fun h h' => h ⟨hback, hback', h'⟩⟩
  · have hnot : ¬ a.Overtakes b := fun h => hback h.1
    refine ⟨fun _ => hnot, fun _ => ?_⟩
    rw [unixNanos_of_not_fallsBack hback]
    by_cases hback' : a.FallsBack
    · rw [unixNanos_of_fallsBack ha hback', saturated]
      have := hback'.1
      omega
    · rw [unixNanos_of_not_fallsBack hback', saturated, saturated]
      omega

end Instant

open Instant

/-- Of two instants outside leap seconds the earlier one has no greater count, unless the later one
falls back behind it. A count is exact if it can be, and the nearer end of the range if it cannot,
but for the instants that fall back: they are counted by the start of their second. So it is for the
times of points and for the bounds of intervals. -/
theorem counts_keep_order {a b : Instant} (ha : a.isLeap = false) (hb : b.isLeap = false)
    (hle : a ≤ b) :
    (a.InWord → a.unixNanos = a.exactNanos)
      ∧ (a.unixNanos = a.saturated ↔ ¬ a.FallsBack)
      ∧ (a.FallsBack → a.unixNanos = lastSecond)
      ∧ (∀ p q : Point, p.time = a → q.time = b → (p.nanos ≤ q.nanos ↔ ¬ a.Overtakes b))
      ∧ (∀ i : Interval, Interval.between a b = .ok i →
        (i.start.unixNanos ≤ i.stop.unixNanos ↔ ¬ a.Overtakes b)) := by
  refine ⟨unixNanos_of_inWord, unixNanos_eq_saturated_iff ha, unixNanos_of_fallsBack ha, ?_, ?_⟩
  · rintro p q rfl rfl
    exact unixNanos_le_iff ha hb hle
  · intro i hi
    unfold Interval.between at hi
    split at hi
    · cases hi
    · cases hi
      exact unixNanos_le_iff ha hb hle

/-- A time at the start of the last second that has counts, and one behind the last of them. -/
theorem counts_keep_order_last_second :
    let a : Instant := ⟨9223372036, 0, by decide, by decide, by decide, by decide⟩
    let b : Instant := ⟨9223372036, 900000000, by decide, by decide, by decide, by decide⟩
    b.FallsBack ∧ ¬ a.Overtakes b ∧ b.unixNanos = lastSecond
      ∧ (Point.empty.setTimestamp a).nanos ≤ (Point.empty.setTimestamp b).nanos := by
  intro a b
  have hnot : ¬ a.Overtakes b := by decide
  obtain ⟨-, -, -, hpoints, -⟩ := counts_keep_order (a := a) (b := b) rfl rfl (by decide)
  obtain ⟨-, -, hlast, -⟩ := counts_keep_order (a := b) (b := b) rfl rfl (by decide)
  exact ⟨by decide, hnot, hlast (by decide), (hpoints _ _ rfl rfl).mpr hnot⟩

/-- The last count of 64 bits is greater than that of an instant in the same second behind it, and
an interval between the two is accepted. -/
theorem last_count_overtakes :
    let a : Instant := ⟨9223372036, 854775807, by decide, by decide, by decide, by decide⟩
    let b : Instant := ⟨9223372036, 900000000, by decide, by decide, by decide, by decide⟩
    a.isLeap = false ∧ b.isLeap = false ∧ a ≤ b ∧ Interval.between a b = .ok ⟨a, b⟩
      ∧ (Point.empty.setTimestamp b).nanos < (Point.empty.setTimestamp a).nanos
      ∧ b.unixNanos < a.unixNanos ∧ b.saturated = maxWord ∧ b.unixNanos ≠ maxWord := by
  decide

end SeriesLoad
