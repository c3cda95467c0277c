import SeriesLoad.Time.Span
import SeriesLoad.Time.Calendar

/-!
# Instants

An `Instant` is a point of UTC time with nanosecond resolution, over a range of about 262 000 years
either way of 1970. A leap second is the last second of its minute with 10^9 nanoseconds or more.

`unixNanos` is the count of nanoseconds since 1970 as a signed 64-bit number; where the exact count
has no such number the whole seconds are taken alone, and cut off at the ends of the range.
-/

namespace SeriesLoad

/-- A point of time in UTC. -/
structure Instant where
  /-- Whole seconds since the start of 1970, leap seconds not counted. -/
  secs : Int
  /-- Nanoseconds into the second; 10^9 or more in a leap second. -/
  nanos : Nat
  first_le_secs : -8334601228800 ≤ secs := by decide
  secs_le_last : secs ≤ 8210266876799 := by decide
  nanos_lt : nanos < 2 * nanosPerSecond := by decide
  leap_secs : nanosPerSecond ≤ nanos → secs % 60 = 59 := by decide
deriving DecidableEq

namespace Instant

/-- The start of 1970. -/
def epoch : Instant where
  secs := 0
  nanos := 0

/-- The instant with these parts, if there is one. -/
def ofParts? (secs : Int) (nanos : Nat) : Option Instant :=
  if h : (-8334601228800 ≤ secs ∧ secs ≤ 8210266876799) ∧ nanos < 2 * nanosPerSecond
      ∧ (nanosPerSecond ≤ nanos → secs % 60 = 59) then
    some ⟨secs, nanos, h.1.1, h.1.2, h.2.1, h.2.2⟩
  else none

/-- Whether the instant is in a leap second. -/
def isLeap (t : Instant) : Bool := nanosPerSecond ≤ t.nanos

/-- Nanoseconds since the start of 1970. A leap second runs on into the second after it. -/
def exactNanos (t : Instant) : Int := t.secs * nanosPerSecond + t.nanos

/-- The instant so many nanoseconds after the start of 1970, never in a leap second. -/
def ofNanos? (n : Int) : Option Instant :=
  ofParts? (n / nanosPerSecond) (n % nanosPerSecond).toNat

/-! ## Order -/

/-- Instants are ordered by their seconds, then by their nanoseconds. -/
instance : LT Instant where
  lt a b := a.secs < b.secs ∨ (a.secs = b.secs ∧ a.nanos < b.nanos)

instance : LE Instant where
  le a b := a.secs < b.secs ∨ (a.secs = b.secs ∧ a.nanos ≤ b.nanos)

instance (a b : Instant) : Decidable (a < b) :=
  inferInstanceAs (Decidable (a.secs < b.secs ∨ (a.secs = b.secs ∧ a.nanos < b.nanos)))

instance (a b : Instant) : Decidable (a ≤ b) :=
  inferInstanceAs (Decidable (a.secs < b.secs ∨ (a.secs = b.secs ∧ a.nanos ≤ b.nanos)))

/-! ## Arithmetic with spans -/

/-- The instant a span later, `none` outside the range. From within a leap second a short span may
end in the same second; otherwise the leap second is left in the direction of the span, and does
not count on the way. -/
def add? (t : Instant) (d : Span) : Option Instant :=
  if t.isLeap then
    let ds := d.nanos.tdiv nanosPerSecond
    let dn := d.nanos.tmod nanosPerSecond
    if 0 < ds ∨ (0 < dn ∧ 2 * nanosPerSecond ≤ t.nanos + dn) then
      ofNanos? (t.exactNanos - nanosPerSecond + d.nanos)
    else if ds < 0 then ofNanos? (t.exactNanos + d.nanos)
    else ofParts? t.secs (t.nanos + dn).toNat
  else ofNanos? (t.exactNanos + d.nanos)

/-- The second of the day, leap seconds not counted. -/
def secondOfDay (t : Instant) : Int := t.secs % 86400

/-- The number of the day since the start of 1970. -/
def epochDay (t : Instant) : Int := t.secs / 86400

/-- The day that an instant is in. -/
def date (t : Instant) : Date := Date.ofEpochDay t.epochDay

/-- The span from `b` to `a`. Days and times of day are subtracted apart; a leap second counts if
the time of day passes over it. -/
def since (a b : Instant) : Span :=
  let passed : Int :=
    if b.secondOfDay < a.secondOfDay then (if b.isLeap then 1 else 0)
    else if a.secondOfDay < b.secondOfDay then (if a.isLeap then -1 else 0)
    else 0
  ⟨(a.secs - b.secs + passed) * nanosPerSecond + ((a.nanos : Int) - b.nanos)⟩

/-! ## Counts since 1970 -/

/-- The least signed 64-bit number. -/
def minWord : Int := -2 ^ 63

/-- The greatest signed 64-bit number. -/
def maxWord : Int := 2 ^ 63 - 1

/-- Nanoseconds since the start of 1970, in 64 bits. -/
def unixNanos (t : Instant) : Int :=
  if minWord ≤ t.exactNanos ∧ t.exactNanos ≤ maxWord then t.exactNanos
  else max minWord (min maxWord (t.secs * nanosPerSecond))

/-- Milliseconds since the start of 1970. -/
def unixMillis (t : Instant) : Int := t.secs * 1000 + (t.nanos / 1000000 : Nat)

end Instant

end SeriesLoad
