import SeriesLoad.Powers

/-!
# Spans of time

A `Span` is a signed length of time in nanoseconds. Its views in whole seconds and milliseconds
truncate toward zero, and a span made from a count of milliseconds has to fit the millisecond range
of a signed 64-bit number.
-/

namespace SeriesLoad

/-- Nanoseconds in a second. -/
abbrev nanosPerSecond : Nat := 1000000000

/-- A signed length of time. -/
structure Span where
  nanos : Int
deriving DecidableEq, Repr

namespace Span

/-- The longest span, in milliseconds; the longest negative one is as long. -/
def maxMillis : Int := 2 ^ 63 - 1

/-- The span of so many milliseconds, if it is in range. -/
def ofMillis? (n : Int) : Option Span :=
  if -maxMillis ≤ n ∧ n ≤ maxMillis then some ⟨n * 1000000⟩ else none

/-- The span of so many hours, if it is in range. -/
def ofHours? (n : Int) : Option Span := ofMillis? (n * 3600000)

/-- Seconds and a remainder of nanoseconds that is not negative. -/
def ofParts (secs : Int) (nanos : Nat) : Span := ⟨secs * nanosPerSecond + nanos⟩

/-- The number of seconds, rounded down. -/
def secs (d : Span) : Int := d.nanos / nanosPerSecond

/-- The nanoseconds above the last whole second. -/
def subsec (d : Span) : Nat := (d.nanos % nanosPerSecond).toNat

/-- The number of whole seconds, toward zero. -/
def wholeSeconds (d : Span) : Int := d.nanos.tdiv nanosPerSecond

/-- The number of whole milliseconds, toward zero. -/
def wholeMillis (d : Span) : Int := d.nanos.tdiv 1000000

end Span

end SeriesLoad
