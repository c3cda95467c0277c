import SeriesLoad.Fault
import SeriesLoad.Random.Uniform
import SeriesLoad.Time.Rfc3339

/-!
# Intervals of time

An `Interval` is a half-open stretch of time. `Interval.randomWindow` draws a window of a given
length inside it; the window may start anywhere from the interval's start up to, but not at, the
last start that leaves room for it.
-/

namespace SeriesLoad

/-- The time from `start` up to `stop`. -/
structure Interval where
  start : Instant
  stop : Instant
deriving DecidableEq

/-- Why there is no interval. -/
inductive IntervalError where
  /-- The stop is not after the start. -/
  | inverted (start stop : Instant)
  /-- A window is not shorter than the interval; both in seconds. -/
  | windowTooLarge (window interval : Int)
deriving DecidableEq

/-- The words for an error. -/
def IntervalError.message : IntervalError → String
  | .inverted start stop =>
    "interval end " ++ Rfc3339.render stop ++ " is not after start " ++ Rfc3339.render start
  | .windowTooLarge window interval =>
    "window of " ++ Int.repr window ++ "s does not fit in interval of " ++ Int.repr interval ++ "s"

namespace Interval

/-- The interval between two instants. -/
def between (start stop : Instant) : Except IntervalError Interval :=
  if stop ≤ start then .error (.inverted start stop) else .ok ⟨start, stop⟩

/-- How long the interval is. -/
def length (i : Interval) : Span := i.stop.since i.start

/-- The start as text. -/
def startText (i : Interval) : String := Rfc3339.render i.start

/-- The stop as text. -/
def stopText (i : Interval) : String := Rfc3339.render i.stop

/-- Draws a window of a length inside an interval. Nothing is drawn if the window does not fit. -/
def randomWindow {γ : Type} [Words γ] (i : Interval) (window : Span) (words : γ) :
    Except Fault (Except IntervalError Interval × γ) :=
  match i.stop.add? ⟨-window.nanos⟩ with
  | none => .error .instantRange
  | some last =>
    let lower := i.start.unixNanos
    let upper := last.unixNanos
    if upper ≤ lower then
      .ok (.error (.windowTooLarge window.wholeSeconds i.length.wholeSeconds), words)
    else if Instant.maxWord < upper - lower then .error .emptyRange
    else
      let (offset, words) := (Draw.below .long (upper - lower).toNat).run words
      match Instant.ofNanos? (lower + offset) with
      | none => .error .instantRange
      | some start =>
        match start.add? window with
        | none => .error .instantRange
        | some stop => .ok (.ok ⟨start, stop⟩, words)

end Interval

end SeriesLoad
