import SeriesLoad.Fault
import SeriesLoad.Random.Normal

/-!
# Distributions of metric values

A `Distribution` is the state of one metric over time: a constant, a walk between two bounds, or a
walk that only rises. `Distribution.advance` moves it by one random step.
-/

namespace SeriesLoad

/-- The step of a random walk. -/
inductive Step where
  | normal (mean deviation : Float)
  /-- From `low` up to `high`; always `low` if `high` is not above it. -/
  | uniform (low high : Float)

namespace Step

/-- Whether the step can be drawn: the width of a uniform step has to be finite. -/
def isDrawable : Step → Bool
  | .normal _ _ => true
  | .uniform low high => !decide (low < high) || Draw.isDrawable low high

/-- Draws a step that is drawable. -/
def draw {γ : Type} [Words γ] : Step → Draw γ Float
  | .normal mean deviation => do
    let z ← Draw.normal
    return mean + deviation * z
  | .uniform low high => if low < high then Draw.between low high else return low

end Step

/-- Two bounds, neither of them NaN. -/
structure Bounds where
  low : Float
  high : Float
  low_le_high : low ≤ high

namespace Bounds

/-- Bounds made of two doubles, if they are in order. -/
def ofFloats? (low high : Float) : Option Bounds :=
  if h : low ≤ high then some ⟨low, high, h⟩ else none

/-- The number between the bounds that is nearest to `x`. -/
def clamp (b : Bounds) (x : Float) : Float :=
  if x < b.low then b.low else if b.high < x then b.high else x

/-- From zero up to a bound. -/
def upTo (high : Float) (h : 0.0 ≤ high := by decide) : Bounds := ⟨0.0, high, h⟩

/-- From zero to a hundred. -/
def hundred : Bounds := .upTo 100.0

/-- From zero to 8 GiB. -/
def eightGiB : Bounds := .upTo 8589934592.0

end Bounds

/-- The state of a metric. -/
inductive Distribution where
  | constant (value : Float)
  /-- Moves by the step and stays between the bounds. -/
  | clamped (step : Step) (bounds : Bounds) (state : Float)
  /-- Moves up by the size of the step. -/
  | monotonic (step : Step) (state : Float)

namespace Distribution

/-- A walk between bounds that starts at the number nearest to `start`. -/
def walk (step : Step) (bounds : Bounds) (start : Float) : Distribution :=
  .clamped step bounds (bounds.clamp start)

/-- The current value. -/
def value : Distribution → Float
  | .constant v => v
  | .clamped _ _ state => state
  | .monotonic _ state => state

/-- Whether the distribution can be advanced. -/
def isDrawable : Distribution → Bool
  | .constant _ => true
  | .clamped step _ _ => step.isDrawable
  | .monotonic step _ => step.isDrawable

/-- Moves a drawable distribution by one step. -/
def advance {γ : Type} [Words γ] : Distribution → Draw γ Distribution
  | .constant v => return .constant v
  | .clamped step bounds state => do
    let d ← step.draw
    return .clamped step bounds (bounds.clamp (state + d))
  | .monotonic step state => do
    let d ← step.draw
    return .monotonic step (state + d.abs)

end Distribution

end SeriesLoad
