import SeriesLoad.Random.Layers
import SeriesLoad.Random.Uniform

/-!
# Normal draws

`Draw.normal` draws from the standard normal distribution. A word picks one of 256 layers and a
place in it. A place left of the next layer's end is under the curve; one right of it is checked
against the curve, or is drawn from the tail if the layer is the lowest.

Places above the curve and pairs that miss the tail are refused, and both loops are cut
(`Draw.retry`): after `tries` refusals the number is zero, or the place in the tail is taken without
a check.
-/

namespace SeriesLoad.Draw

open SeriesLoad.Random

variable {γ : Type} [Words γ]

/-- A double in `(0, 1)`. -/
def openUnit : Draw γ Float := do
  let v ← word64
  return onePlus v - (1.0 - Float.ofBits 0x3CA0000000000000)

/-- A place beyond the start of the tail. -/
def beyond : Draw γ Float := do
  let a ← openUnit
  return a.log / Layers.tailStart

/-- A place beyond the start of the tail, refused if it is above the curve. -/
def tailExcess? : Draw γ (Option Float) := do
  let x ← beyond
  let c ← openUnit
  let y := c.log
  return if -2.0 * y < x * x then none else some x

/-- A number of the tail, on the side of `u`. -/
def tail (u : Float) : Draw γ Float := do
  let x ← retry tailExcess? beyond tries
  return if u < 0.0 then x - Layers.tailStart else Layers.tailStart - x

/-- A place of a layer, refused if it is above the curve. -/
def underCurve? : Draw γ (Option Float) := do
  let v ← word64
  let i := (v &&& 0xFF).toNat
  let u := Float.ofBits ((0x4000000000000000 : UInt64) ||| v >>> 12) - 3.0
  let x := u * Layers.edge i
  if x.abs < Layers.edge (i + 1) then return some x
  else if i == 0 then return some (← tail u)
  else
    let y ← unit
    let height := Layers.height (i + 1) + (Layers.height i - Layers.height (i + 1)) * y
    return if height < (-x * x / 2.0).exp then some x else none

/-- A standard normal number. -/
def normal : Draw γ Float := retry underCurve? (return 0.0) tries

end SeriesLoad.Draw
