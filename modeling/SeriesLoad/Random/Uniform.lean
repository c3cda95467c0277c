import SeriesLoad.Powers
import SeriesLoad.Random.Words

/-!
# Uniform draws

`Draw.below` draws a number below a bound. A word is multiplied by the bound; the high half of the
product is the number, and the word is refused if the low half is among the values that would make
some numbers more likely than others.

`Draw.unit` and `Draw.between` draw doubles. `Draw.between` refuses a word that rounding takes up to
the higher bound.

Both loops are cut (`Draw.retry`): after `tries` refused words the next word is taken, whatever it
is. A number that is drawn is below its bound in that case too.
-/

namespace SeriesLoad.Draw

variable {γ : Type} [Words γ]

/-- How long the words are that a draw takes. -/
inductive Width where
  | short
  | long
deriving DecidableEq, Repr

/-- The number of bits of a word. -/
def Width.bits : Width → Nat
  | .short => 32
  | .long => 64

/-- A word as a number. -/
def word : Width → Draw γ Nat
  | .short => do return (← word32).toNat
  | .long => do return (← word64).toNat

/-- The high half of the product of a word with `n`, refused if the low half is not below
`limit`. -/
def product? (w : Width) (n limit : Nat) : Draw γ (Option Nat) := do
  let v ← word w
  return if v * n % 2 ^ w.bits < limit then some (v * n / 2 ^ w.bits) else none

/-- Draws until the low half of the product with `n` is below `limit`. -/
def pick (w : Width) (n limit : Nat) : Draw γ Nat :=
  retry (product? w n limit) (do return (← word w) * n / 2 ^ w.bits) tries

/-- The multiple of `n` by a power of two that uses all bits of a word: a quick limit that refuses
at most every second word. -/
def coarseLimit (w : Width) (n : Nat) : Nat := n * 2 ^ (w.bits - (Nat.log2 n + 1))

/-- The largest limit that is a multiple of `n`. -/
def exactLimit (w : Width) (n : Nat) : Nat := 2 ^ w.bits - 2 ^ w.bits % n

/-- A number below `n`, which is positive and at most `2 ^ w.bits`. -/
def below (w : Width) (n : Nat) : Draw γ Nat := pick w n (coarseLimit w n)

/-- A number below `n`, by the exact limit. -/
def belowExact (w : Width) (n : Nat) : Draw γ Nat := pick w n (exactLimit w n)

/-- One of some choices. -/
def choose {α : Type} (first : α) (rest : List α) : Draw γ α := do
  let i ← below .short (rest.length + 1)
  return (first :: rest).getD i first

/-! ## Doubles -/

/-- A double in `[0, 1)`, a multiple of `2^-53`. -/
def unit : Draw γ Float := do
  let v ← word64
  return (v >>> 11).toFloat * Float.ofBits 0x3CA0000000000000

/-- A double in `[1, 2)` from the high bits of a word. -/
def onePlus (v : UInt64) : Float := Float.ofBits ((0x3FF0000000000000 : UInt64) ||| v >>> 12)

/-- Whether numbers can be drawn between two bounds: their distance has to be finite. -/
def isDrawable (low high : Float) : Bool := (high - low).isFinite

/-- A word scaled to the distance from `low` to `high`. Rounding may give `high` itself. -/
def scaled (low high : Float) : Draw γ Float := do
  return (onePlus (← word64) - 1.0) * (high - low) + low

/-- A double in `[low, high)`. -/
def between (low high : Float) : Draw γ Float :=
  retry (do let x ← scaled low high; return if x < high then some x else none)
    (scaled low high) tries

end SeriesLoad.Draw
