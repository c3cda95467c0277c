import SeriesLoad.Fault
import SeriesLoad.Random.Uniform

/-!
# Samples without repetition

`Draw.sample length amount` draws `amount` different numbers below `length`, in random order. Which
of three methods is used depends on the two sizes:

* *rejection*: draw numbers until there are enough different ones. The loop that looks for one
  more is cut (`Draw.retry`): after `tries` numbers that are there already it takes the least one
  that is not;
* *in place*: shuffle the front of the list of all numbers;
* *by insertion*: for each of the last `amount` numbers draw one that is not larger, and take the
  last one itself where the drawn one is there already.

`Draw.requireSampleable` refuses the sizes for which that cannot be done.
-/

namespace SeriesLoad.Draw

variable {γ : Type} [Words γ]

/-! ## Rejection -/

/-- The least number that is not among the taken ones. -/
def leastFree (taken : List Nat) : Nat :=
  ((List.range (taken.length + 1)).find? fun i => !taken.contains i).getD 0

/-- A number below `length`, refused if it is taken. -/
def free? (w : Width) (length : Nat) (taken : List Nat) : Draw γ (Option Nat) := do
  let i ← belowExact w length
  return if taken.contains i then none else some i

/-- A number below `length` that is not taken. -/
def fresh (w : Width) (length : Nat) (taken : List Nat) : Draw γ Nat :=
  retry (free? w length taken) (return leastFree taken) tries

/-- So many different numbers, added in front of those already drawn. -/
def byRejection (w : Width) (length : Nat) : Nat → List Nat → Draw γ (List Nat)
  | 0, taken => return taken.reverse
  | more + 1, taken => do
    let i ← fresh w length taken
    byRejection w length more (i :: taken)

/-! ## In place -/

/-- Swaps each of the next places with one at or behind it. -/
def shuffleFront (length : Nat) : Nat → Nat → Array Nat → Draw γ (Array Nat)
  | 0, _, xs => return xs
  | more + 1, i, xs => do
    let j ← below .short (length - i)
    shuffleFront length more (i + 1) (xs.swapIfInBounds i (i + j))

/-- The front of the shuffled list of all numbers. -/
def inPlace (length amount : Nat) : Draw γ (List Nat) := do
  let xs ← shuffleFront length amount 0 (Array.range length)
  return xs.toList.take amount

/-! ## By insertion -/

/-- For few numbers: the last one goes in front of the drawn one that is there already, which
leaves the order random. -/
def insertInOrder (xs : List Nat) (t last : Nat) : List Nat :=
  match xs.idxOf? t with
  | some place => xs.insertIdx place last
  | none => xs ++ [t]

/-- For many numbers: the last one goes to the end. -/
def insertAtEnd (xs : List Nat) (t last : Nat) : List Nat :=
  if xs.contains t then xs ++ [last] else xs ++ [t]

/-- Draws for so many last numbers, starting at `last`. -/
def gather (insert : List Nat → Nat → Nat → List Nat) :
    Nat → Nat → List Nat → Draw γ (List Nat)
  | 0, _, xs => return xs
  | more + 1, last, xs => do
    let t ← below .short (last + 1)
    gather insert more (last + 1) (insert xs t last)

/-- Swaps each place but the first, from the end, with one at or before it. -/
def shuffle : Nat → Array Nat → Draw γ (Array Nat)
  | 0, xs => return xs
  | i + 1, xs => do
    let j ← below .short (i + 2)
    shuffle i (xs.swapIfInBounds (i + 1) j)

/-- Draws for the last numbers; a result that is not in random order is shuffled. -/
def byInsertion (length amount : Nat) : Draw γ (List Nat) := do
  if amount < 50 then gather insertInOrder amount (length - amount) []
  else
    let xs ← gather insertAtEnd amount (length - amount) []
    let xs ← shuffle (amount - 1) xs.toArray
    return xs.toList

/-! ## The choice of method -/

/-- A way of drawing different numbers. -/
inductive Method where
  | rejection (w : Width)
  | inPlace
  | insertion
deriving DecidableEq, Repr

/-- The length from which numbers count as many. -/
def manyNumbers : Nat := 500000

/-- The length from which numbers are only drawn by rejection. -/
def wideLength : Nat := 2 ^ 32

/-- The method for two sizes. The bounds between the methods are in single precision. -/
def method (length amount : Nat) : Method :=
  let size := (UInt32.ofNat length).toFloat32
  let count := (UInt32.ofNat amount).toFloat32
  let isMany := manyNumbers ≤ length
  if wideLength ≤ length then .rejection .long
  else if amount < 163 then
    let slope : Float32 := if isMany then 8.0 / 45.0 else 1.6
    let base : Float32 := if isMany then 70.0 / 9.0 else 10.0
    if 11 < amount && size < (base + slope * count) * count then .inPlace else .insertion
  else
    let factor : Float32 := if isMany then 330.0 / 9.0 else 270.0
    if size < factor * count then .inPlace else .rejection .short

/-- Makes sure that so many numbers below `length` can be drawn: there has to be room for them, and
numbers that are only drawn by rejection must not be drawn all. -/
def requireSampleable (length amount : Nat) : Except Fault Unit := do
  requireRoom amount
  if wideLength ≤ length ∧ length ≤ amount then throw .fullSample

/-- Different numbers below `length`, of which there are at least `amount`. -/
def sample (length amount : Nat) : Draw γ (List Nat) :=
  match method length amount with
  | .rejection w => byRejection w length amount []
  | .inPlace => inPlace length amount
  | .insertion => byInsertion length amount

end SeriesLoad.Draw
