import SeriesLoad.Powers

/-!
# Shortest decimals of binary fractions

A positive binary fraction `m · 2^q` stands for every real number that rounds to it. Of the
decimals in that interval `shortest` picks one with the fewest digits, and of those the nearest to
the fraction itself.

The search runs over decimal grids. With `n` digits the candidates are the two points of the grid
around the fraction; the first `n` whose grid has a point in the interval wins. All comparisons are
between natural numbers, so nothing is rounded on the way.
-/

namespace SeriesLoad.Decimal

/-- Where an exact tie between two nearest decimals goes. -/
inductive Tie where
  /-- To the larger of the two. -/
  | up
  /-- To the one with an even last digit. -/
  | even
deriving DecidableEq, Repr

/-- The decimal `significand · 10^exponent`. -/
structure Scientific where
  significand : Nat
  exponent : Int
deriving DecidableEq, Repr

/-- A finite binary fraction, `± mantissa · 2^exponent`. -/
structure Binary where
  negative : Bool
  mantissa : Nat
  exponent : Int
deriving DecidableEq, Repr

namespace Binary

/-- The sign, mantissa and exponent in the 64 bits of a finite double. -/
def ofBits (bits : Nat) : Binary :=
  let field : Nat := bits / 2 ^ 52 % 2 ^ 11
  let fraction := bits % 2 ^ 52
  { negative := bits / 2 ^ 63 % 2 == 1
    mantissa := if field == 0 then fraction else 2 ^ 52 + fraction
    exponent := if field == 0 then -1074 else (field : Int) - 1075 }

/-- Whether the fraction below is only half as far as the one above: so at a power of two, except
at the least exponent. -/
def isBoundary (x : Binary) : Bool := x.mantissa == 2 ^ 52 && x.exponent != -1074

end Binary

/-- Drops the zeros at the end of a significand, counting them into the exponent. -/
def Scientific.trim (fuel : Nat) (x : Scientific) : Scientific :=
  match fuel with
  | 0 => x
  | fuel + 1 =>
    if x.significand != 0 && x.significand % 10 == 0 then
      Scientific.trim fuel ⟨x.significand / 10, x.exponent + 1⟩
    else x

/-- The floor of the decimal logarithm of `num / den`, given a guess that is at most one too
small or one too large. -/
def floorLog (num den : Nat) (guess : Int) : Int :=
  let atLeast (e : Int) : Bool := den * 10 ^ e.toNat ≤ num * 10 ^ (-e).toNat
  if atLeast (guess + 1) then guess + 1
  else if atLeast guess then guess
  else guess - 1

/-- An interval of reals around a value, all over one denominator. -/
structure Around where
  low : Nat
  value : Nat
  high : Nat
  /-- Whether `low` and `high` themselves belong to the interval. -/
  closed : Bool

/-- Whether a point lies in the interval. -/
def Around.contains (a : Around) (x : Nat) : Bool :=
  if a.closed then a.low ≤ x && x ≤ a.high else a.low < x && x < a.high

/-- The multiple of `step` in the interval that is nearest to its value, as a factor; `none` if
neither neighbour of the value is in the interval. -/
def Around.nearest (tie : Tie) (a : Around) (step : Nat) : Option Nat :=
  let below := a.value / step
  let rest := a.value % step
  match a.contains (below * step), a.contains ((below + 1) * step) with
  | false, false => none
  | true, false => some below
  | false, true => some (below + 1)
  | true, true =>
    if 2 * rest < step then some below
    else if step < 2 * rest then some (below + 1)
    else match tie with
      | .up => some (below + 1)
      | .even => some (if below % 2 == 0 then below else below + 1)

/-- Tries grids of `digits` and more digits, `more` times, and gives the first hit. `unit` is the
spacing of the grid of 17 digits. -/
def firstGrid (tie : Tie) (a : Around) (unit : Nat) (top : Int) (digits : Nat) :
    Nat → Option Scientific
  | 0 => none
  | more + 1 =>
    match a.nearest tie (unit * 10 ^ (17 - digits)) with
    | some k => some ⟨k, top - digits + 1⟩
    | none => firstGrid tie a unit top (digits + 1) more

/-- The shortest decimal that stands for the size of a binary fraction. -/
def shortest (tie : Tie) (x : Binary) : Scientific :=
  if x.mantissa == 0 then ⟨0, 0⟩
  else
    -- quarters of the last place, so that the ends of the interval are whole numbers
    let q := x.exponent - 2
    let num := 4 * x.mantissa * 2 ^ q.toNat
    let den := 2 ^ (-q).toNat
    let top := floorLog num den (((Nat.log2 x.mantissa : Int) + x.exponent) * 30103 / 100000)
    -- the grid of 17 digits has whole points after scaling by 10 ^ (16 - top)
    let scale := 2 ^ q.toNat * 10 ^ (16 - top).toNat
    let unit := den * 10 ^ (top - 16).toNat
    let around : Around :=
      { low := (4 * x.mantissa - if x.isBoundary then 1 else 2) * scale
        value := 4 * x.mantissa * scale
        high := (4 * x.mantissa + 2) * scale
        closed := x.mantissa % 2 == 0 }
    match firstGrid tie around unit top 1 17 with
    | some s => s.trim 17
    | none => ⟨around.value / unit, top - 16⟩

end SeriesLoad.Decimal
