import SeriesLoad.Decimal.Shortest

/-!
# Layouts of decimal numbers

A `Layout` says how the shortest decimal of a double is written down: which powers of ten are
written out in full, whether a whole number keeps a zero after the point, and what stands for the
values that have no decimal. `Layout.render` writes a double by such a record, and the records
themselves live with the formats that use them.
-/

namespace SeriesLoad.Decimal

/-- How doubles are written. -/
structure Layout where
  /-- Where exact ties between two shortest decimals go. -/
  tie : Tie
  /-- Whether a number with this power of ten in front is written without an exponent mark. -/
  plain : Int → Bool
  /-- Whether a whole number ends in `.0`. -/
  pointZero : Bool
  notANumber : String
  infinity : String
  minusInfinity : String

/-- Digits with a point after the first `whole` of them; a power of ten outside the digits is
filled up with zeros. -/
def pointAt (digits : List Char) (whole : Int) (pointZero : Bool) : List Char :=
  if whole ≤ 0 then
    '0' :: '.' :: (List.replicate (-whole).toNat '0' ++ digits)
  else
    let n := whole.toNat
    if digits.length ≤ n then
      digits ++ List.replicate (n - digits.length) '0' ++ (if pointZero then ['.', '0'] else [])
    else digits.take n ++ '.' :: digits.drop n

/-- One digit, a point and the rest, then the power of ten with its sign. -/
def withExponent (digits : List Char) (power : Int) : List Char :=
  let mantissa := match digits with
    | [] => ['0']
    | [d] => [d]
    | d :: rest => d :: '.' :: rest
  let sign := if power < 0 then '-' else '+'
  mantissa ++ 'e' :: sign :: Nat.toDigits 10 power.natAbs

/-- The text of a decimal, without its sign. -/
def Layout.digits (l : Layout) (s : Scientific) : List Char :=
  let digits := Nat.toDigits 10 s.significand
  let power := s.exponent + digits.length - 1
  if s.significand == 0 || l.plain power then pointAt digits (power + 1) l.pointZero
  else withExponent digits power

/-- The text of a double. -/
def Layout.render (l : Layout) (x : Float) : String :=
  if x.isNaN then l.notANumber
  else if x.isInf then (if x < 0 then l.minusInfinity else l.infinity)
  else
    let b := Binary.ofBits x.toBits.toNat
    let text := l.digits (shortest l.tie b)
    String.ofList (if b.negative then '-' :: text else text)

end SeriesLoad.Decimal
