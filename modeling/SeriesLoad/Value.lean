import SeriesLoad.Binary64
import SeriesLoad.Decimal.Layout
import SeriesLoad.Text.Utf8

/-!
# Field values

A field of a point holds a double, a 64-bit integer, a truth value or raw bytes. `FieldValue.text`
is the plain rendering that the text formats share.
-/

namespace SeriesLoad

/-- The value of one field of a point. -/
inductive FieldValue where
  | float (x : Binary64)
  | int (n : Int64)
  | bool (b : Bool)
  /-- Raw bytes, read as UTF-8 where the format is textual. -/
  | bytes (bs : List UInt8)
deriving DecidableEq

namespace FieldValue

/-- In text a double has all its digits written out, no exponent mark, and no point unless it has
a fraction. -/
def layout : Decimal.Layout where
  tie := .up
  plain _ := true
  pointZero := false
  notANumber := "NaN"
  infinity := "inf"
  minusInfinity := "-inf"

/-- The plain text of a value: the shortest digits of a double, a decimal integer, `true` or
`false`, and bytes read as UTF-8. -/
def text : FieldValue → String
  | float x => layout.render x.toFloat
  | int n => Int.repr n.toInt
  | bool b => if b then "true" else "false"
  | bytes bs => Text.Utf8.text bs

/-- The value as a double, for the two kinds of number. -/
def asFloat? : FieldValue → Option Float
  | float x => some x.toFloat
  | int n => some n.toFloat
  | _ => none

/-- The value as an integer; a double is not one, whatever its size. -/
def asInt? : FieldValue → Option Int64
  | int n => some n
  | _ => none

/-- Numeric equality: no NaN equals another, and both zeros are equal. -/
def agrees : FieldValue → FieldValue → Bool
  | float x, float y => x.toFloat == y.toFloat
  | int m, int n => m == n
  | bool a, bool b => a == b
  | bytes xs, bytes ys => xs == ys
  | _, _ => false

end FieldValue

end SeriesLoad
