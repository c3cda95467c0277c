import SeriesLoad.Text.Blank
import SeriesLoad.Text.Integer
import SeriesLoad.Time.Span

/-!
# Spans as text

A span is written as a whole number and a unit: `ms`, `s`, `m` or `h`, seconds if there is none.
`Span.read?` takes such a text with blanks around it and accepts positive spans only.
-/

namespace SeriesLoad.Span

/-- The units, with their milliseconds. A unit that ends in another one stands before it. -/
def units : List (List Char × Int) :=
  [(['m', 's'], 1), (['h'], 3600000), (['m'], 60000), (['s'], 1000), ([], 1000)]

/-- A text without an ending, if it has it. -/
def withoutEnding? (ending cs : List Char) : Option (List Char) :=
  if ending.isSuffixOf cs then some (cs.take (cs.length - ending.length)) else none

/-- The number and the milliseconds of the unit, by the first unit that the text ends in. -/
def splitUnit (cs : List Char) : List Char × Int :=
  (units.findSome? fun (unit, millis) => (withoutEnding? unit cs).map (·, millis)).getD (cs, 1000)

/-- Reads a text as a positive span. -/
def read? (s : String) : Option Span :=
  let (number, millis) := splitUnit (Text.trim s.toList)
  match Text.Integer.read Text.Integer.signed number with
  | .ok n => if 0 < n then ofMillis? (n * millis) else none
  | .error _ => none

end SeriesLoad.Span
