import SeriesLoad.Json.Reader
import SeriesLoad.Value

/-!
# Field values as JSON

A number is written as a number, a truth value as one, and bytes as the array of their values. The
text does not name the kind of a value, so reading goes by its form: every number becomes a double,
even a whole one, and an array has to hold bytes.
-/

namespace SeriesLoad.FieldValue

/-- A field value as JSON. -/
def toJson : FieldValue → Json
  | float x => .float x.toFloat
  | int n => .int n.toInt
  | bool b => .bool b
  | bytes bs => .arr (bs.map fun b => .int b.toNat)

/-- Why a text is no field value. -/
inductive ReadError where
  /-- The text is not a JSON document. -/
  | notJson
  /-- The document has not the form of a field value. -/
  | noVariant
deriving DecidableEq, Repr

/-- What is said of a document that has not the form of a field value. -/
def noVariantMessage : String :=
  "data did not match any variant of untagged enum FieldValue"

/-- A whole number from 0 to 255 as a byte. -/
def byte? : Json → Option UInt8
  | .int n => if 0 ≤ n ∧ n ≤ 255 then some (UInt8.ofNat n.toNat) else none
  | _ => none

/-- The field value that a document has the form of. -/
def ofJson? : Json → Option FieldValue
  | .int n => some (float (.ofFloat (Float.ofInt n)))
  | .float x => some (float (.ofFloat x))
  | .bool b => some (bool b)
  | .arr items => (items.mapM byte?).map bytes
  | _ => none

/-- Reads a text as a field value. The form of the document counts before what stands behind it. -/
def ofText (s : String) : Except ReadError FieldValue :=
  match Json.document s.toList with
  | none => .error .notJson
  | some (j, rest) =>
    match ofJson? j with
    | none => .error .noVariant
    | some v => if Json.isBlankText rest then .ok v else .error .notJson

end SeriesLoad.FieldValue
