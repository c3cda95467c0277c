import SeriesLoad.Powers
import SeriesLoad.Text.Digits

/-!
# Integers in decimal text

`read` takes an optional sign and one or more ASCII digits, and checks the number against a range
while it is read, so that of a number that is too large and a wrong character behind it the number
is reported.
-/

namespace SeriesLoad.Text.Integer

/-- Why a text is no integer of a range. -/
inductive Fault where
  | empty
  | invalidDigit
  | tooLarge
  | tooSmall
deriving DecidableEq, Repr

/-- The words for a fault. -/
def Fault.message : Fault → String
  | .empty => "cannot parse integer from empty string"
  | .invalidDigit => "invalid digit found in string"
  | .tooLarge => "number too large to fit in target type"
  | .tooSmall => "number too small to fit in target type"

/-- A range of integers around zero. -/
structure Range where
  min : Int
  max : Int

/-- Signed 64-bit numbers. -/
def signed : Range := ⟨-2 ^ 63, 2 ^ 63 - 1⟩

/-- Unsigned 64-bit numbers. -/
def unsigned : Range := ⟨0, 2 ^ 64 - 1⟩

/-- Digits after a number already read, up to a limit; `fault` is that of passing it. -/
def digits (limit : Nat) (fault : Fault) : Nat → List Char → Except Fault Nat
  | n, [] => .ok n
  | n, c :: rest =>
    if c.isDigit then
      let next := n * 10 + digitValue c
      if limit < next then .error fault else digits limit fault next rest
    else .error .invalidDigit

/-- Reads an integer of a range. A minus sign is only a sign where there are negative numbers. -/
def read (r : Range) : List Char → Except Fault Int
  | [] => .error .empty
  | ['+'] | ['-'] => .error .invalidDigit
  | '+' :: ds => (digits r.max.toNat .tooLarge 0 ds).map Int.ofNat
  | '-' :: ds =>
    if r.min < 0 then (digits (-r.min).toNat .tooSmall 0 ds).map fun n => -Int.ofNat n
    else .error .invalidDigit
  | ds => (digits r.max.toNat .tooLarge 0 ds).map Int.ofNat

end SeriesLoad.Text.Integer
