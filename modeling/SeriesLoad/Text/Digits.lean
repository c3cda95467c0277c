/-!
# Decimal digits

Numbers as rows of decimal digits, and back. `padded` fills a number up to a width with zeros, and
`ofDigits` reads a row of digits behind digits that were read before. Digits are those of ASCII.
-/

namespace SeriesLoad.Text

/-- The number that a digit stands for. -/
def digitValue (c : Char) : Nat := c.toNat - '0'.toNat

/-- The number that digits stand for, behind a number already read. -/
def ofDigits (n : Nat) (ds : List Char) : Nat := ds.foldl (fun n d => n * 10 + digitValue d) n

/-- The digits of a number, with zeros in front up to a width. -/
def padded (width n : Nat) : List Char :=
  let digits := Nat.toDigits 10 n
  List.replicate (width - digits.length) '0' ++ digits

@[simp] theorem ofDigits_nil (n : Nat) : ofDigits n [] = n := by simp [ofDigits]

@[simp] theorem ofDigits_cons (n : Nat) (d : Char) (ds : List Char) :
    ofDigits n (d :: ds) = ofDigits (n * 10 + digitValue d) ds := by simp [ofDigits]

theorem ofDigits_append (n : Nat) (ds es : List Char) :
    ofDigits n (ds ++ es) = ofDigits (ofDigits n ds) es := by simp [ofDigits]

end SeriesLoad.Text
