import Mathlib.Tactic.SplitIfs
import SeriesLoad.Proofs.Text.Numerals
import SeriesLoad.Value

/-!
# Plain words

A word is plain if it has neither a comma nor a newline, so that it can stand in a cell of a table.
A numeral has digits, points and minus signs alone, so it is plain. **The texts of integers are
numerals, and so are those of doubles, but for the words for what is no number**
(`isNumeral_text_int`, `text_float_cases`).
-/

namespace SeriesLoad

/-- A word that can stand in a cell: it has no comma and no newline. -/
def Text.isPlain (cs : List Char) : Bool := cs.all fun c => c != ',' && c != '\n'

/-- A name is made of letters, digits and underscores. -/
def Text.isName (cs : List Char) : Bool := cs.all fun c => c.isAlphanum || c == '_'

/-- A numeral is made of digits, points and minus signs. -/
def Text.isNumeral (cs : List Char) : Bool := cs.all fun c => c.isDigit || c == '.' || c == '-'

namespace Text

theorem not_mem_of_isName {cs : List Char} (h : isName cs = true) {c : Char}
    (hc : (c.isAlphanum || c == '_') = false) : c ∉ cs := by
  intro hmem
  rw [List.all_eq_true.mp h c hmem] at hc
  cases hc

theorem comma_of_isPlain {cs : List Char} (h : isPlain cs = true) : ',' ∉ cs := by
  intro hmem
  have := List.all_eq_true.mp h _ hmem
  simp at this

theorem newline_of_isPlain {cs : List Char} (h : isPlain cs = true) : '\n' ∉ cs := by
  intro hmem
  have := List.all_eq_true.mp h _ hmem
  simp at this

theorem isPlain_append {cs ds : List Char} :
    isPlain (cs ++ ds) = true ↔ isPlain cs = true ∧ isPlain ds = true := by
  rw [isPlain, List.all_append, Bool.and_eq_true]
  rfl

theorem isPlain_cons {c : Char} {cs : List Char} :
    isPlain (c :: cs) = true ↔ (c ≠ ',' ∧ c ≠ '\n') ∧ isPlain cs = true := by
  simp [isPlain]

theorem isPlain_of_isName {cs : List Char} (h : isName cs = true) : isPlain cs = true := by
  refine List.all_eq_true.mpr fun c hc => ?_
  have hcomma : c ≠ ',' := by
    rintro rfl
    exact not_mem_of_isName h (by decide) hc
  have hnewline : c ≠ '\n' := by
    rintro rfl
    exact not_mem_of_isName h (by decide) hc
  simp [hcomma, hnewline]

theorem not_mem_of_isNumeral {cs : List Char} (h : isNumeral cs = true) {c : Char}
    (hc : (c.isDigit || c == '.' || c == '-') = false) : c ∉ cs := by
  intro hmem
  rw [List.all_eq_true.mp h c hmem] at hc
  cases hc

theorem isPlain_of_isNumeral {cs : List Char} (h : isNumeral cs = true) : isPlain cs = true := by
  refine List.all_eq_true.mpr fun c hc => ?_
  have hcomma : c ≠ ',' := by
    rintro rfl
    exact not_mem_of_isNumeral h (by decide) hc
  have hnewline : c ≠ '\n' := by
    rintro rfl
    exact not_mem_of_isNumeral h (by decide) hc
  simp [hcomma, hnewline]

theorem isNumeral_append {cs ds : List Char} :
    isNumeral (cs ++ ds) = true ↔ isNumeral cs = true ∧ isNumeral ds = true := by
  rw [isNumeral, List.all_append, Bool.and_eq_true]
  rfl

theorem isNumeral_cons {c : Char} {cs : List Char} :
    isNumeral (c :: cs) = true ↔
      (c.isDigit || c == '.' || c == '-') = true ∧ isNumeral cs = true := by
  rw [isNumeral, List.all_cons, Bool.and_eq_true]
  rfl

theorem isNumeral_of_isDigit {cs : List Char} (h : ∀ c ∈ cs, c.isDigit = true) :
    isNumeral cs = true :=
  List.all_eq_true.mpr fun c hc => by rw [h c hc, Bool.true_or, Bool.true_or]

theorem isNumeral_repr (n : Nat) : isNumeral (Nat.repr n).toList = true := by
  rw [Nat.toList_repr]
  exact isNumeral_of_isDigit fun c hc => isDigit_of_mem_toDigits hc

theorem isNumeral_intRepr (n : Int) : isNumeral (Int.repr n).toList = true := by
  cases n with
  | ofNat n => exact isNumeral_repr n
  | negSucc n =>
    rw [Int.repr, String.toList_append]
    exact isNumeral_append.mpr ⟨by decide, isNumeral_repr (n + 1)⟩

theorem isPlain_repr (n : Nat) : isPlain (Nat.repr n).toList = true :=
  isPlain_of_isNumeral (isNumeral_repr n)

theorem isPlain_intRepr (n : Int) : isPlain (Int.repr n).toList = true :=
  isPlain_of_isNumeral (isNumeral_intRepr n)

end Text

namespace Decimal

theorem isNumeral_replicate_zero (n : Nat) : Text.isNumeral (List.replicate n '0') = true :=
  Text.isNumeral_of_isDigit fun c hc => by
    rw [List.eq_of_mem_replicate hc]
    rfl

theorem isNumeral_pointAt {digits : List Char} (h : ∀ c ∈ digits, c.isDigit = true)
    (whole : Int) : Text.isNumeral (pointAt digits whole false) = true := by
  have hdigits := Text.isNumeral_of_isDigit h
  unfold pointAt
  simp only [Bool.false_eq_true, if_false, List.append_nil]
  split_ifs
  · exact Text.isNumeral_cons.mpr ⟨by decide, Text.isNumeral_cons.mpr ⟨by decide,
      Text.isNumeral_append.mpr ⟨isNumeral_replicate_zero _, hdigits⟩⟩⟩
  · exact Text.isNumeral_append.mpr ⟨hdigits, isNumeral_replicate_zero _⟩
  · refine Text.isNumeral_append.mpr ⟨?_, Text.isNumeral_cons.mpr ⟨by decide, ?_⟩⟩
    · exact Text.isNumeral_of_isDigit fun c hc => h c (List.mem_of_mem_take hc)
    · exact Text.isNumeral_of_isDigit fun c hc => h c (List.mem_of_mem_drop hc)

theorem pointAt_ne_nil {digits : List Char} (h : digits ≠ []) (whole : Int) (pointZero : Bool) :
    pointAt digits whole pointZero ≠ [] := by
  unfold pointAt
  dsimp only
  split_ifs <;> simp [h]

end Decimal

namespace FieldValue

theorem digits_eq (s : Decimal.Scientific) :
    ∃ whole, layout.digits s = Decimal.pointAt (Nat.toDigits 10 s.significand) whole false := by
  unfold Decimal.Layout.digits
  simp only [layout, Bool.or_true, if_true]
  exact ⟨_, rfl⟩

theorem isNumeral_digits (s : Decimal.Scientific) : Text.isNumeral (layout.digits s) = true := by
  obtain ⟨whole, hdigits⟩ := digits_eq s
  rw [hdigits]
  exact Decimal.isNumeral_pointAt (fun c hc => Text.isDigit_of_mem_toDigits hc) whole

theorem digits_ne_nil (s : Decimal.Scientific) : layout.digits s ≠ [] := by
  obtain ⟨whole, hdigits⟩ := digits_eq s
  rw [hdigits]
  exact Decimal.pointAt_ne_nil Nat.toDigits_ne_nil whole false

/-- The text of a double is a numeral, or says that it is no number or infinite. -/
theorem text_float_cases (x : Binary64) :
    (text (.float x)).toList ∈ ["NaN".toList, "inf".toList, "-inf".toList]
      ∨ Text.isNumeral (text (.float x)).toList = true ∧ (text (.float x)).toList ≠ [] := by
  unfold text Decimal.Layout.render
  simp only
  split_ifs
  · exact .inl (by decide)
  · exact .inl (by decide)
  · exact .inl (by decide)
  · right
    rw [String.toList_ofList]
    exact ⟨Text.isNumeral_cons.mpr ⟨by decide, isNumeral_digits _⟩, List.cons_ne_nil _ _⟩
  · right
    rw [String.toList_ofList]
    exact ⟨isNumeral_digits _, digits_ne_nil _⟩

theorem isPlain_text_float (x : Binary64) : Text.isPlain (text (.float x)).toList = true := by
  rcases text_float_cases x with hword | ⟨hnumeral, -⟩
  · have hwords : ∀ word ∈ ["NaN".toList, "inf".toList, "-inf".toList],
        Text.isPlain word = true := by decide
    exact hwords _ hword
  · exact Text.isPlain_of_isNumeral hnumeral

theorem isNumeral_text_int (n : Int64) : Text.isNumeral (text (.int n)).toList = true :=
  Text.isNumeral_intRepr n.toInt

theorem isPlain_text_int (n : Int64) : Text.isPlain (text (.int n)).toList = true :=
  Text.isPlain_of_isNumeral (isNumeral_text_int n)

end FieldValue

end SeriesLoad
