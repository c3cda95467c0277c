import SeriesLoad.Text.Integer

/-!
# Numerals read back

The decimal digits of a number read back as that number (`ofDigits_toDigits`), padded or not, and an
integer in range is read back from its text by `Integer.read` (`read_repr`).
-/

namespace SeriesLoad.Text

theorem isDigit_of_mem_toDigits {n : Nat} {c : Char} (h : c ∈ Nat.toDigits 10 n) :
    c.isDigit = true :=
  Nat.isDigit_of_mem_toDigits (by decide) (by decide) h

theorem ofDigits_toDigits (n : Nat) : ofDigits 0 (Nat.toDigits 10 n) = n := by
  have h := Nat.ofDigitChars_ten_toDigits (n := n)
  rw [ofDigits]
  simpa [Nat.ofDigitChars, digitValue, Nat.mul_comm] using h

theorem ofDigits_replicate_zero (count : Nat) : ofDigits 0 (List.replicate count '0') = 0 := by
  induction count with
  | zero => rfl
  | succ count ih => rw [List.replicate_succ, ofDigits_cons]; exact ih

theorem ofDigits_padded (width n : Nat) : ofDigits 0 (padded width n) = n := by
  rw [padded, ofDigits_append, ofDigits_replicate_zero, ofDigits_toDigits]

theorem isDigit_of_mem_padded {width n : Nat} {c : Char} (h : c ∈ padded width n) :
    c.isDigit = true := by
  rcases List.mem_append.mp h with h | h
  · rw [List.eq_of_mem_replicate h]
    rfl
  · exact isDigit_of_mem_toDigits h

theorem length_padded {width n : Nat} (hwidth : 0 < width) (h : n < 10 ^ width) :
    (padded width n).length = width := by
  have hle : (Nat.toDigits 10 n).length ≤ width :=
    (Nat.length_toDigits_le_iff (by decide) hwidth).mpr h
  rw [padded, List.length_append, List.length_replicate]
  omega

theorem le_ofDigits (n : Nat) (ds : List Char) : n ≤ ofDigits n ds := by
  induction ds generalizing n with
  | nil => simp
  | cons d ds ih =>
    rw [ofDigits_cons]
    exact Nat.le_trans (by omega) (ih _)

namespace Integer

theorem digits_eq_ok {limit : Nat} {fault : Fault} {n : Nat} {ds : List Char}
    (hds : ∀ d ∈ ds, d.isDigit = true) (hle : ofDigits n ds ≤ limit) :
    digits limit fault n ds = .ok (ofDigits n ds) := by
  induction ds generalizing n with
  | nil => rfl
  | cons d ds ih =>
    obtain ⟨hd, hrest⟩ := List.forall_mem_cons.mp hds
    rw [ofDigits_cons] at hle ⊢
    have hnext := le_ofDigits (n * 10 + digitValue d) ds
    rw [digits, if_pos hd]
    simp only [if_neg (Nat.not_lt_of_le (Nat.le_trans hnext hle))]
    exact ih hrest hle

/-- Without a sign in front the digits are read as they stand. -/
theorem read_of_isDigit {c : Char} (hc : c.isDigit = true) (r : Range) (cs : List Char) :
    read r (c :: cs) = (digits r.max.toNat .tooLarge 0 (c :: cs)).map Int.ofNat := by
  have hplus : c ≠ '+' := by
    rintro rfl
    exact absurd hc (by decide)
  have hminus : c ≠ '-' := by
    rintro rfl
    exact absurd hc (by decide)
  unfold read
  split <;> simp_all

theorem read_minus {c : Char} {r : Range} (hr : r.min < 0) (cs : List Char) :
    read r ('-' :: c :: cs) =
      (digits (-r.min).toNat .tooSmall 0 (c :: cs)).map fun n => -Int.ofNat n := by
  simp [read, hr]

theorem digits_toDigits {limit n : Nat} {fault : Fault} (h : n ≤ limit) :
    digits limit fault 0 (Nat.toDigits 10 n) = .ok n := by
  rw [digits_eq_ok (fun d hd => isDigit_of_mem_toDigits hd) (by rwa [ofDigits_toDigits]),
    ofDigits_toDigits]

theorem exists_toDigits (n : Nat) :
    ∃ c cs, Nat.toDigits 10 n = c :: cs ∧ c.isDigit = true := by
  cases hcs : Nat.toDigits 10 n with
  | nil => exact absurd hcs Nat.toDigits_ne_nil
  | cons c cs => exact ⟨c, cs, rfl, isDigit_of_mem_toDigits (n := n) (hcs ▸ List.mem_cons_self)⟩

/-- An integer in range is read back from its text. -/
theorem read_repr {r : Range} {n : Int} (hmin : r.min ≤ n) (hmax : n ≤ r.max) :
    read r (Int.repr n).toList = .ok n := by
  cases n with
  | ofNat n =>
    obtain ⟨c, cs, hcs, hc⟩ := exists_toDigits n
    have hle : (n : Int) ≤ r.max := hmax
    have hdigits : digits r.max.toNat .tooLarge 0 (Nat.toDigits 10 n) = .ok n :=
      digits_toDigits (by omega)
    rw [Int.repr, Nat.toList_repr]
    rw [hcs] at hdigits ⊢
    rw [read_of_isDigit hc, hdigits]
    rfl
  | negSucc n =>
    obtain ⟨c, cs, hcs, hc⟩ := exists_toDigits (n + 1)
    have hdigits : digits (-r.min).toNat .tooSmall 0 (Nat.toDigits 10 (n + 1)) = .ok (n + 1) :=
      digits_toDigits (by omega)
    rw [Int.repr, String.toList_append, Nat.toList_repr]
    rw [hcs] at hdigits ⊢
    rw [show "-".toList ++ c :: cs = '-' :: c :: cs from rfl, read_minus (by omega), hdigits]
    rfl

end Integer

end SeriesLoad.Text
