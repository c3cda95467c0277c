import Mathlib.Tactic.SplitIfs
import SeriesLoad.Proofs.Text.Numerals
import SeriesLoad.Proofs.Time.Arithmetic
import SeriesLoad.Proofs.Time.Calendar
import SeriesLoad.Time.Rfc3339

/-!
# Reading and writing RFC 3339 text

A text that `parse` accepts names a day of the years up to 9999, so that the instant read is far
from the end of the range of instants (`exactNanos_of_parse`).

**An instant that is not in a leap second is read back from what `render` writes of it**, if its
year has four digits (`parse_render`). Each reader takes exactly what its writer wrote and leaves
the rest; for the fraction the rest has to start with something that is no digit.
-/

namespace SeriesLoad

theorem Except.bind_eq_ok {ε α β : Type} {x : Except ε α} {f : α → Except ε β} {b : β} :
    x >>= f = .ok b ↔ ∃ a, x = .ok a ∧ f a = .ok b := by
  cases x with
  | error e => simp [bind, Except.bind]
  | ok a => simp [bind, Except.bind]

theorem Text.digitValue_le {c : Char} (h : c.isDigit = true) : Text.digitValue c ≤ 9 := by
  obtain ⟨-, hle⟩ := Char.isDigit_iff_toNat.mp h
  have hzero : '0'.toNat = 48 := rfl
  have hnine : '9'.toNat = 57 := rfl
  rw [Text.digitValue]
  omega

namespace Rfc3339

/-! ## What can be read -/

theorem digits_lt {count n m : Nat} {cs rest : List Char}
    (h : digits count n cs = .ok (m, rest)) : m < (n + 1) * 10 ^ count := by
  induction count generalizing n cs with
  | zero =>
    cases h
    omega
  | succ count ih =>
    cases cs with
    | nil => simp [digits] at h
    | cons c cs =>
      rw [digits] at h
      split_ifs at h with hdigit
      have hvalue := Text.digitValue_le hdigit
      calc m < (n * 10 + Text.digitValue c + 1) * 10 ^ count := ih h
        _ ≤ ((n + 1) * 10) * 10 ^ count := Nat.mul_le_mul_right _ (by omega)
        _ = (n + 1) * 10 ^ (count + 1) := by rw [Nat.mul_assoc, Nat.pow_succ']

theorem date_eq_ok {cs rest : List Char} {d : Date} (h : date cs = .ok (d, rest)) :
    d.isValid = true ∧ 0 ≤ d.year ∧ d.year ≤ 9999 := by
  obtain ⟨⟨year, cs₁⟩, hyear, h⟩ := Except.bind_eq_ok.mp h
  obtain ⟨⟨_, cs₂⟩, _, h⟩ := Except.bind_eq_ok.mp h
  obtain ⟨⟨month, cs₃⟩, _, h⟩ := Except.bind_eq_ok.mp h
  obtain ⟨⟨_, cs₄⟩, _, h⟩ := Except.bind_eq_ok.mp h
  obtain ⟨⟨day, cs₅⟩, _, h⟩ := Except.bind_eq_ok.mp h
  have hlt := digits_lt hyear
  simp only at h
  split_ifs at h with hvalid
  cases h
  refine ⟨hvalid, ?_, ?_⟩ <;> simp only <;> omega

/-- A text that was read names a day of the years up to 9999 and a time of that day, in a zone that
is less than a day off. -/
theorem parse_eq_ok {s : String} {t : Instant} (h : parse s = .ok t) :
    ∃ (d : Date) (hour minute second nanos : Nat) (ahead : Int),
      d.isValid = true ∧ 0 ≤ d.year ∧ d.year ≤ 9999 ∧ hour < 24 ∧ minute < 60 ∧ second < 60
      ∧ ahead.natAbs < 86400
      ∧ Instant.ofParts? (d.epochDay * 86400 + hour * 3600 + minute * 60 + second - ahead) nanos =
        some t := by
  unfold parse at h
  simp only at h
  split_ifs at h
  obtain ⟨⟨d, cs₁⟩, hdate, h⟩ := Except.bind_eq_ok.mp h
  obtain ⟨⟨_, cs₂⟩, _, h⟩ := Except.bind_eq_ok.mp h
  obtain ⟨⟨⟨hour, minute, second⟩, cs₃⟩, _, h⟩ := Except.bind_eq_ok.mp h
  obtain ⟨⟨nanos, cs₄⟩, _, h⟩ := Except.bind_eq_ok.mp h
  simp only at h
  split_ifs at h with htime
  obtain ⟨⟨ahead, cs₅⟩, _, h⟩ := Except.bind_eq_ok.mp h
  simp only at h
  split_ifs at h with htrailing hahead
  obtain ⟨hvalid, hmin, hmax⟩ := date_eq_ok hdate
  simp only [Bool.not_eq_true', Bool.not_eq_false, Bool.and_eq_true, decide_eq_true_eq] at htime
  obtain ⟨⟨hhour, hminute⟩, hsecond⟩ := htime
  split at h
  · rename_i t' hparts
    cases h
    exact ⟨d, hour, minute, _, _, ahead, hvalid, hmin, hmax, hhour, hminute, hsecond,
      Nat.lt_of_not_le hahead, hparts⟩
  · cases h

/-- An instant that was read is nowhere near the end of the range of instants. -/
theorem exactNanos_of_parse {s : String} {t : Instant} (h : parse s = .ok t) :
    t.exactNanos ≤ Instant.maxNanos - 2 * nanosPerSecond := by
  obtain ⟨d, hour, minute, second, nanos, ahead, hvalid, -, hyear, hhour, hminute, hsecond, hahead,
    hparts⟩ := parse_eq_ok h
  have hday := Date.epochDay_le hvalid hyear
  have hlt := t.nanos_lt
  unfold Instant.ofParts? at hparts
  split_ifs at hparts
  cases hparts
  simp only [Instant.exactNanos, Instant.maxNanos, nanosPerSecond] at *
  omega

/-- Nor is it anywhere near the start. -/
theorem le_exactNanos_of_parse {s : String} {t : Instant} (h : parse s = .ok t) :
    Instant.minNanos + 86400 * nanosPerSecond ≤ t.exactNanos := by
  obtain ⟨d, hour, minute, second, nanos, ahead, hvalid, hyear, -, hhour, hminute, hsecond, hahead,
    hparts⟩ := parse_eq_ok h
  have hday := Date.le_epochDay hvalid hyear
  unfold Instant.ofParts? at hparts
  split_ifs at hparts
  cases hparts
  simp only [Instant.exactNanos, Instant.minNanos, nanosPerSecond] at *
  omega

/-! ## What is written is read back -/

theorem digits_append {ds : List Char} (h : ∀ d ∈ ds, d.isDigit = true) (n : Nat)
    (rest : List Char) : digits ds.length n (ds ++ rest) = .ok (Text.ofDigits n ds, rest) := by
  induction ds generalizing n with
  | nil => rfl
  | cons d ds ih =>
    obtain ⟨hd, hds⟩ := List.forall_mem_cons.mp h
    rw [List.length_cons, List.cons_append, digits, if_pos hd, ih hds, Text.ofDigits_cons]

theorem digits_padded {width n : Nat} (hwidth : 0 < width) (h : n < 10 ^ width)
    (rest : List Char) : digits width 0 (Text.padded width n ++ rest) = .ok (n, rest) := by
  have hall : ∀ d ∈ Text.padded width n, d.isDigit = true :=
    fun d hd => Text.isDigit_of_mem_padded hd
  have hdigits := digits_append hall 0 rest
  rwa [Text.length_padded hwidth h, Text.ofDigits_padded] at hdigits

theorem separator_cons {isGood : Char → Bool} {c : Char} (h : isGood c = true) (rest : List Char) :
    separator isGood (c :: rest) = .ok ((), rest) := by
  rw [separator, if_pos h]

theorem date_chars {d : Date} (hvalid : d.isValid = true) (hmin : 0 ≤ d.year) (hmax : d.year ≤ 9999)
    (rest : List Char) : date (d.chars ++ rest) = .ok (d, rest) := by
  obtain ⟨-, hmonth, -, hday⟩ := Date.month_of_isValid hvalid
  have hchars : d.chars ++ rest = Text.padded 4 d.year.toNat ++ '-' ::
      (Text.padded 2 d.month ++ '-' :: (Text.padded 2 d.day ++ rest)) := by
    simp [Date.chars, Date.yearChars, hmin, hmax]
  rw [hchars]
  refine Except.bind_eq_ok.mpr ⟨_, digits_padded (by decide) (by omega) _, ?_⟩
  refine Except.bind_eq_ok.mpr ⟨_, separator_cons (by decide) _, ?_⟩
  refine Except.bind_eq_ok.mpr ⟨_, digits_padded (by decide) (by omega) _, ?_⟩
  refine Except.bind_eq_ok.mpr ⟨_, separator_cons (by decide) _, ?_⟩
  refine Except.bind_eq_ok.mpr ⟨_, digits_padded (by decide) (by omega) _, ?_⟩
  simp only [Int.toNat_of_nonneg hmin]
  exact if_pos hvalid

theorem clock_chars {hour minute second : Nat} (hhour : hour < 100) (hminute : minute < 100)
    (hsecond : second < 100) (rest : List Char) :
    clock (Text.padded 2 hour ++ ':' :: (Text.padded 2 minute ++ ':' ::
      (Text.padded 2 second ++ rest))) = .ok ((hour, minute, second), rest) := by
  refine Except.bind_eq_ok.mpr ⟨_, digits_padded (by decide) hhour _, ?_⟩
  refine Except.bind_eq_ok.mpr ⟨_, separator_cons (by decide) _, ?_⟩
  refine Except.bind_eq_ok.mpr ⟨_, digits_padded (by decide) hminute _, ?_⟩
  refine Except.bind_eq_ok.mpr ⟨_, separator_cons (by decide) _, ?_⟩
  exact Except.bind_eq_ok.mpr ⟨_, digits_padded (by decide) hsecond _, rfl⟩

theorem fraction_padded {width n : Nat} (hwidth : 0 < width) (hle : width ≤ 9)
    (h : n < 10 ^ width) {c : Char} (hc : c.isDigit = false) (rest : List Char) :
    fraction ('.' :: (Text.padded width n ++ c :: rest)) =
      .ok (n * 10 ^ (9 - width), c :: rest) := by
  have hdigits : ∀ d ∈ Text.padded width n, d.isDigit = true :=
    fun d hd => Text.isDigit_of_mem_padded hd
  have hlength := Text.length_padded hwidth h
  have hvalue := Text.ofDigits_padded width n
  cases hds : Text.padded width n with
  | nil => simp [hds] at hlength; omega
  | cons d ds =>
    rw [hds] at hdigits hlength hvalue
    have htake : ((d :: ds) ++ c :: rest).takeWhile Char.isDigit = d :: ds := by
      rw [List.takeWhile_append_of_pos hdigits, List.takeWhile_cons_of_neg (by simp [hc]),
        List.append_nil]
    have hdrop : ((d :: ds) ++ c :: rest).dropWhile Char.isDigit = c :: rest := by
      rw [List.dropWhile_append_of_pos hdigits, List.dropWhile_cons_of_neg (by simp [hc])]
    rw [List.cons_append] at htake hdrop ⊢
    have htaken : (d :: ds).take 9 = d :: ds := List.take_of_length_le (by omega)
    simp only [fraction, hdigits d List.mem_cons_self, if_true, htake, hdrop, htaken, hvalue,
      hlength]

theorem fraction_chars {nanos : Nat} (h : nanos < nanosPerSecond) {c : Char}
    (hc : c.isDigit = false) (hpoint : c ≠ '.') (rest : List Char) :
    fraction (fractionChars nanos ++ c :: rest) = .ok (nanos, c :: rest) := by
  simp only [nanosPerSecond] at h
  simp only [fractionChars, beq_iff_eq]
  split_ifs with hzero hmillis hmicros
  · subst hzero
    rw [List.nil_append, fraction]
    exact fun _ heq => hpoint (List.cons.inj heq).1
  · rw [List.cons_append, fraction_padded (by decide) (by decide) (by omega) hc]
    congr 2
    omega
  · rw [List.cons_append, fraction_padded (by decide) (by decide) (by omega) hc]
    congr 2
    omega
  · rw [List.cons_append, fraction_padded (by decide) (by decide) (by omega) hc]
    congr 2
    omega

theorem length_le_byteLength (cs : List Char) : cs.length ≤ byteLength cs := by
  induction cs with
  | nil => exact Nat.le_refl 0
  | cons c cs ih =>
    have := c.utf8Size_pos
    simp only [byteLength, List.foldr_cons, List.length_cons] at *
    omega

end Rfc3339

theorem Instant.isValid_date (t : Instant) : t.date.isValid = true := Date.isValid_ofEpochDay _

theorem Instant.epochDay_date (t : Instant) : t.date.epochDay = t.epochDay :=
  Date.epochDay_ofEpochDay _

theorem Date.length_chars {d : Date} (hvalid : d.isValid = true) (hmin : 0 ≤ d.year)
    (hmax : d.year ≤ 9999) : d.chars.length = 10 := by
  obtain ⟨-, hmonth, -, hday⟩ := month_of_isValid hvalid
  have hyear : (Text.padded 4 d.year.toNat).length = 4 := Text.length_padded (by decide) (by omega)
  have hmonth' : (Text.padded 2 d.month).length = 2 := Text.length_padded (by decide) (by omega)
  have hday' : (Text.padded 2 d.day).length = 2 := Text.length_padded (by decide) (by omega)
  simp [chars, yearChars, hmin, hmax, hyear, hmonth', hday']

namespace Rfc3339

/-- What is written outside leap seconds, part by part. -/
theorem chars_eq {t : Instant} (hleap : t.isLeap = false) {second : Nat}
    (hsecond : t.secondOfDay = second) :
    chars t = t.date.chars ++ 'T' :: (Text.padded 2 (second / 3600) ++ ':' ::
      (Text.padded 2 (second / 60 % 60) ++ ':' ::
        (Text.padded 2 (second % 60) ++ (fractionChars t.nanos ++ ['Z'])))) := by
  have hnanos := Instant.nanos_lt_of_isLeap_eq_false hleap
  simp [chars, hsecond, hleap, Nat.mod_eq_of_lt hnanos]

theorem le_byteLength_chars {t : Instant} (hleap : t.isLeap = false) (hmin : 0 ≤ t.date.year)
    (hmax : t.date.year ≤ 9999) {second : Nat} (hsecond : t.secondOfDay = second)
    (hlt : second < 86400) : 19 ≤ byteLength (chars t) := by
  have hdate := Date.length_chars t.isValid_date hmin hmax
  have hhour : (Text.padded 2 (second / 3600)).length = 2 :=
    Text.length_padded (by decide) (by omega)
  have hminute : (Text.padded 2 (second / 60 % 60)).length = 2 :=
    Text.length_padded (by decide) (by omega)
  have hlast : (Text.padded 2 (second % 60)).length = 2 := Text.length_padded (by decide) (by omega)
  have hle := length_le_byteLength (chars t)
  simp only [chars_eq hleap hsecond, List.length_append, List.length_cons, hdate, hhour, hminute,
    hlast] at hle ⊢
  omega

/-- An instant of a year of four digits is read back from its text. -/
theorem parse_render {t : Instant} (hleap : t.isLeap = false) (hmin : 0 ≤ t.date.year)
    (hmax : t.date.year ≤ 9999) : parse (render t) = .ok t := by
  have hnanos := Instant.nanos_lt_of_isLeap_eq_false hleap
  obtain ⟨second, hsecond⟩ : ∃ second : Nat, t.secondOfDay = second :=
    ⟨t.secondOfDay.toNat, by unfold Instant.secondOfDay; omega⟩
  have hlt : second < 86400 := by
    unfold Instant.secondOfDay at hsecond
    omega
  have hlength : ¬ byteLength (chars t) < 19 :=
    Nat.not_lt_of_le (le_byteLength_chars hleap hmin hmax hsecond hlt)
  have hleapSecond : leapSecond (second % 60) t.nanos = (second % 60, t.nanos) :=
    if_neg (by rw [beq_iff_eq]; omega)
  have hclock : (!(decide (second / 3600 < 24) && decide (second / 60 % 60 < 60)
      && decide (second % 60 < 60))) = false := by
    simp only [Bool.not_eq_false', Bool.and_eq_true, decide_eq_true_eq]
    omega
  -- the day and the time of day make up the seconds of the instant
  have hsecs : t.date.epochDay * 86400 + (second / 3600 : Nat) * 3600
      + (second / 60 % 60 : Nat) * 60 + (second % 60 : Nat) - 0 = t.secs := by
    rw [t.epochDay_date, Instant.epochDay]
    unfold Instant.secondOfDay at hsecond
    omega
  have hparts : Instant.ofParts? t.secs t.nanos = some t :=
    Instant.ofParts?_eq_some ⟨⟨t.first_le_secs, t.secs_le_last⟩, t.nanos_lt, t.leap_secs⟩
  unfold parse
  simp only [render, String.toList_ofList, if_neg hlength]
  rw [chars_eq hleap hsecond]
  refine Except.bind_eq_ok.mpr ⟨_, date_chars t.isValid_date hmin hmax _, ?_⟩
  refine Except.bind_eq_ok.mpr ⟨_, separator_cons (by decide) _, ?_⟩
  refine Except.bind_eq_ok.mpr ⟨_, clock_chars (by omega) (by omega) (by omega) _, ?_⟩
  refine Except.bind_eq_ok.mpr ⟨_, fraction_chars hnanos (by decide) (by decide) _, ?_⟩
  simp only [hleapSecond, hclock]
  refine Except.bind_eq_ok.mpr ⟨(0, []), rfl, ?_⟩
  simp only [hsecs, hparts]
  rfl

end Rfc3339

end SeriesLoad
