import Mathlib.Tactic.ByContra
import Mathlib.Tactic.IntervalCases
import Mathlib.Tactic.SplitIfs
import SeriesLoad.Time.Calendar

/-!
# Days and their names

Counting the days up to a named day is the inverse of naming a day with a given count: **every count
has a name, which is in the calendar and has that count** (`epochDay_ofEpochDay`,
`isValid_ofEpochDay`), and the next count has the name of the next day (`ofEpochDay_succ`).

A day of an era is taken apart into a century, four years in it, a year in these and a day in that
year. Each quotient of `ofEpochDay` is a sum over these parts but for a correction of one, and the
corrections cancel.
-/

namespace SeriesLoad.Date

/-! ## Bounds -/

theorem daysInMonth_le (year : Int) (month : Nat) : daysInMonth year month ≤ 31 := by
  unfold daysInMonth
  split <;> (try split) <;> omega

theorem month_of_isValid {d : Date} (h : d.isValid = true) :
    1 ≤ d.month ∧ d.month ≤ 12 ∧ 1 ≤ d.day ∧ d.day ≤ 31 := by
  simp only [isValid, Bool.and_eq_true, decide_eq_true_eq] at h
  have hle := daysInMonth_le d.year d.month
  have hmonth : 1 ≤ d.month ∧ d.month ≤ 12 := by
    by_contra hout
    have : daysInMonth d.year d.month = 0 := by
      unfold daysInMonth
      split <;> omega
    omega
  omega

theorem epochDay_le {d : Date} (h : d.isValid = true) (hyear : d.year ≤ 9999) :
    d.epochDay ≤ 2933000 := by
  obtain ⟨hmin, hmax, -, hday⟩ := month_of_isValid h
  have : daysBeforeMonth ((d.month + 9) % 12) ≤ 337 := by
    unfold daysBeforeMonth
    omega
  unfold epochDay
  simp only
  split_ifs <;> omega

theorem le_epochDay {d : Date} (h : d.isValid = true) (hyear : 0 ≤ d.year) :
    -720000 ≤ d.epochDay := by
  obtain ⟨-, -, hday, -⟩ := month_of_isValid h
  unfold epochDay
  simp only
  split_ifs <;> omega

/-! ## Days of an era -/

/-- The parts of a day of an era. Only a leap year has a day 365. -/
structure DayOfEra (n c q k d : Nat) : Prop where
  century : c ≤ 3
  fourYears : q ≤ 24
  year : k ≤ 3
  day : d ≤ 365
  leap : d = 365 → k = 3 ∧ (q < 24 ∨ c = 3)
  sum : n = 36524 * c + 1461 * q + 365 * k + d

theorem exists_dayOfEra {n : Nat} (h : n < 146097) : ∃ c q k d, DayOfEra n c q k d := by
  let c := min 3 (n / 36524)
  let q := (n - 36524 * c) / 1461
  let k := min 3 ((n - 36524 * c - 1461 * q) / 365)
  refine ⟨c, q, k, n - 36524 * c - 1461 * q - 365 * k, ?_, ?_, ?_, ?_, ?_, ?_⟩ <;> omega

theorem DayOfEra.yearOfEra {n c q k d : Nat} (h : DayOfEra n c q k d) :
    (n - n / 1460 + n / 36524 - n / 146096) / 365 = 100 * c + 4 * q + k := by
  obtain ⟨hc, hq, hk, hd, hleap, rfl⟩ := h
  have hfour : (36524 * c + 1461 * q + 365 * k + d) / 1460 =
      25 * c + q + if 1460 ≤ 24 * c + q + 365 * k + d then 1 else 0 := by
    split_ifs <;> omega
  have hcentury : (36524 * c + 1461 * q + 365 * k + d) / 36524 =
      c + if 36524 ≤ 1461 * q + 365 * k + d then 1 else 0 := by
    split_ifs <;> omega
  have hera : (36524 * c + 1461 * q + 365 * k + d) / 146096 =
      if 146096 ≤ 36524 * c + 1461 * q + 365 * k + d then 1 else 0 := by
    split_ifs <;> omega
  rw [hfour, hcentury, hera]
  split_ifs <;> omega

theorem DayOfEra.dayOfYear {n c q k d : Nat} (h : DayOfEra n c q k d) :
    n - (365 * (100 * c + 4 * q + k) + (100 * c + 4 * q + k) / 4 - (100 * c + 4 * q + k) / 100) =
      d := by
  obtain ⟨hc, hq, hk, -, -, rfl⟩ := h
  omega

/-- A day with a leap year's number is in a leap year; the calendar's year is one more, since the
day is in January or February. -/
theorem DayOfEra.isLeapYear {n c q k : Nat} (h : DayOfEra n c q k 365) (era : Int) :
    isLeapYear (era * 400 + (100 * c + 4 * q + k : Nat) + 1) = true := by
  obtain ⟨hk, hq⟩ := h.leap rfl
  have hc := h.century
  have hq' := h.fourYears
  simp only [Date.isLeapYear, Bool.and_eq_true, Bool.or_eq_true, bne_iff_ne, beq_iff_eq]
  omega

/-- The day with a number, counted from 0, in a year that starts in March. -/
def ofDayOfYear (year : Int) (d : Nat) : Date where
  year := year + (if 10 ≤ (5 * d + 2) / 153 then 1 else 0)
  month := if 10 ≤ (5 * d + 2) / 153 then (5 * d + 2) / 153 - 9 else (5 * d + 2) / 153 + 3
  day := d - daysBeforeMonth ((5 * d + 2) / 153) + 1

/-- The day with a given count, by the parts of its day of the era. -/
theorem DayOfEra.ofEpochDay_eq {n c q k d : Nat} (h : DayOfEra n c q k d) (era : Int) :
    ofEpochDay (era * 146097 + n - 719468) =
      ofDayOfYear (era * 400 + (100 * c + 4 * q + k : Nat)) d := by
  have hlt : n < 146097 := by
    obtain ⟨hc, hq, hk, hd, hleap, hsum⟩ := h
    omega
  have hera : (era * 146097 + n - 719468 + 719468) / 146097 = era := by omega
  have hday : ((era * 146097 + n - 719468 + 719468) % 146097).toNat = n := by omega
  simp only [ofEpochDay, ofDayOfYear, hera, hday, h.yearOfEra, h.dayOfYear]

theorem exists_parts (n : Int) : ∃ (era : Int) (c q k d : Nat),
    n = era * 146097 + (36524 * c + 1461 * q + 365 * k + d : Nat) - 719468
    ∧ DayOfEra (36524 * c + 1461 * q + 365 * k + d) c q k d
    ∧ ofEpochDay n = ofDayOfYear (era * 400 + (100 * c + 4 * q + k : Nat)) d := by
  obtain ⟨c, q, k, d, hparts⟩ := exists_dayOfEra (n := ((n + 719468) % 146097).toNat) (by omega)
  have hsum := hparts.sum
  have hn : n = (n + 719468) / 146097 * 146097 + ((n + 719468) % 146097).toNat - 719468 := by omega
  refine ⟨(n + 719468) / 146097, c, q, k, d, hsum ▸ hn, hsum ▸ hparts, ?_⟩
  rw [← hparts.ofEpochDay_eq, ← hn]

/-! ## Names and counts -/

/-- The count of a day of an era, whose year and month are counted from March. -/
theorem epochDay_mk (era : Int) {y m : Nat} (hy : y < 400) (hm : m ≤ 11) (day : Nat) :
    epochDay {
      year := era * 400 + y + (if 10 ≤ m then 1 else 0)
      month := if 10 ≤ m then m - 9 else m + 3
      day } =
    era * 146097 + (365 * y + y / 4 - y / 100 : Nat) + (daysBeforeMonth m + day) - 1 - 719468 := by
  have hmonth : ((if 10 ≤ m then m - 9 else m + 3) + 9) % 12 = m := by
    split_ifs <;> omega
  have hyear : (if (if 10 ≤ m then m - 9 else m + 3) ≤ 2
      then era * 400 + y + (if 10 ≤ m then 1 else 0) - 1
      else era * 400 + y + (if 10 ≤ m then 1 else 0) : Int) = era * 400 + y := by
    split_ifs <;> omega
  simp only [epochDay, hmonth, hyear]
  omega

theorem epochDay_ofEpochDay (n : Int) : (ofEpochDay n).epochDay = n := by
  obtain ⟨era, c, q, k, d, hn, hparts, hdate⟩ := exists_parts n
  have hday := hparts.dayOfYear
  have hd := hparts.day
  obtain ⟨hc, hq, hk⟩ := And.intro hparts.century (And.intro hparts.fourYears hparts.year)
  rw [hdate, ofDayOfYear, epochDay_mk era (by omega) (by omega)]
  unfold daysBeforeMonth
  omega

theorem isValid_ofEpochDay (n : Int) : (ofEpochDay n).isValid = true := by
  obtain ⟨era, c, q, k, d, -, hparts, hdate⟩ := exists_parts n
  have hd := hparts.day
  have hleap : d = 365 →
      isLeapYear (era * 400 + (100 * c + 4 * q + k : Nat) + 1) = true := by
    rintro rfl
    exact hparts.isLeapYear era
  have hmonth : (5 * d + 2) / 153 ≤ 11 := by omega
  rw [hdate, isValid, Bool.and_eq_true, ofDayOfYear]
  refine ⟨decide_eq_true (Nat.le_add_left 1 _), decide_eq_true ?_⟩
  generalize hm : (5 * d + 2) / 153 = m at hmonth ⊢
  simp only [daysBeforeMonth]
  -- a month ends where the next one starts; only the end of February needs the leap years
  interval_cases m <;> simp [daysInMonth] <;> (try split_ifs with hyear) <;> (try omega)
  have : d ≠ 365 := fun h => hyear (hleap h)
  omega

/-- Counts that are not too far from 1970 have years of four digits. -/
theorem year_ofEpochDay {n : Int} (hmin : -719468 ≤ n) (hmax : n ≤ 2000000) :
    0 ≤ (ofEpochDay n).year ∧ (ofEpochDay n).year ≤ 9999 := by
  obtain ⟨era, c, q, k, d, hn, hparts, hdate⟩ := exists_parts n
  have hc := hparts.century
  have hq := hparts.fourYears
  have hk := hparts.year
  have hd := hparts.day
  rw [hdate, ofDayOfYear]
  simp only
  split_ifs <;> omega

/-! ## The next day -/

/-- The day after a day: the next one of its month, or the first one of the next month. -/
def next (d : Date) : Date :=
  if d.day < daysInMonth d.year d.month then { d with day := d.day + 1 }
  else if d.month < 12 then ⟨d.year, d.month + 1, 1⟩
  else ⟨d.year + 1, 1, 1⟩

theorem next_ofDayOfYear {year : Int} {d : Nat}
    (h : d < 364 ∨ d = 364 ∧ isLeapYear (year + 1) = true) :
    (ofDayOfYear year d).next = ofDayOfYear year (d + 1) := by
  have hmonth : (5 * d + 2) / 153 ≤ 11 := by omega
  have hnext : (5 * (d + 1) + 2) / 153 = (5 * d + 2) / 153
      ∨ (5 * (d + 1) + 2) / 153 = (5 * d + 2) / 153 + 1 ∧ (5 * d + 2) / 153 < 11 := by omega
  unfold ofDayOfYear next
  generalize hm : (5 * d + 2) / 153 = m at hmonth hnext ⊢
  generalize hm' : (5 * (d + 1) + 2) / 153 = m' at hnext ⊢
  simp only [daysBeforeMonth]
  interval_cases m <;> rcases hnext with rfl | ⟨rfl, -⟩ <;> simp [daysInMonth] <;>
    (try split_ifs with hyear) <;> (try simp) <;> (try omega)
  rcases h with h | ⟨-, hleap⟩
  · omega
  · exact absurd hleap hyear

/-- The last day of a year that starts in March is the last day of February. -/
theorem next_ofDayOfYear_last {year : Int} {d : Nat}
    (h : d = 364 ∧ isLeapYear (year + 1) = false ∨ d = 365 ∧ isLeapYear (year + 1) = true) :
    (ofDayOfYear year d).next = ofDayOfYear (year + 1) 0 := by
  rcases h with ⟨rfl, hleap⟩ | ⟨rfl, hleap⟩ <;>
    simp [next, ofDayOfYear, daysInMonth, daysBeforeMonth, hleap]

/-- Behind the last day of a year comes the first day of the next one, maybe in the next era. -/
theorem DayOfEra.exists_next {n c q k d : Nat} (h : DayOfEra n c q k d) (hd : 364 ≤ d)
    (hlast : d = 364 → ¬ (k = 3 ∧ (q < 24 ∨ c = 3))) (era : Int) :
    ∃ (era' : Int) (n' c' q' k' : Nat), DayOfEra n' c' q' k' 0
      ∧ era' * 146097 + n' = era * 146097 + n + 1
      ∧ era' * 400 + (100 * c' + 4 * q' + k' : Nat) =
        era * 400 + (100 * c + 4 * q + k : Nat) + 1 := by
  obtain ⟨hc, hq, hk, hd', hleap, rfl⟩ := h
  by_cases hyear : k < 3
  · exact ⟨era, _, c, q, k + 1, ⟨hc, hq, hyear, by omega, by omega, rfl⟩, by omega, by omega⟩
  by_cases hfour : q < 24
  · exact ⟨era, _, c, q + 1, 0, ⟨hc, hfour, by omega, by omega, by omega, rfl⟩, by omega, by omega⟩
  by_cases hcentury : c < 3
  · exact ⟨era, _, c + 1, 0, 0, ⟨hcentury, by omega, by omega, by omega, by omega, rfl⟩, by omega,
      by omega⟩
  · exact ⟨era + 1, _, 0, 0, 0, ⟨by omega, by omega, by omega, by omega, by omega, rfl⟩, by omega,
      by omega⟩

/-- The next count is that of the next day. -/
theorem ofEpochDay_succ (n : Int) : ofEpochDay (n + 1) = (ofEpochDay n).next := by
  obtain ⟨era, c, q, k, d, rfl, hparts, hdate⟩ := exists_parts n
  obtain ⟨hc, hq, hk, hd, hleap, -⟩ := id hparts
  rw [hdate]
  by_cases hsame : d < 364 ∨ d = 364 ∧ k = 3 ∧ (q < 24 ∨ c = 3)
  · have hnext : DayOfEra (36524 * c + 1461 * q + 365 * k + (d + 1)) c q k (d + 1) :=
      ⟨hc, hq, hk, by omega, by omega, rfl⟩
    have hyear : d = 364 → isLeapYear (era * 400 + (100 * c + 4 * q + k : Nat) + 1) = true := by
      rintro rfl
      exact hnext.isLeapYear era
    rw [next_ofDayOfYear (by tauto), ← hnext.ofEpochDay_eq]
    congr 1
    omega
  · have hlast : d = 364 ∧ isLeapYear (era * 400 + (100 * c + 4 * q + k : Nat) + 1) = false
        ∨ d = 365 ∧ isLeapYear (era * 400 + (100 * c + 4 * q + k : Nat) + 1) = true := by
      by_cases hlong : d = 365
      · subst hlong
        exact .inr ⟨rfl, hparts.isLeapYear era⟩
      · refine .inl ⟨by omega, ?_⟩
        simp only [isLeapYear, Bool.and_eq_false_iff, Bool.or_eq_false_iff, bne_eq_false_iff_eq,
          beq_eq_false_iff_ne]
        omega
    obtain ⟨era', n', c', q', k', hnext, hcount, hyear⟩ :=
      hparts.exists_next (by omega) (by omega) era
    rw [next_ofDayOfYear_last hlast, ← hyear, ← hnext.ofEpochDay_eq]
    congr 1
    omega

end SeriesLoad.Date
