import Mathlib.Algebra.Order.Field.Power
import Mathlib.Algebra.Order.Field.Rat
import Mathlib.Tactic.FieldSimp
import Mathlib.Tactic.Linarith
import Mathlib.Tactic.NormNum
import Mathlib.Tactic.Ring
import SeriesLoad.Decimal.Shortest

/-!
# Shortest decimals stand for their fractions

A fraction stands for the numbers that are nearer to it than to its neighbours (`StandsFor`). **The
shortest decimal of a fraction is one of them, with 17 digits at most** (`shortest_spec`), and its
power of ten is within the range of doubles (`shortest_bounds`).

The search looks at one grid after the other, all on one scale of whole numbers. It does not come
back empty-handed because the grid of 17 digits is finer than the interval of the fraction
(`unit_lt`), and that holds because the logarithm is not guessed too high (`top_bounds`).
-/

namespace SeriesLoad.Decimal

/-- The number that a decimal is. -/
def Scientific.value (s : Scientific) : ℚ := s.significand * 10 ^ s.exponent

theorem Scientific.significand_pos {s : Scientific} (h : 0 < s.value) : 0 < s.significand := by
  by_contra hzero
  rw [value, Nat.eq_zero_of_not_pos hzero, Nat.cast_zero, zero_mul] at h
  exact lt_irrefl _ h

namespace Binary

/-- The size of a fraction, without its sign. -/
def size (x : Binary) : ℚ := x.mantissa * 2 ^ x.exponent

/-- The mantissa and the exponent are those of a double that is neither zero nor infinite. -/
structure IsNormal (x : Binary) : Prop where
  pos : 0 < x.mantissa
  lt : x.mantissa < 2 ^ 53
  min : -1074 ≤ x.exponent
  max : x.exponent ≤ 971
  long : 2 ^ 52 ≤ x.mantissa ∨ x.exponent = -1074

/-- The sign does not matter to that. -/
theorem IsNormal.of_eq {x y : Binary} (h : x.IsNormal) (hmantissa : y.mantissa = x.mantissa)
    (hexponent : y.exponent = x.exponent) : y.IsNormal := by
  cases x
  cases y
  simp only at hmantissa hexponent
  subst hmantissa hexponent
  exact ⟨h.pos, h.lt, h.min, h.max, h.long⟩

/-- The way down to the middle between a fraction and the one below it, in its last place. -/
def gap (x : Binary) : ℚ := if x.isBoundary then 1 / 4 else 1 / 2

theorem gap_pos (x : Binary) : 0 < x.gap := by
  unfold gap
  split_ifs <;> norm_num

theorem gap_le (x : Binary) : x.gap ≤ 1 / 2 := by
  unfold gap
  split_ifs <;> norm_num

theorem gap_of_ne {x : Binary} (h : x.mantissa ≠ 2 ^ 52) : x.gap = 1 / 2 := by
  simp [gap, isBoundary, h]

theorem gap_of_eq {x : Binary} (hmantissa : x.mantissa = 2 ^ 52) (hexponent : x.exponent ≠ -1074) :
    x.gap = 1 / 4 := by
  simp [gap, isBoundary, hmantissa, hexponent]

/-- A number that is nearer to a fraction than to the others. The middle between two of them
belongs to the one with the even mantissa. -/
structure StandsFor (x : Binary) (v : ℚ) : Prop where
  low : x.mantissa - x.gap ≤ v / 2 ^ x.exponent
  high : v / 2 ^ x.exponent ≤ x.mantissa + 1 / 2
  odd : x.mantissa % 2 = 1 →
    x.mantissa - x.gap < v / 2 ^ x.exponent ∧ v / 2 ^ x.exponent < x.mantissa + 1 / 2

variable {x : Binary} {v : ℚ}

theorem StandsFor.pos (h : x.StandsFor v) (hx : x.IsNormal) : 0 < v := by
  have hp : (0 : ℚ) < 2 ^ x.exponent := zpow_pos (by norm_num) _
  have hone : (1 : ℚ) ≤ x.mantissa := by exact_mod_cast hx.pos
  have hlow := h.low
  have hgap := gap_le x
  rw [← div_mul_cancel₀ v hp.ne']
  exact mul_pos (by linarith) hp

theorem StandsFor.le (h : x.StandsFor v) : v ≤ (x.mantissa + 1 / 2) * 2 ^ x.exponent := by
  rw [← div_le_iff₀ (zpow_pos (by norm_num) _)]
  exact h.high

/-- There is no double from `2 ^ 1024` on. -/
theorem StandsFor.lt (h : x.StandsFor v) (hx : x.IsNormal) : v < 2 ^ (1024 : ℤ) := by
  have hlt : (x.mantissa : ℚ) + 1 ≤ 2 ^ 53 := by exact_mod_cast hx.lt
  have hle : (2 : ℚ) ^ x.exponent ≤ 2 ^ (971 : ℤ) := zpow_le_zpow_right₀ (by norm_num) hx.max
  have hp : (0 : ℚ) < 2 ^ x.exponent := zpow_pos (by norm_num) _
  have hsplit : (2 : ℚ) ^ (1024 : ℤ) = 2 ^ 53 * 2 ^ (971 : ℤ) := by
    rw [← zpow_natCast, ← zpow_add₀ (by norm_num)]
    rfl
  have hstand := h.le
  rw [hsplit]
  generalize (2 : ℚ) ^ (971 : ℤ) = place at hle
  nlinarith

/-- The least double is `2 ^ -1074`. -/
theorem le_size (hx : x.IsNormal) : (2 : ℚ) ^ (-1074 : ℤ) ≤ x.size := by
  have hone : (1 : ℚ) ≤ x.mantissa := by exact_mod_cast hx.pos
  have hle : (2 : ℚ) ^ (-1074 : ℤ) ≤ 2 ^ x.exponent := zpow_le_zpow_right₀ (by norm_num) hx.min
  have hp : (0 : ℚ) < 2 ^ x.exponent := zpow_pos (by norm_num) _
  rw [size]
  nlinarith

/-- A fraction stands for itself. -/
theorem standsFor_size (x : Binary) : x.StandsFor x.size := by
  have hp : (0 : ℚ) < 2 ^ x.exponent := zpow_pos (by norm_num) _
  have hgap := x.gap_pos
  have hself : x.size / 2 ^ x.exponent = x.mantissa := by rw [size, mul_div_cancel_right₀ _ hp.ne']
  refine ⟨?_, ?_, fun _ => ⟨?_, ?_⟩⟩ <;> rw [hself] <;> linarith

end Binary

/-! ## Powers -/

/-- A power is a fraction of which one side is one. -/
theorem zpow_eq_div (b : ℚ) (e : ℤ) : b ^ e = b ^ e.toNat / b ^ (-e).toNat := by
  rcases Int.le_total 0 e with h | h
  · have hzero : (-e).toNat = 0 := by omega
    rw [hzero, pow_zero, div_one, ← zpow_natCast, Int.toNat_of_nonneg h]
  · have hzero : e.toNat = 0 := by omega
    rw [hzero, pow_zero, one_div, ← zpow_natCast, Int.toNat_of_nonneg (by omega), zpow_neg, inv_inv]

theorem zpow_le_div_iff {num den : ℕ} (hden : 0 < den) (e : ℤ) :
    (10 : ℚ) ^ e ≤ num / den ↔ den * 10 ^ e.toNat ≤ num * 10 ^ (-e).toNat := by
  have hden' : (0 : ℚ) < den := by exact_mod_cast hden
  rw [zpow_eq_div, div_le_div_iff₀ (by positivity) hden', mul_comm]
  exact_mod_cast Iff.rfl

theorem zpow_le_zpow_iff {b c : ℕ} (hb : 0 < b) (hc : 0 < c) (e f : ℤ) :
    (b : ℚ) ^ e ≤ (c : ℚ) ^ f ↔
      b ^ e.toNat * c ^ (-f).toNat ≤ c ^ f.toNat * b ^ (-e).toNat := by
  have hb' : (0 : ℚ) < b := by exact_mod_cast hb
  have hc' : (0 : ℚ) < c := by exact_mod_cast hc
  rw [zpow_eq_div, zpow_eq_div, div_le_div_iff₀ (by positivity) (by positivity)]
  exact_mod_cast Iff.rfl

/-! ## The logarithm -/

theorem floorLog_bounds {num den : ℕ} {guess : ℤ} (hden : 0 < den)
    (hlow : (10 : ℚ) ^ (guess - 1) ≤ num / den) (hhigh : (num / den : ℚ) < 10 ^ (guess + 2)) :
    (10 : ℚ) ^ floorLog num den guess ≤ num / den
      ∧ (num / den : ℚ) < 10 ^ (floorLog num den guess + 1) := by
  simp only [floorLog, decide_eq_true_eq, ← zpow_le_div_iff hden]
  split_ifs with hnext hguess
  · exact ⟨hnext, by rwa [add_assoc]⟩
  · exact ⟨hguess, not_le.mp hnext⟩
  · exact ⟨hlow, by rw [sub_add_cancel]; exact not_le.mp hguess⟩

/-- The decimal logarithm of a power of two, nearly. -/
def guess (t : ℤ) : ℤ := t * 30103 / 100000

/-- The guess is good for every power of two that a double is near to. -/
theorem guess_bounds {t : ℤ} (hmin : -1074 ≤ t) (hmax : t ≤ 1023) :
    (10 : ℚ) ^ (guess t - 1) ≤ 2 ^ t ∧ (2 : ℚ) ^ (t + 1) ≤ 10 ^ (guess t + 2) := by
  have hall : ∀ i < 2098,
      10 ^ (guess ((i : ℕ) - 1074) - 1).toNat * 2 ^ (-((i : ℕ) - 1074 : ℤ)).toNat
          ≤ 2 ^ ((i : ℕ) - 1074 : ℤ).toNat * 10 ^ (-(guess ((i : ℕ) - 1074) - 1)).toNat
        ∧ 2 ^ ((i : ℕ) - 1074 + 1 : ℤ).toNat * 10 ^ (-(guess ((i : ℕ) - 1074) + 2)).toNat
          ≤ 10 ^ (guess ((i : ℕ) - 1074) + 2).toNat * 2 ^ (-((i : ℕ) - 1074 + 1 : ℤ)).toNat := by
    decide +kernel
  have ht := hall (t + 1074).toNat (by omega)
  rw [Int.toNat_of_nonneg (by omega), Int.add_sub_cancel] at ht
  exact ⟨(zpow_le_zpow_iff (by decide) (by decide) _ _).mpr ht.1,
    (zpow_le_zpow_iff (by decide) (by decide) _ _).mpr ht.2⟩

/-! ## Grids -/

namespace Around

variable {tie : Tie} {a : Around} {step k : ℕ}

/-- A point that is found is in the interval, and is one of the two around the value. -/
theorem contains_of_nearest (h : a.nearest tie step = some k) :
    a.contains (k * step) = true ∧ (k = a.value / step ∨ k = a.value / step + 1) := by
  cases hbelow : a.contains (a.value / step * step) <;>
    cases habove : a.contains ((a.value / step + 1) * step) <;>
    simp only [nearest, hbelow, habove] at h
  · cases h
  · rw [← Option.some.inj h]
    exact ⟨habove, .inr rfl⟩
  · rw [← Option.some.inj h]
    exact ⟨hbelow, .inl rfl⟩
  · have hk : k = a.value / step ∨ k = a.value / step + 1 := by
      cases tie <;> grind
    refine ⟨?_, hk⟩
    rcases hk with rfl | rfl
    · exact hbelow
    · exact habove

/-- An interval that is wider than a step of the grid has a point of it next to its value. -/
theorem nearest_ne_none (hpos : 0 < step) (hlow : a.low < a.value) (hhigh : a.value < a.high)
    (hstep : a.low + step < a.high) : a.nearest tie step ≠ none := by
  have hbelow : a.value / step * step ≤ a.value := Nat.div_mul_le_self _ _
  have habove : a.value < (a.value / step + 1) * step := by
    rw [Nat.add_one_mul, Nat.mul_comm]
    exact Nat.lt_mul_div_succ a.value hpos
  have hnext : (a.value / step + 1) * step = a.value / step * step + step := Nat.add_one_mul _ _
  intro hnone
  have hout : a.contains (a.value / step * step) = false
      ∧ a.contains ((a.value / step + 1) * step) = false := by
    cases hb : a.contains (a.value / step * step) <;>
      cases ha : a.contains ((a.value / step + 1) * step) <;>
      simp only [nearest, hb, ha] at hnone
    · exact ⟨rfl, rfl⟩
    · cases hnone
    · cases hnone
    · cases tie <;> grind
  have hle : a.value / step * step ≤ a.low ∧ a.high ≤ (a.value / step + 1) * step := by
    unfold contains at hout
    cases hclosed : a.closed <;> simp [hclosed] at hout <;> omega
  omega

end Around

/-- A decimal that the search finds is a point of its grid. -/
theorem firstGrid_spec {tie : Tie} {a : Around} {unit : ℕ} {top : ℤ} {digits more : ℕ}
    {s : Scientific} (h : firstGrid tie a unit top digits more = some s) :
    ∃ n, digits ≤ n ∧ n < digits + more ∧ s.exponent = top - n + 1
      ∧ a.nearest tie (unit * 10 ^ (17 - n)) = some s.significand := by
  induction more generalizing digits with
  | zero => cases h
  | succ more ih =>
    rw [firstGrid] at h
    split at h
    · rename_i k hk
      rw [← Option.some.inj h]
      exact ⟨digits, le_refl _, by omega, rfl, hk⟩
    · obtain ⟨n, hmin, hmax, hs⟩ := ih h
      exact ⟨n, by omega, by omega, hs⟩

/-- The search ends if the last grid has a point. -/
theorem firstGrid_ne_none {tie : Tie} {a : Around} {unit : ℕ} {top : ℤ} {digits more : ℕ}
    (h : a.nearest tie (unit * 10 ^ (17 - (digits + more))) ≠ none) :
    firstGrid tie a unit top digits (more + 1) ≠ none := by
  induction more generalizing digits with
  | zero =>
    rw [firstGrid]
    split
    · exact Option.some_ne_none _
    · contradiction
  | succ more ih =>
    rw [firstGrid]
    split
    · exact Option.some_ne_none _
    · exact ih (by rwa [Nat.add_right_comm])

/-- Zeros at the end do not count. -/
theorem Scientific.value_trim (fuel : ℕ) (s : Scientific) : (s.trim fuel).value = s.value := by
  induction fuel generalizing s with
  | zero => rfl
  | succ fuel ih =>
    rw [trim]
    split_ifs with h
    · rw [Bool.and_eq_true, beq_iff_eq] at h
      have hten : s.significand = s.significand / 10 * 10 := by omega
      rw [ih, value, value]
      conv_rhs => rw [hten]
      push_cast
      rw [zpow_add_one₀ (by norm_num)]
      ring
    · rfl

theorem Scientific.significand_trim_le (fuel : ℕ) (s : Scientific) :
    (s.trim fuel).significand ≤ s.significand ∧ s.exponent ≤ (s.trim fuel).exponent := by
  induction fuel generalizing s with
  | zero => exact ⟨le_refl _, le_refl _⟩
  | succ fuel ih =>
    rw [trim]
    split_ifs with h
    · obtain ⟨hle, hge⟩ := ih ⟨s.significand / 10, s.exponent + 1⟩
      exact ⟨hle.trans (Nat.div_le_self _ _), by simp only at hge; omega⟩
    · exact ⟨le_refl _, le_refl _⟩

/-! ## Shortest decimals -/

namespace Binary

/-- The decimal logarithm of the size. -/
def top (x : Binary) : ℤ :=
  floorLog (4 * x.mantissa * 2 ^ (x.exponent - 2).toNat) (2 ^ (-(x.exponent - 2)).toNat)
    (guess (Nat.log2 x.mantissa + x.exponent))

/-- A quarter of the last place, on the scale of the grids. -/
def scale (x : Binary) : ℕ := 2 ^ (x.exponent - 2).toNat * 10 ^ (16 - x.top).toNat

/-- The spacing of the grid of 17 digits, on that scale. -/
def unit (x : Binary) : ℕ := 2 ^ (-(x.exponent - 2)).toNat * 10 ^ (x.top - 16).toNat

/-- The numbers that a fraction stands for, on that scale. -/
def around (x : Binary) : Around where
  low := (4 * x.mantissa - if x.isBoundary then 1 else 2) * x.scale
  value := 4 * x.mantissa * x.scale
  high := (4 * x.mantissa + 2) * x.scale
  closed := x.mantissa % 2 == 0

end Binary

theorem shortest_eq {tie : Tie} {x : Binary} (hpos : 0 < x.mantissa) :
    shortest tie x = match firstGrid tie x.around x.unit x.top 1 17 with
      | some s => s.trim 17
      | none => ⟨x.around.value / x.unit, x.top - 16⟩ := by
  rw [shortest, if_neg (by simpa using hpos.ne')]
  rfl

namespace Binary

variable {x : Binary}

/-- The last place has four quarters. -/
theorem zpow_eq_four_mul (e : ℤ) : (2 : ℚ) ^ e = 4 * 2 ^ (e - 2) := by
  rw [zpow_sub₀ (by norm_num)]
  ring

theorem size_eq_quarters (x : Binary) : x.size = 4 * x.mantissa * 2 ^ (x.exponent - 2) := by
  rw [size, zpow_eq_four_mul]
  ring

theorem size_eq (x : Binary) :
    x.size = (4 * x.mantissa * 2 ^ (x.exponent - 2).toNat : ℕ)
      / (2 ^ (-(x.exponent - 2)).toNat : ℕ) := by
  rw [size_eq_quarters, zpow_eq_div 2 (x.exponent - 2)]
  push_cast
  ring

theorem size_bounds (hx : x.IsNormal) :
    (2 : ℚ) ^ (x.mantissa.log2 + x.exponent) ≤ x.size
      ∧ x.size < 2 ^ (x.mantissa.log2 + x.exponent + 1) := by
  have hlow : (2 : ℚ) ^ x.mantissa.log2 ≤ x.mantissa := by
    exact_mod_cast Nat.log2_self_le hx.pos.ne'
  have hhigh : (x.mantissa : ℚ) < 2 ^ (x.mantissa.log2 + 1) := by
    exact_mod_cast Nat.lt_log2_self
  have hpos : (0 : ℚ) < 2 ^ x.exponent := zpow_pos (by norm_num) _
  rw [zpow_add₀ (by norm_num), zpow_natCast, add_right_comm, zpow_add₀ (by norm_num), size]
  exact ⟨mul_le_mul_of_nonneg_right hlow hpos.le,
    mul_lt_mul_of_pos_right (by exact_mod_cast hhigh) hpos⟩

theorem top_bounds (hx : x.IsNormal) :
    (10 : ℚ) ^ x.top ≤ x.size ∧ x.size < 10 ^ (x.top + 1) := by
  obtain ⟨hlow, hhigh⟩ := size_bounds hx
  have hlog : x.mantissa.log2 ≤ 52 := Nat.le_of_lt_succ ((Nat.log2_lt hx.pos.ne').mpr hx.lt)
  obtain ⟨hguess, hguess'⟩ := guess_bounds (t := x.mantissa.log2 + x.exponent)
    (by have := hx.min; omega) (by have := hx.max; omega)
  rw [size_eq] at hlow hhigh ⊢
  exact floorLog_bounds (by positivity) (hguess.trans hlow) (hhigh.trans_le hguess')

theorem scale_pos (x : Binary) : 0 < x.scale := by
  unfold scale
  positivity

theorem unit_pos (x : Binary) : 0 < x.unit := by
  unfold unit
  positivity

/-- Both spacings on one scale. -/
theorem unit_mul (x : Binary) :
    (x.unit : ℚ) * 2 ^ (x.exponent - 2) = x.scale * 10 ^ (x.top - 16) := by
  have hten : -(x.top - 16) = 16 - x.top := by omega
  rw [zpow_eq_div 2, zpow_eq_div 10, hten, unit, scale]
  push_cast
  field_simp

/-- A point of a grid, in quarters of the last place. -/
theorem grid_point (x : Binary) {n : ℕ} (hn : n ≤ 17) {s : Scientific}
    (hs : s.exponent = x.top - n + 1) :
    ((s.significand * (x.unit * 10 ^ (17 - n)) : ℕ) : ℚ) =
      4 * (s.value / 2 ^ x.exponent) * x.scale := by
  have hten : (10 : ℚ) ^ s.exponent = 10 ^ (17 - n) * 10 ^ (x.top - 16) := by
    rw [hs, ← zpow_natCast, ← zpow_add₀ (by norm_num), Nat.cast_sub hn]
    congr 1
    omega
  have hunit := unit_mul x
  have hpos : (0 : ℚ) < 2 ^ (x.exponent - 2) := zpow_pos (by norm_num) _
  rw [Scientific.value, hten, zpow_eq_four_mul x.exponent]
  push_cast
  field_simp
  rw [mul_assoc, hunit]
  ring

theorem around_low (hx : x.IsNormal) :
    (x.around.low : ℚ) = 4 * (x.mantissa - x.gap) * x.scale := by
  have hpos := hx.pos
  simp only [around, gap]
  split_ifs
  · rw [Nat.cast_mul, Nat.cast_sub (by omega)]
    push_cast
    ring
  · rw [Nat.cast_mul, Nat.cast_sub (by omega)]
    push_cast
    ring

theorem around_high (x : Binary) :
    (x.around.high : ℚ) = 4 * (x.mantissa + 1 / 2) * x.scale := by
  simp only [around]
  push_cast
  ring

/-- A point in the interval is a number that the fraction stands for. -/
theorem standsFor_of_contains (hx : x.IsNormal) {n : ℕ} (hn : n ≤ 17) {s : Scientific}
    (hs : s.exponent = x.top - n + 1)
    (h : x.around.contains (s.significand * (x.unit * 10 ^ (17 - n))) = true) :
    x.StandsFor s.value := by
  have hscale : (0 : ℚ) < x.scale := by exact_mod_cast x.scale_pos
  have hpoint := grid_point x hn hs
  have hlow := around_low hx
  have hhigh := around_high x
  generalize s.significand * (x.unit * 10 ^ (17 - n)) = p at h hpoint
  have hle : ∀ a b : ℚ, 4 * a * x.scale ≤ 4 * b * x.scale → a ≤ b := fun a b hab =>
    le_of_mul_le_mul_left (le_of_mul_le_mul_right hab hscale) (by norm_num)
  have hlt : ∀ a b : ℚ, 4 * a * x.scale < 4 * b * x.scale → a < b := fun a b hab =>
    lt_of_mul_lt_mul_left (lt_of_mul_lt_mul_right hab hscale.le) (by norm_num)
  have hclosed : x.around.closed = (x.mantissa % 2 == 0) := rfl
  unfold Around.contains at h
  rcases Nat.mod_two_eq_zero_or_one x.mantissa with hmod | hmod
  · simp [hclosed, hmod] at h
    have hl : (x.around.low : ℚ) ≤ p := by exact_mod_cast h.1
    have hh : (p : ℚ) ≤ x.around.high := by exact_mod_cast h.2
    rw [hpoint] at hl hh
    exact ⟨hle _ _ (hlow ▸ hl), hle _ _ (hhigh ▸ hh), by omega⟩
  · simp [hclosed, hmod] at h
    have hl : (x.around.low : ℚ) < p := by exact_mod_cast h.1
    have hh : (p : ℚ) < x.around.high := by exact_mod_cast h.2
    rw [hpoint] at hl hh
    have hl' := hlt _ _ (hlow ▸ hl)
    have hh' := hlt _ _ (hhigh ▸ hh)
    exact ⟨hl'.le, hh'.le, fun _ => ⟨hl', hh'⟩⟩

/-- The grid of 17 digits is finer than the interval. -/
theorem unit_lt (hx : x.IsNormal) : x.around.low + x.unit < x.around.high := by
  have hscale : (0 : ℚ) < x.scale := by exact_mod_cast x.scale_pos
  have hquarter : (0 : ℚ) < 2 ^ (x.exponent - 2) := zpow_pos (by norm_num) _
  have hten : (10 : ℚ) ^ (x.top - 16) * 10 ^ 16 ≤ 4 * x.mantissa * 2 ^ (x.exponent - 2) := by
    rw [← size_eq_quarters, ← zpow_natCast, ← zpow_add₀ (by norm_num), Nat.cast_ofNat,
      Int.sub_add_cancel]
    exact (top_bounds hx).1
  have hmantissa : 4 * (x.mantissa : ℚ) < 4 * (x.gap + 1 / 2) * 10 ^ 16 := by
    unfold gap
    split_ifs with hboundary
    · have hmiddle : x.mantissa = 2 ^ 52 := by
        simp only [isBoundary, Bool.and_eq_true, beq_iff_eq] at hboundary
        exact hboundary.1
      rw [hmiddle]
      norm_num
    · have hlt : (x.mantissa : ℚ) < 2 ^ 53 := by exact_mod_cast hx.lt
      linarith
  have hunit : (x.unit : ℚ) < 4 * (x.gap + 1 / 2) * x.scale := by
    refine lt_of_mul_lt_mul_right ?_ hquarter.le
    rw [unit_mul]
    have hfine : (10 : ℚ) ^ (x.top - 16) < 4 * (x.gap + 1 / 2) * 2 ^ (x.exponent - 2) := by
      nlinarith
    nlinarith
  have hcast : (x.around.low : ℚ) + x.unit < x.around.high := by
    rw [around_low hx, around_high]
    linarith
  exact_mod_cast hcast

/-- On the grid of `n` digits the value has no more than these. -/
theorem value_lt (hx : x.IsNormal) {n : ℕ} (hn : n ≤ 17) :
    x.around.value < x.unit * 10 ^ (17 - n) * 10 ^ n := by
  have hquarter : (0 : ℚ) < 2 ^ (x.exponent - 2) := zpow_pos (by norm_num) _
  have hscale : (0 : ℚ) < x.scale := by exact_mod_cast x.scale_pos
  have hten : (10 : ℚ) ^ (x.top + 1) = 10 ^ (x.top - 16) * 10 ^ 17 := by
    rw [← zpow_natCast, ← zpow_add₀ (by norm_num)]
    congr 1
    omega
  have hsize : 4 * (x.mantissa : ℚ) * 2 ^ (x.exponent - 2) < 10 ^ (x.top - 16) * 10 ^ 17 := by
    rw [← hten, ← size_eq_quarters]
    exact (top_bounds hx).2
  have hvalue : (x.around.value : ℚ) < x.unit * 10 ^ 17 := by
    refine lt_of_mul_lt_mul_right ?_ hquarter.le
    simp only [around]
    push_cast
    calc 4 * (x.mantissa : ℚ) * x.scale * 2 ^ (x.exponent - 2)
        = 4 * x.mantissa * 2 ^ (x.exponent - 2) * x.scale := by ring
      _ < 10 ^ (x.top - 16) * 10 ^ 17 * x.scale := mul_lt_mul_of_pos_right hsize hscale
      _ = x.scale * 10 ^ (x.top - 16) * 10 ^ 17 := by ring
      _ = x.unit * 10 ^ 17 * 2 ^ (x.exponent - 2) := by rw [← unit_mul]; ring
  rw [Nat.mul_assoc, ← Nat.pow_add, Nat.sub_add_cancel hn]
  exact_mod_cast hvalue

/-- A decimal of the search. -/
theorem exists_firstGrid (tie : Tie) (hx : x.IsNormal) :
    ∃ s, firstGrid tie x.around x.unit x.top 1 17 = some s ∧ x.StandsFor s.value
      ∧ s.significand ≤ 10 ^ 17 ∧ x.top - 16 ≤ s.exponent := by
  have hscale := x.scale_pos
  have hlow : x.around.low < x.around.value := by
    have hpos := hx.pos
    exact Nat.mul_lt_mul_of_pos_right (by split_ifs <;> omega) hscale
  have hhigh : x.around.value < x.around.high :=
    Nat.mul_lt_mul_of_pos_right (by omega) hscale
  have hlast : x.around.nearest tie (x.unit * 10 ^ (17 - (1 + 16))) ≠ none := by
    rw [Nat.sub_self, Nat.pow_zero, Nat.mul_one]
    exact Around.nearest_ne_none x.unit_pos hlow hhigh (unit_lt hx)
  have hfound : firstGrid tie x.around x.unit x.top 1 17 ≠ none := firstGrid_ne_none hlast
  obtain ⟨s, hs⟩ := Option.ne_none_iff_exists'.mp hfound
  obtain ⟨n, hmin, hmax, hexponent, hnearest⟩ := firstGrid_spec hs
  have hn : n ≤ 17 := by omega
  obtain ⟨hcontains, hpoint⟩ := Around.contains_of_nearest hnearest
  have hbelow : x.around.value / (x.unit * 10 ^ (17 - n)) < 10 ^ n :=
    Nat.div_lt_of_lt_mul (value_lt hx hn)
  have hpow : 10 ^ n ≤ 10 ^ 17 := Nat.pow_le_pow_right (by decide) hn
  exact ⟨s, hs, standsFor_of_contains hx hn hexponent hcontains, by omega, by omega⟩

end Binary

/-- A fraction stands for its shortest decimal. -/
theorem shortest_spec (tie : Tie) {x : Binary} (hx : x.IsNormal) :
    x.StandsFor (shortest tie x).value ∧ (shortest tie x).significand ≤ 10 ^ 17
      ∧ x.top - 16 ≤ (shortest tie x).exponent := by
  obtain ⟨s, hs, hstands, hsignificand, hexponent⟩ := Binary.exists_firstGrid tie hx
  have htrim := Scientific.significand_trim_le 17 s
  have heq : shortest tie x = s.trim 17 := by rw [shortest_eq hx.pos, hs]
  rw [heq, Scientific.value_trim]
  exact ⟨hstands, htrim.1.trans hsignificand, hexponent.trans htrim.2⟩

/-- The powers of ten that a double may have in its shortest decimal. -/
theorem shortest_bounds (tie : Tie) {x : Binary} (hx : x.IsNormal) :
    0 < (shortest tie x).significand ∧ -340 ≤ (shortest tie x).exponent
      ∧ (shortest tie x).exponent ≤ 308 := by
  obtain ⟨hstands, -, hexponent⟩ := shortest_spec tie hx
  have hpos := Scientific.significand_pos (hstands.pos hx)
  refine ⟨hpos, ?_, ?_⟩
  · have hleast : (10 : ℚ) ^ (-324 : ℤ) ≤ 2 ^ (-1074 : ℤ) :=
      (zpow_le_zpow_iff (by decide) (by decide) _ _).mpr (by decide +kernel)
    have htop := (zpow_lt_zpow_iff_right₀ (by norm_num)).mp
      ((hleast.trans (Binary.le_size hx)).trans_lt (Binary.top_bounds hx).2)
    omega
  · have hgreatest : (2 : ℚ) ^ (1024 : ℤ) ≤ 10 ^ (309 : ℤ) :=
      (zpow_le_zpow_iff (by decide) (by decide) _ _).mpr (by decide +kernel)
    have hvalue : (10 : ℚ) ^ (shortest tie x).exponent ≤ (shortest tie x).value := by
      have hone : (1 : ℚ) ≤ (shortest tie x).significand := by exact_mod_cast hpos
      exact le_mul_of_one_le_left (zpow_pos (by norm_num) _).le hone
    have htop := (zpow_lt_zpow_iff_right₀ (by norm_num)).mp
      ((hvalue.trans_lt (hstands.lt hx)).trans_le hgreatest)
    omega

end SeriesLoad.Decimal
