import Mathlib
import SeriesLoad.Proofs.Decimal.Shortest

/-!
# Rounding

A number between two doubles is rounded to the nearer one, and to the even one in the middle
(`RoundsTo`). So **a number is rounded to the fraction that stands for it** (`eq_of_standsFor`), no
two fractions stand for one number (`standsFor_unique`), and a number below `threshold` is not
rounded to infinity. Products, quotients and whole numbers are rounded (`roundsTo_mul`,
`roundsTo_div`, `roundsTo_ofNat`).

What carries it is `Tells`: a mantissa and the two bits behind it say on which side of the middle a
number is, however far the mantissa is shifted. Rounding then looks at a whole multiple of the last
place. Just below a power of two the last place is half as long as above it; there the mantissa gets
too long and is carried.
-/

namespace SeriesLoad.Double

open Float.Model Float.Model.UnpackedFloat
open Decimal (Binary)

/-! ## Whole numbers -/

/-- A whole number is the nearest one, and the even one where two are as near. -/
structure IsNearest (y : ℚ) (r : ℕ) : Prop where
  dist : |y - r| ≤ 1 / 2
  even : |y - r| = 1 / 2 → r % 2 = 0

variable {y : ℚ} {r n : ℕ}

theorem IsNearest.bounds (h : IsNearest y r) : (r : ℚ) - 1 / 2 ≤ y ∧ y ≤ r + 1 / 2 := by
  have hdist := abs_le.mp h.dist
  constructor <;> linarith [hdist.1, hdist.2]

theorem IsNearest.le (h : IsNearest y r) (hy : y ≤ n) : r ≤ n := by
  have hlt : (r : ℚ) < n + 1 := by linarith [h.bounds.1]
  exact Nat.le_of_lt_succ (by exact_mod_cast hlt)

theorem IsNearest.ge (h : IsNearest y r) (hy : n ≤ y) : n ≤ r := by
  have hlt : (n : ℚ) < r + 1 := by linarith [h.bounds.2]
  exact Nat.le_of_lt_succ (by exact_mod_cast hlt)

theorem IsNearest.not_lt {r' : ℕ} (h : IsNearest y r) (h' : IsNearest y r') : ¬ r < r' := by
  intro hlt
  have hle : (r : ℚ) + 1 ≤ r' := by exact_mod_cast hlt
  have hmiddle : y = r + 1 / 2 := le_antisymm h.bounds.2 (by linarith [h'.bounds.1])
  have hnext : r' = r + 1 := by
    have : (r' : ℚ) ≤ r + 1 := by linarith [h'.bounds.1]
    exact le_antisymm (by exact_mod_cast this) hlt
  have heven : r % 2 = 0 := h.even (by rw [hmiddle]; norm_num)
  have heven' : r' % 2 = 0 := h'.even (by rw [hmiddle, hnext]; norm_num)
  omega

theorem IsNearest.unique {r' : ℕ} (h : IsNearest y r) (h' : IsNearest y r') : r = r' :=
  Nat.le_antisymm (Nat.le_of_not_lt (h'.not_lt h)) (Nat.le_of_not_lt (h.not_lt h'))

/-! ## Mantissas with two bits more -/

/-- What a mantissa and the two bits behind it tell of a number. -/
def Tells (em : ExtendedMantissa) (y : ℚ) : Prop :=
  match em.roundBit, em.stickyBit with
  | false, false => y = em.mantissa
  | false, true => em.mantissa < y ∧ y < em.mantissa + 1 / 2
  | true, false => y = em.mantissa + 1 / 2
  | true, true => em.mantissa + 1 / 2 < y ∧ y < em.mantissa + 1

variable {em : ExtendedMantissa}

theorem Tells.bounds (h : Tells em y) : em.mantissa ≤ y ∧ y < em.mantissa + 1 := by
  obtain ⟨m, round, sticky⟩ := em
  cases round <;> cases sticky <;> simp only [Tells] at h ⊢ <;> constructor <;> linarith

theorem Tells.shiftRightOne (h : Tells em y) : Tells em.shiftRightOne (y / 2) := by
  obtain ⟨m, round, sticky⟩ := em
  have hm : (m : ℚ) = 2 * (m / 2 : ℕ) + (m % 2 : ℕ) := by exact_mod_cast (Nat.div_add_mod m 2).symm
  rcases Nat.mod_two_eq_zero_or_one m with hmod | hmod <;> cases round <;> cases sticky <;>
    simp only [Tells, ExtendedMantissa.shiftRightOne, hmod, hm, bne_self_eq_false,
      Bool.or_false, Bool.or_true] at h ⊢ <;> simp at h ⊢ <;>
    first
      | linarith
      | (constructor <;> linarith)

theorem Tells.shiftRight (h : Tells em y) (k : ℕ) : Tells (em >>> k) (y / 2 ^ k) := by
  induction k with
  | zero => simpa [HShiftRight.hShiftRight, Nat.repeat] using h
  | succ k ih =>
    rw [pow_succ, ← div_div]
    exact ih.shiftRightOne

theorem Tells.isNearest (h : Tells em y) : IsNearest y em.roundedMantissa := by
  obtain ⟨m, round, sticky⟩ := em
  cases round <;> cases sticky <;>
    simp only [Tells, ExtendedMantissa.roundedMantissa, ExtendedMantissa.accuracy,
      Accuracy.roundToNearestEven] at h ⊢
  · subst h
    exact ⟨by norm_num, by norm_num⟩
  · have habs : |y - m| = y - m := abs_of_pos (by linarith)
    exact ⟨by rw [habs]; linarith, by rw [habs]; intro heq; linarith⟩
  · subst h
    rcases Nat.mod_two_eq_zero_or_one m with hmod | hmod
    · rw [hmod]
      exact ⟨by norm_num, fun _ => hmod⟩
    · rw [hmod]
      exact ⟨by push_cast; norm_num, fun _ => by omega⟩
  · have habs : |y - (m + 1 : ℕ)| = m + 1 - y := by
      rw [abs_sub_comm]
      push_cast
      exact abs_of_pos (by linarith)
    exact ⟨by rw [habs]; linarith, by rw [habs]; intro heq; linarith⟩

/-! ## The grid -/

/-- The doubles next to a number `v` are whole multiples of `2 ^ t`. -/
structure IsGrid (v : ℚ) (t : ℤ) : Prop where
  min : -1074 ≤ t
  lt : v / 2 ^ t < 2 ^ 53
  le : t = -1074 ∨ 2 ^ 52 ≤ v / 2 ^ t

theorem IsGrid.rounded_le {v : ℚ} {t : ℤ} (h : IsGrid v t) (hr : IsNearest (v / 2 ^ t) r) :
    r ≤ 2 ^ 53 :=
  hr.le (by exact_mod_cast h.lt.le)

/-- A number that is not among the least ones has a long mantissa. -/
theorem IsGrid.long {v : ℚ} {t : ℤ} (h : IsGrid v t) (hv : 2 ^ 52 * 2 ^ (-1074 : ℤ) ≤ v) :
    2 ^ 52 ≤ v / 2 ^ t := by
  rcases h.le with rfl | hle
  · rwa [le_div_iff₀ (zpow_pos (by norm_num) _)]
  · exact hle

/-- The double of a rounded mantissa. One that is too long is halved. -/
def carried (s : Sign) (r : ℕ) (t : ℤ) : UnpackedFloat :=
  if h : r = 0 then .zero s
  else if r < 2 ^ 53 then .finite s r t (Nat.pos_of_ne_zero h)
  else .finite s (2 ^ 52) (t + 1) (by decide)

/-- `u` is what a number `v` is rounded to. -/
def RoundsTo (s : Sign) (v : ℚ) (u : UnpackedFloat) : Prop :=
  ∃ t r, IsGrid v t ∧ IsNearest (v / 2 ^ t) r ∧ u = carried s r t

theorem targetExponent_eq (m : ℕ) (e : ℤ) :
    Format.binary64.targetExponent (totalExponent m e) = max (m.log2 + e - 52) (-1074) := by
  simp only [Format.targetExponent, totalExponent, Format.mantissaBits, Format.minExponent]
  norm_num
  omega

theorem shiftToTargetExponent_eq (m : ℕ) (e : ℤ) (acc : Accuracy) :
    shiftToTargetExponent Format.binary64 m e acc =
      (ExtendedMantissa.ofMantissaAndAccuracy m acc >>> (max (m.log2 + e - 52) (-1074) - e).toNat,
        e + (max (m.log2 + e - 52) (-1074) - e).toNat) := by
  rw [shiftToTargetExponent, targetExponent_eq, shiftToExponent]

/-- Nothing is shifted out of a mantissa that fits. -/
theorem shift_of_fits {r : ℕ} {t : ℤ} (hr : r < 2 ^ 53) (ht : -1074 ≤ t) :
    shiftToTargetExponent Format.binary64 r t .exact = (⟨r, false, false⟩, t) := by
  have hlog : r.log2 ≤ 52 := by
    by_cases hzero : r = 0
    · simp [hzero]
    · exact Nat.le_of_lt_succ ((Nat.log2_lt hzero).mpr hr)
  have hk : (max (r.log2 + t - 52) (-1074) - t).toNat = 0 := by omega
  rw [shiftToTargetExponent_eq, hk]
  simp [HShiftRight.hShiftRight, Nat.repeat, ExtendedMantissa.ofMantissaAndAccuracy]

theorem shift_of_carry {t : ℤ} (ht : -1074 ≤ t) :
    shiftToTargetExponent Format.binary64 (2 ^ 53) t .exact = (⟨2 ^ 52, false, false⟩, t + 1) := by
  have hk : (max ((2 ^ 53 : ℕ).log2 + t - 52) (-1074) - t).toNat = 1 := by
    rw [Nat.log2_two_pow]
    omega
  rw [shiftToTargetExponent_eq, hk]
  rfl

theorem roundWithAccuracy_carried (s : Sign) (m : ℕ) (e : ℤ) (acc : Accuracy)
    {em : ExtendedMantissa} {t : ℤ}
    (hshift : shiftToTargetExponent Format.binary64 m e acc = (em, t)) (ht : -1074 ≤ t)
    (hr : em.roundedMantissa ≤ 2 ^ 53) :
    roundWithAccuracy Format.binary64 s m e acc = carried s em.roundedMantissa t := by
  rw [roundWithAccuracy, hshift]
  dsimp only
  rcases Nat.lt_or_eq_of_le hr with hlt | heq
  · rw [shift_of_fits hlt ht]
    simp only [carried, hlt, if_true]
  · rw [heq, shift_of_carry ht]
    rfl

theorem mantissa_shiftRight (em : ExtendedMantissa) (k : ℕ) :
    (em >>> k).mantissa = em.mantissa / 2 ^ k := by
  induction k with
  | zero => simp [HShiftRight.hShiftRight, Nat.repeat]
  | succ k ih =>
    change (em >>> k).mantissa / 2 = _
    rw [ih, Nat.div_div_eq_div_mul, Nat.pow_succ]

/-- A number that is told precisely enough is rounded. -/
theorem roundsTo_roundWithAccuracy (s : Sign) {m : ℕ} {e : ℤ} {acc : Accuracy} {v : ℚ}
    (hv : Tells (.ofMantissaAndAccuracy m acc) (v / 2 ^ e)) (hm : 52 ≤ m.log2 ∨ e ≤ -1074) :
    RoundsTo s v (roundWithAccuracy Format.binary64 s m e acc) := by
  obtain ⟨k, hk⟩ : ∃ k, k = (max (m.log2 + e - 52) (-1074) - e).toNat := ⟨_, rfl⟩
  have hshift := shiftToTargetExponent_eq m e acc
  rw [← hk] at hshift
  have htells := hv.shiftRight k
  have hscale : v / 2 ^ e / 2 ^ k = v / 2 ^ (e + k) := by
    rw [div_div, zpow_add₀ (by norm_num), zpow_natCast]
  rw [hscale] at htells
  have hmantissa : (ExtendedMantissa.ofMantissaAndAccuracy m acc >>> k).mantissa = m / 2 ^ k := by
    rw [mantissa_shiftRight]
    congr 1
    cases acc with
    | exact => rfl
    | inexact o => cases o <;> rfl
  have hlt : m / 2 ^ k < 2 ^ 53 := by
    rw [Nat.div_lt_iff_lt_mul (Nat.two_pow_pos k), ← Nat.pow_add]
    exact Nat.lt_of_lt_of_le Nat.lt_log2_self (Nat.pow_le_pow_right (by decide) (by omega))
  have hgrid : IsGrid v (e + k) := by
    refine ⟨by omega, ?_, ?_⟩
    · have hle : (↑(m / 2 ^ k) : ℚ) + 1 ≤ 2 ^ 53 := by exact_mod_cast hlt
      exact lt_of_lt_of_le (hmantissa ▸ htells.bounds.2) hle
    · rcases Int.lt_or_le (-1074) (e + k) with hmin | hmin
      · right
        have hlog : m.log2 = 52 + k := by omega
        have hge : 2 ^ 52 ≤ m / 2 ^ k := by
          rw [Nat.le_div_iff_mul_le (Nat.two_pow_pos k), ← Nat.pow_add, ← hlog]
          exact Nat.log2_self_le (by rintro rfl; simp at hlog; omega)
        have hge' : (2 : ℚ) ^ 52 ≤ ↑(m / 2 ^ k) := by exact_mod_cast hge
        exact le_trans hge' (hmantissa ▸ htells.bounds.1)
      · left
        omega
  exact ⟨_, _, hgrid, htells.isNearest,
    roundWithAccuracy_carried s m e acc hshift hgrid.min (hgrid.rounded_le htells.isNearest)⟩

/-! ## Where a number is rounded to -/

section

variable {s : Sign} {v : ℚ} {u : UnpackedFloat} {x : Binary}

/-- Another place is at least twice as far up or down. -/
theorem two_mul_le_zpow {t e : ℤ} (h : t < e) : 2 * (2 : ℚ) ^ t ≤ 2 ^ e := by
  rw [mul_comm, ← zpow_add_one₀ (by norm_num)]
  exact zpow_le_zpow_right₀ (by norm_num) (by omega)

theorem carried_of_lt {r : ℕ} (hpos : 0 < r) (hlt : r < 2 ^ 53) (t : ℤ) :
    carried s r t = .finite s r t hpos := by
  rw [carried, dif_neg hpos.ne', if_pos hlt]

/-- On its own grid a fraction is the nearest one. -/
theorem isNearest_of_standsFor (hv : x.StandsFor v) :
    IsNearest (v / 2 ^ x.exponent) x.mantissa := by
  have hgap := x.gap_le
  have hlow := hv.low
  have hhigh := hv.high
  refine ⟨abs_le.mpr ⟨by linarith, by linarith⟩, fun hmiddle => ?_⟩
  by_contra hodd
  obtain ⟨hlow', hhigh'⟩ := hv.odd (Nat.mod_two_ne_zero.mp hodd)
  have hless : |v / 2 ^ x.exponent - x.mantissa| < 1 / 2 :=
    abs_lt.mpr ⟨by linarith, by linarith⟩
  exact hless.ne hmiddle

/-- A number on a finer grid than that of its fraction is just below a power of two, and the
mantissa that it is rounded to is too long. -/
theorem exponent_of_finer {t : ℤ} (hx : x.IsNormal) (hv : x.StandsFor v) (hgrid : IsGrid v t)
    (hless : t < x.exponent) :
    x.mantissa = 2 ^ 52 ∧ x.exponent = t + 1 ∧ IsNearest (v / 2 ^ t) (2 ^ 53) := by
  have hte : (0 : ℚ) < 2 ^ t := zpow_pos (by norm_num) _
  have hxe : (0 : ℚ) < 2 ^ x.exponent := zpow_pos (by norm_num) _
  have hmin := hgrid.min
  have hlong : 2 ^ 52 ≤ x.mantissa := hx.long.resolve_right (by omega)
  have hbelow := hgrid.lt
  have hlow := hv.low
  rw [div_lt_iff₀ hte] at hbelow
  rw [le_div_iff₀ hxe] at hlow
  have htwo := two_mul_le_zpow hless
  have hmantissa : x.mantissa = 2 ^ 52 := by
    by_contra hne
    have hmore : (2 : ℚ) ^ 52 + 1 ≤ x.mantissa := by
      exact_mod_cast Nat.lt_of_le_of_ne hlong (Ne.symm hne)
    rw [Binary.gap_of_ne hne] at hlow
    nlinarith
  rw [Binary.gap_of_eq hmantissa (by omega), hmantissa] at hlow
  have hexponent : x.exponent = t + 1 := by
    by_contra hne
    have hfour : 4 * (2 : ℚ) ^ t ≤ 2 ^ x.exponent := by
      have hnext := two_mul_le_zpow (show t + 1 < x.exponent by omega)
      rw [zpow_add_one₀ (by norm_num)] at hnext
      linarith
    push_cast at hlow
    nlinarith
  refine ⟨hmantissa, hexponent, abs_le.mpr ⟨?_, ?_⟩, fun _ => by decide⟩
  · rw [hexponent, zpow_add_one₀ (by norm_num)] at hlow
    rw [le_sub_iff_add_le, le_div_iff₀ hte]
    push_cast at hlow ⊢
    linarith
  · rw [sub_le_iff_le_add, div_le_iff₀ hte]
    push_cast
    linarith

/-- **A number is rounded to the fraction that stands for it.** -/
theorem RoundsTo.eq_of_standsFor (h : RoundsTo s v u) (hx : x.IsNormal) (hv : x.StandsFor v) :
    u = .finite s x.mantissa x.exponent hx.pos := by
  obtain ⟨t, r, hgrid, hnear, rfl⟩ := h
  rcases lt_trichotomy t x.exponent with hless | heq | hmore
  · obtain ⟨hmantissa, hexponent, hcarry⟩ := exponent_of_finer hx hv hgrid hless
    rw [hnear.unique hcarry]
    simp only [carried, hmantissa, hexponent]
    rfl
  · rw [heq] at hnear
    rw [hnear.unique (isNearest_of_standsFor hv), carried_of_lt hx.pos hx.lt, heq]
  · -- on a coarser grid a number is not below that of the fraction
    exfalso
    have hte : (0 : ℚ) < 2 ^ t := zpow_pos (by norm_num) _
    have hxe : (0 : ℚ) < 2 ^ x.exponent := zpow_pos (by norm_num) _
    have hlt : (x.mantissa : ℚ) + 1 ≤ 2 ^ 53 := by exact_mod_cast hx.lt
    have hmin := hx.min
    have hle : 2 ^ 52 ≤ v / 2 ^ t := hgrid.le.resolve_left (by omega)
    have hhigh := hv.high
    rw [le_div_iff₀ hte] at hle
    rw [div_le_iff₀ hxe] at hhigh
    have htwo := two_mul_le_zpow hmore
    nlinarith

/-- A fraction stands for nothing but what is rounded to it. -/
theorem roundsTo_of_standsFor (s : Sign) (hx : x.IsNormal) (hv : x.StandsFor v) :
    RoundsTo s v (.finite s x.mantissa x.exponent hx.pos) := by
  have hp : (0 : ℚ) < 2 ^ x.exponent := zpow_pos (by norm_num) _
  have hlt : (x.mantissa : ℚ) + 1 ≤ 2 ^ 53 := by exact_mod_cast hx.lt
  have hlow := hv.low
  have hhigh := hv.high
  have hgap := x.gap_le
  by_cases hgrid : x.exponent = -1074 ∨ 2 ^ 52 ≤ v / 2 ^ x.exponent
  · exact ⟨x.exponent, x.mantissa, ⟨hx.min, by linarith, hgrid⟩, isNearest_of_standsFor hv,
      (carried_of_lt hx.pos hx.lt _).symm⟩
  · -- the number is just below a power of two, where the grid is finer
    rw [not_or, not_le] at hgrid
    obtain ⟨hmore, hbelow⟩ := hgrid
    have hmin := hx.min
    have hhalf : v / 2 ^ (x.exponent - 1) = 2 * (v / 2 ^ x.exponent) := by
      rw [zpow_sub_one₀ (by norm_num)]
      field_simp
    have hmantissa : x.mantissa = 2 ^ 52 := by
      have hlong := hx.long.resolve_right hmore
      have hle : (x.mantissa : ℚ) < 2 ^ 52 + 1 := by linarith
      exact Nat.le_antisymm (Nat.le_of_lt_succ (by exact_mod_cast hle)) hlong
    rw [Binary.gap_of_eq hmantissa hmore, hmantissa] at hlow
    push_cast at hlow
    refine ⟨x.exponent - 1, 2 ^ 53, ⟨by omega, by rw [hhalf]; linarith, .inr ?_⟩, ⟨?_, ?_⟩, ?_⟩
    · rw [hhalf]
      linarith
    · rw [hhalf]
      push_cast
      exact abs_le.mpr ⟨by linarith, by linarith⟩
    · exact fun _ => by decide
    · simp only [carried, hmantissa, Int.sub_add_cancel]
      rfl

/-- No two fractions stand for one number. -/
theorem standsFor_unique {x' : Binary} (hx : x.IsNormal) (hx' : x'.IsNormal) (hv : x.StandsFor v)
    (hv' : x'.StandsFor v) : x.mantissa = x'.mantissa ∧ x.exponent = x'.exponent := by
  have heq := (roundsTo_of_standsFor .positive hx hv).eq_of_standsFor hx' hv'
  rw [UnpackedFloat.finite.injEq] at heq
  exact heq.2

/-- The least number that is too large for a double. -/
def threshold : ℚ := (2 ^ 53 - 1 / 2) * 2 ^ (971 : ℤ)

theorem threshold_eq : threshold = ((2 ^ 54 - 1) * 2 ^ 970 : ℕ) := by
  have hplace : (2 : ℚ) ^ (971 : ℤ) = 2 * 2 ^ (970 : ℕ) := by
    rw [← zpow_natCast, ← zpow_one_add₀ (by norm_num)]
    rfl
  rw [threshold, hplace]
  generalize (970 : ℕ) = p
  push_cast
  ring

/-- **A number below the threshold is rounded to a double**, and not to infinity. -/
theorem RoundsTo.isNormal (h : RoundsTo s v u) (hv : v < threshold) :
    u = .zero s ∨ ∃ (x : Binary) (hx : x.IsNormal), u = .finite s x.mantissa x.exponent hx.pos := by
  obtain ⟨t, r, hgrid, hnear, rfl⟩ := h
  have hte : (0 : ℚ) < 2 ^ t := zpow_pos (by norm_num) _
  have hle : r ≤ 2 ^ 53 := hgrid.rounded_le hnear
  have hmin := hgrid.min
  have htop : t ≤ 971 := by
    by_contra hmore
    have hge : 2 ^ 52 ≤ v / 2 ^ t := hgrid.le.resolve_left (by omega)
    rw [le_div_iff₀ hte] at hge
    have htwo := two_mul_le_zpow (show 971 < t by omega)
    have hplace : (0 : ℚ) < 2 ^ (971 : ℤ) := zpow_pos (by norm_num) _
    unfold threshold at hv
    generalize (2 : ℚ) ^ (971 : ℤ) = place at hv htwo hplace
    linarith
  rcases Nat.eq_zero_or_pos r with rfl | hpos
  · exact .inl rfl
  · right
    rcases Nat.lt_or_eq_of_le hle with hlt | rfl
    · have hlong : 2 ^ 52 ≤ r ∨ t = -1074 := by
        rcases hgrid.le with hlast | hge
        · exact .inr hlast
        · exact .inl (hnear.ge (by exact_mod_cast hge))
      exact ⟨⟨false, r, t⟩, ⟨hpos, hlt, hmin, htop, hlong⟩, carried_of_lt hpos hlt t⟩
    · have hless : t < 971 := by
        refine lt_of_le_of_ne htop ?_
        rintro rfl
        have hbelow : v / 2 ^ (971 : ℤ) < 2 ^ 53 - 1 / 2 := by
          rw [div_lt_iff₀ hte]
          exact hv
        have hge := hnear.bounds.1
        generalize v / (2 : ℚ) ^ (971 : ℤ) = y at hbelow hge
        push_cast at hge
        linarith
      exact ⟨⟨false, 2 ^ 52, t + 1⟩,
        ⟨Nat.two_pow_pos _, Nat.pow_lt_pow_right (by decide) (by decide), by simp only; omega,
          by simp only; omega, .inl (le_refl _)⟩, rfl⟩

theorem mul_zpow_of_carried {m r : ℕ} {e t : ℤ} {hm : 0 < m}
    (h : carried s r t = .finite s m e hm) (hr : r ≤ 2 ^ 53) : (m : ℚ) * 2 ^ e = r * 2 ^ t := by
  unfold carried at h
  split_ifs at h with hzero hlt
  · simp only [UnpackedFloat.finite.injEq] at h
    rw [h.2.1, h.2.2]
  · simp only [UnpackedFloat.finite.injEq] at h
    have hmax : r = 2 ^ 53 := Nat.le_antisymm hr (Nat.le_of_not_lt hlt)
    rw [← h.2.1, ← h.2.2, hmax, zpow_add_one₀ (by norm_num)]
    push_cast
    ring

/-- What is rounded does not get over a double that is above it. -/
theorem RoundsTo.le {m : ℕ} {e : ℤ} {hm : 0 < m} (h : RoundsTo s v (.finite s m e hm))
    (hx : x.IsNormal) (hv : v ≤ x.size) : (m : ℚ) * 2 ^ e ≤ x.size := by
  obtain ⟨t, r, hgrid, hnear, hcarried⟩ := h
  have hte : (0 : ℚ) < 2 ^ t := zpow_pos (by norm_num) _
  have hr : r ≤ 2 ^ 53 := hgrid.rounded_le hnear
  have hle : t ≤ x.exponent := by
    by_contra hmore
    have hmin := hx.min
    have hlt : (x.mantissa : ℚ) + 1 ≤ 2 ^ 53 := by exact_mod_cast hx.lt
    have hge : 2 ^ 52 ≤ v / 2 ^ t := hgrid.le.resolve_left (by omega)
    have htwo := two_mul_le_zpow (show x.exponent < t by omega)
    have hxe : (0 : ℚ) < 2 ^ x.exponent := zpow_pos (by norm_num) _
    rw [le_div_iff₀ hte] at hge
    unfold Binary.size at hv
    nlinarith
  have hsize : x.size = (x.mantissa * 2 ^ (x.exponent - t).toNat : ℕ) * 2 ^ t := by
    rw [Binary.size]
    push_cast
    rw [← zpow_natCast, Int.toNat_of_nonneg (by omega), mul_assoc, ← zpow_add₀ (by norm_num),
      Int.sub_add_cancel]
  rw [mul_zpow_of_carried hcarried.symm hr]
  rw [hsize, ← div_le_iff₀ hte] at hv
  rw [hsize]
  exact mul_le_mul_of_nonneg_right (by exact_mod_cast hnear.le hv) hte.le

/-- One is not among the least numbers. -/
theorem least_le_one : 2 ^ 52 * (2 : ℚ) ^ (-1074 : ℤ) ≤ 1 := by
  rw [← zpow_natCast, ← zpow_add₀ (by norm_num)]
  exact zpow_le_one_of_nonpos₀ (by norm_num) (by decide)

theorem RoundsTo.ne_zero (h : RoundsTo s v u) (hv : 2 ^ 52 * 2 ^ (-1074 : ℤ) ≤ v) :
    u ≠ .zero s := by
  obtain ⟨t, r, hgrid, hnear, rfl⟩ := h
  have hlong : 2 ^ 52 ≤ r := hnear.ge (by exact_mod_cast hgrid.long hv)
  have hne : r ≠ 0 := by omega
  rw [carried, dif_neg hne]
  split_ifs <;> exact fun heq => by cases heq

/-- What is rounded is moved by half of the last place at most. -/
theorem RoundsTo.near {m : ℕ} {e : ℤ} {hm : 0 < m} (h : RoundsTo s v (.finite s m e hm))
    (hv : 2 ^ 52 * 2 ^ (-1074 : ℤ) ≤ v) :
    v * (1 - 1 / 2 ^ 53) ≤ m * 2 ^ e ∧ m * 2 ^ e ≤ v * (1 + 1 / 2 ^ 53) := by
  obtain ⟨t, r, hgrid, hnear, hcarried⟩ := h
  have hte : (0 : ℚ) < 2 ^ t := zpow_pos (by norm_num) _
  have hr : r ≤ 2 ^ 53 := hgrid.rounded_le hnear
  have hlong := hgrid.long hv
  have hvalue : v = v / 2 ^ t * 2 ^ t := (div_mul_cancel₀ v hte.ne').symm
  obtain ⟨hlow, hhigh⟩ := hnear.bounds
  rw [mul_zpow_of_carried hcarried.symm hr, hvalue]
  generalize v / (2 : ℚ) ^ t = y at *
  constructor
  · rw [mul_right_comm]
    exact mul_le_mul_of_nonneg_right (by linarith) hte.le
  · rw [mul_right_comm]
    exact mul_le_mul_of_nonneg_right (by linarith) hte.le

end

/-! ## Arithmetic -/

section

theorem tells_exact {m : ℕ} {y : ℚ} (h : y = m) : Tells (.ofMantissaAndAccuracy m .exact) y := h

theorem two_pow_log2_add_le {n : ℕ} (h : 0 < n) (k : ℕ) : 2 ^ (n.log2 + k) ≤ n * 2 ^ k := by
  rw [Nat.pow_add]
  exact Nat.mul_le_mul_right _ (Nat.log2_self_le h.ne')

/-- A quotient of whole numbers and its rest. -/
theorem tells_div (m : ℕ) {d : ℕ} (hd : 0 < d) :
    Tells (.ofMantissaAndAccuracy (m / d) (accuracyOfFraction (m % d) d)) (m / d : ℚ) := by
  have hd' : (0 : ℚ) < d := by exact_mod_cast hd
  have hm : (m / d : ℚ) = (m / d : ℕ) + (m % d : ℕ) / d := by
    rw [div_eq_iff hd'.ne', add_mul, div_mul_cancel₀ _ hd'.ne', mul_comm]
    exact_mod_cast (Nat.div_add_mod m d).symm
  have hlt : ((m % d : ℕ) : ℚ) / d < 1 := by
    rw [div_lt_iff₀ hd', one_mul]
    exact_mod_cast Nat.mod_lt m hd
  rw [hm]
  generalize m % d = rest at hlt ⊢
  unfold accuracyOfFraction
  split_ifs with hzero
  · rw [hzero, Nat.cast_zero, zero_div, add_zero]
    rfl
  · have hrest : (0 : ℚ) < rest := by exact_mod_cast Nat.pos_of_ne_zero hzero
    have hpos : (0 : ℚ) < rest / d := div_pos hrest hd'
    rcases hcompare : compare (2 * rest) d with _ | _ | _ <;>
      simp only [Tells, ExtendedMantissa.ofMantissaAndAccuracy]
    · have hhalf : (rest : ℚ) / d < 1 / 2 := by
        rw [Nat.compare_eq_lt] at hcompare
        rw [div_lt_div_iff₀ hd' (by norm_num)]
        exact_mod_cast (by omega : rest * 2 < 1 * d)
      constructor <;> linarith
    · have hhalf : (rest : ℚ) / d = 1 / 2 := by
        rw [Nat.compare_eq_eq] at hcompare
        rw [div_eq_div_iff hd'.ne' (by norm_num)]
        exact_mod_cast (by omega : rest * 2 = 1 * d)
      rw [hhalf]
    · have hhalf : 1 / 2 < (rest : ℚ) / d := by
        rw [Nat.compare_eq_gt] at hcompare
        rw [div_lt_div_iff₀ (by norm_num) hd']
        exact_mod_cast (by omega : 1 * d < rest * 2)
      constructor <;> linarith

variable (s₁ s₂ : Sign) {x₁ x₂ : Binary}

/-- **A product is rounded.** -/
theorem roundsTo_mul (h₁ : x₁.IsNormal) (h₂ : x₂.IsNormal) :
    RoundsTo (s₁ * s₂) (x₁.size * x₂.size)
      (UnpackedFloat.mul Format.binary64 (.finite s₁ x₁.mantissa x₁.exponent h₁.pos)
        (.finite s₂ x₂.mantissa x₂.exponent h₂.pos)) := by
  apply roundsTo_roundWithAccuracy
  · apply tells_exact
    have hp₁ : (0 : ℚ) < 2 ^ x₁.exponent := zpow_pos (by norm_num) _
    have hp₂ : (0 : ℚ) < 2 ^ x₂.exponent := zpow_pos (by norm_num) _
    rw [Binary.size, Binary.size, zpow_add₀ (by norm_num)]
    push_cast
    field_simp
  · have hpos := Nat.mul_pos h₁.pos h₂.pos
    have hmin₁ := h₁.min
    rw [Nat.le_log2 hpos.ne']
    rcases h₁.long with hlong | hlast₁
    · exact .inl (hlong.trans (Nat.le_mul_of_pos_right _ h₂.pos))
    · rcases h₂.long with hlong | hlast₂
      · exact .inl (hlong.trans (Nat.le_mul_of_pos_left _ h₁.pos))
      · exact .inr (by omega)

/-- A quotient has a long mantissa if its numerator has enough digits more. -/
theorem le_div_of_log2_le {m d k : ℕ} (hm : 0 < m) (hd : 0 < d)
    (h : d.log2 + 53 ≤ m.log2 + k) : 2 ^ 52 ≤ m * 2 ^ k / d := by
  have hden : 2 ^ 52 * d ≤ 2 ^ (d.log2 + 53) := by
    rw [Nat.add_comm, show 53 = 52 + 1 from rfl, Nat.add_assoc, Nat.pow_add, Nat.add_comm 1]
    exact Nat.mul_le_mul_left _ Nat.lt_log2_self.le
  rw [Nat.le_div_iff_mul_le hd]
  calc 2 ^ 52 * d ≤ 2 ^ (d.log2 + 53) := hden
    _ ≤ 2 ^ (m.log2 + k) := Nat.pow_le_pow_right (by decide) h
    _ ≤ m * 2 ^ k := two_pow_log2_add_le hm k

/-- **A quotient is rounded.** -/
theorem roundsTo_div (h₁ : x₁.IsNormal) (h₂ : x₂.IsNormal) :
    RoundsTo (s₁ / s₂) (x₁.size / x₂.size)
      (UnpackedFloat.div Format.binary64 (.finite s₁ x₁.mantissa x₁.exponent h₁.pos)
        (.finite s₂ x₂.mantissa x₂.exponent h₂.pos)) := by
  have htarget : Format.binary64.targetExponent (totalExponent x₁.mantissa x₁.exponent
      - totalExponent x₂.mantissa x₂.exponent) =
      max (x₁.mantissa.log2 + x₁.exponent - (x₂.mantissa.log2 + x₂.exponent) - 53) (-1074) := by
    simp only [Format.targetExponent, totalExponent, Format.mantissaBits, Format.minExponent]
    norm_num
    omega
  obtain ⟨t, ht⟩ : ∃ t, t = min (x₁.exponent - x₂.exponent)
      (max (x₁.mantissa.log2 + x₁.exponent - (x₂.mantissa.log2 + x₂.exponent) - 53) (-1074)) :=
    ⟨_, rfl⟩
  obtain ⟨k, hk⟩ : ∃ k, k = (x₁.exponent - x₂.exponent - t).toNat := ⟨_, rfl⟩
  have hcore : divCore Format.binary64 x₁.mantissa x₁.exponent x₂.mantissa x₂.exponent =
      (x₁.mantissa * 2 ^ k / x₂.mantissa, t,
        accuracyOfFraction (x₁.mantissa * 2 ^ k % x₂.mantissa) x₂.mantissa) := by
    rw [divCore, htarget, ← ht, ← hk, Nat.shiftLeft_eq]
  rw [UnpackedFloat.div, hcore]
  apply roundsTo_roundWithAccuracy
  · have hsize : x₁.size / x₂.size / 2 ^ t = (x₁.mantissa * 2 ^ k : ℕ) / x₂.mantissa := by
      have hexponent : x₁.exponent = k + x₂.exponent + t := by omega
      have hp : (x₂.mantissa : ℚ) ≠ 0 := by exact_mod_cast h₂.pos.ne'
      rw [Binary.size, Binary.size, hexponent, zpow_add₀ (by norm_num), zpow_add₀ (by norm_num),
        zpow_natCast]
      push_cast
      field_simp
    rw [hsize]
    exact tells_div _ h₂.pos
  · rcases Int.lt_or_le (-1074) t with hmin | hmin
    · left
      have hquotient := le_div_of_log2_le (k := k) h₁.pos h₂.pos (by omega)
      exact (Nat.le_log2 (by omega)).mpr hquotient
    · exact .inr hmin

/-- **A whole number is rounded.** -/
theorem roundsTo_ofNat {n : ℕ} (h : 0 < n) :
    RoundsTo .positive n (UnpackedFloat.ofNat Format.binary64 n) := by
  obtain ⟨k, hk⟩ : ∃ k, k = (0 - max ((n.log2 : ℤ) + 0 - 52) (-1074)).toNat := ⟨_, rfl⟩
  have hround : UnpackedFloat.ofNat Format.binary64 n =
      roundWithAccuracy Format.binary64 .positive (n * 2 ^ k) (0 - k) .exact := by
    have hcompare : compare (n : ℤ) 0 = .gt := Int.compare_eq_gt.mpr (by omega)
    rw [UnpackedFloat.ofNat, UnpackedFloat.ofInt, UnpackedFloat.normalize, hcompare]
    simp only [UnpackedFloat.round, decreaseExponent, targetExponent_eq, Int.toNat_natCast,
      Nat.shiftLeft_eq, hk]
  rw [hround]
  apply roundsTo_roundWithAccuracy
  · apply tells_exact
    rw [zero_sub, zpow_neg, zpow_natCast]
    push_cast
    field_simp
  · left
    rw [Nat.le_log2 (by positivity)]
    have hlog : 52 ≤ n.log2 + k := by omega
    exact (Nat.pow_le_pow_right (by decide) hlog).trans (two_pow_log2_add_le h k)

end

end SeriesLoad.Double
