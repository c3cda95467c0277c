import SeriesLoad.Proofs.Json.Numerals

/-!
# Digits scaled to a double

Digits that were read are made a double and multiplied by a power of ten, or divided by one. **Every
double that is written leads to a double again** (`exists_scale`), and not to infinity. **It is the
same one if its digits and the power of ten are exact as doubles** (`readsBack_of_isShort`), because
then only the last result is rounded.

A negative power never leads out of the doubles. A positive one is multiplied in a single step.
There the second largest double is far enough from infinity for the errors of digits and power
(`bound_mul_lt`); the largest one is looked at by itself.
-/

namespace SeriesLoad.Json

open Decimal (Binary Scientific)
open Double

/-! ## Powers of ten -/

/-- A power of ten as a double, and how near it is. -/
structure IsTenTo (n : Nat) (x : Float) : Prop where
  isUnsigned : IsUnsigned x
  isNormal : (fraction x).IsNormal
  low : 10 ^ n * (1 - 1 / 2 ^ 53) ≤ (fraction x).size
  high : (fraction x).size ≤ 10 ^ n * (1 + 1 / 2 ^ 53)
  exact : n ≤ 22 → (fraction x).size = 10 ^ n

theorem size_eq_of_nat {b : Binary} {n : Nat}
    (h : n * 2 ^ (-b.exponent).toNat = b.mantissa * 2 ^ b.exponent.toNat) : b.size = n := by
  have hp : (0 : ℚ) < 2 ^ (-b.exponent).toNat := by positivity
  rw [Binary.size, Decimal.zpow_eq_div, mul_div_assoc', div_eq_iff hp.ne']
  exact_mod_cast h.symm

/-- Small powers of ten are doubles. -/
theorem isTenTo_of_small {n : Nat} (h : n ≤ 22) : IsTenTo n (tenTo n) := by
  have hall : ∀ n < 23, (tenTo n).isFinite = true ∧ (fraction (tenTo n)).negative = false
      ∧ (fraction (tenTo n)).mantissa ≠ 0
      ∧ 10 ^ n * 2 ^ (-(fraction (tenTo n)).exponent).toNat =
        (fraction (tenTo n)).mantissa * 2 ^ (fraction (tenTo n)).exponent.toNat := by
    decide +kernel
  obtain ⟨hfinite, hsign, hpos, hvalue⟩ := hall n (Nat.lt_succ_of_le h)
  have hsize : (fraction (tenTo n)).size = 10 ^ n := by
    rw [size_eq_of_nat hvalue]
    push_cast
    rfl
  have hten : (0 : ℚ) < 10 ^ n := by positivity
  refine ⟨⟨hfinite, hsign⟩, IsUnsigned.isNormal ⟨hfinite, hsign⟩ hpos, ?_, ?_, fun _ => hsize⟩
  · rw [hsize]
    nlinarith
  · rw [hsize]
    nlinarith

/-- A large power of ten is rounded. -/
theorem roundsTo_tenTo {n : Nat} (h : 22 < n) (hmax : n ≤ 308) :
    ∃ u, RoundsTo .positive (10 ^ n) u ∧ (tenTo n).toModel = .pack u := by
  have hslow : (tenTo n).toModel = .pack (Float.Model.UnpackedFloat.roundWithAccuracy
      Float.Model.Format.binary64 .positive (2 ^ 53 * 10 ^ n) (-53) .exact) := by
    rw [tenTo, Float.ofScientific, dif_neg (by omega)]
    simp only [Bool.false_eq_true, if_false, Float.Model.ofScientific,
      Float.Model.UnpackedFloat.ofScientific]
    have hwhole : 0 ≤ Int.ofNat n := Int.natCast_nonneg n
    rw [dif_neg Nat.one_ne_zero, if_neg, if_neg, if_pos hwhole]
    · rfl
    · simp only [Int.ofNat_eq_natCast]
      omega
    · change ¬ (n : Int) > 2 ^ 11
      omega
  refine ⟨_, roundsTo_roundWithAccuracy _ (tells_exact ?_) (.inl ?_), hslow⟩
  · push_cast
    rw [zpow_neg, div_inv_eq_mul, mul_comm]
    rfl
  · rw [Nat.le_log2 (by positivity)]
    calc 2 ^ 52 ≤ 2 ^ 53 := by decide
      _ ≤ 2 ^ 53 * 10 ^ n := Nat.le_mul_of_pos_right _ (Nat.pow_pos (by decide))

/-- Every power of ten that is used is near its double. -/
theorem isTenTo {n : Nat} (h : n ≤ 308) : IsTenTo n (tenTo n) := by
  rcases Nat.lt_or_ge 22 n with hlarge | hsmall
  · obtain ⟨u, hrounds, hpack⟩ := roundsTo_tenTo hlarge h
    have hthreshold : (10 : ℚ) ^ n < threshold := by
      rw [threshold_eq, ← Nat.cast_ofNat, ← Nat.cast_pow, Nat.cast_lt]
      refine Nat.lt_of_le_of_lt (Nat.pow_le_pow_right (by decide) h) ?_
      decide +kernel
    have hleast : 2 ^ 52 * (2 : ℚ) ^ (-1074 : ℤ) ≤ 10 ^ n :=
      least_le_one.trans (one_le_pow₀ (by norm_num))
    rcases hrounds.isNormal hthreshold with rfl | ⟨b, hb, rfl⟩
    · exact absurd rfl (hrounds.ne_zero hleast)
    · obtain ⟨hunsigned, hfraction⟩ := fraction_of_pack hb hpack
      obtain ⟨hlow, hhigh⟩ := hrounds.near hleast
      refine ⟨hunsigned, ?_, ?_, ?_, by omega⟩ <;> rw [hfraction]
      · exact hb.of_eq rfl rfl
      · exact hlow
      · exact hhigh
  · exact isTenTo_of_small hsmall

/-- A word is far below the threshold. -/
theorem two_pow_lt_threshold : (2 : ℚ) ^ 64 < threshold := by
  rw [threshold_eq, ← Nat.cast_ofNat, ← Nat.cast_pow, Nat.cast_lt]
  decide +kernel

/-- Digits as a double. -/
theorem toFloat_spec {m : Nat} (hpos : 0 < m) (hmax : m < 2 ^ 64) :
    IsUnsigned (UInt64.ofNat m).toFloat ∧ (fraction (UInt64.ofNat m).toFloat).IsNormal := by
  obtain ⟨u, hrounds, hpack⟩ := roundsTo_toFloat hpos hmax
  have hword : (m : ℚ) < 2 ^ 64 := by exact_mod_cast hmax
  have hone : (1 : ℚ) ≤ m := by exact_mod_cast hpos
  rcases hrounds.isNormal (hword.trans two_pow_lt_threshold) with rfl | ⟨b, hb, rfl⟩
  · exact absurd rfl (hrounds.ne_zero (least_le_one.trans hone))
  · obtain ⟨hunsigned, hfraction⟩ := fraction_of_pack hb hpack
    refine ⟨hunsigned, ?_⟩
    rw [hfraction]
    exact hb.of_eq rfl rfl

theorem one_le_size {n : Nat} {c : Float} (h : IsTenTo n c) (hpos : 0 < n) :
    1 ≤ (fraction c).size := by
  have hten : (10 : ℚ) ≤ 10 ^ n := by
    calc (10 : ℚ) = 10 ^ 1 := (pow_one _).symm
      _ ≤ 10 ^ n := pow_le_pow_right₀ (by norm_num) hpos
  have hlow := h.low
  linarith

/-- Dividing by a power of ten does not lead out of the doubles. -/
theorem isUnsigned_div {x c : Float} {n : Nat} (hx : IsUnsigned x)
    (hnormal : (fraction x).IsNormal) (hc : IsTenTo n c) (hpos : 0 < n) : IsUnsigned (x / c) := by
  obtain ⟨u, hrounds, hpack⟩ := roundsTo_quotient hx hc.isUnsigned hnormal hc.isNormal
  refine isUnsigned_of_roundsTo hrounds hpack ?_
  have hone := one_le_size hc hpos
  have hsize : 0 ≤ (fraction x).size := by
    rw [Binary.size]
    positivity
  refine lt_of_le_of_lt ?_ (size_lt_threshold hnormal)
  rw [div_le_iff₀ (by linarith)]
  nlinarith

theorem scale_of_neg {x : Float} (hx : IsUnsigned x) {e : Int} {hops : Nat} (hneg : e < 0)
    (hhops : -308 * hops ≤ e) : ∃ y, scale x e hops = some y ∧ IsUnsigned y := by
  induction hops generalizing x e with
  | zero => omega
  | succ hops ih =>
    rw [scale, hx.beq_zero]
    by_cases hzero : (fraction x).mantissa = 0
    · exact ⟨x, by rw [hzero]; rfl, hx⟩
    · have hnormal := hx.isNormal hzero
      rw [beq_false_of_ne hzero, if_neg (by decide), if_neg (by omega), if_neg (by omega)]
      rcases Int.lt_or_le e (-308) with hfar | hnear
      · have hten := isTenTo (n := 308) (Nat.le_refl _)
        rw [if_neg (by omega)]
        push_cast at hhops
        exact ih (isUnsigned_div hx hnormal hten (by decide)) (by omega) (by omega)
      · have hten := isTenTo (n := (-e).toNat) (by omega)
        rw [if_pos hnear]
        exact ⟨_, rfl, isUnsigned_div hx hnormal hten (by omega)⟩

/-- Digits are scaled exactly if they and the power of ten are exact as doubles. -/
theorem scale_of_short {x : Float} (hx : IsUnsigned x) (hnormal : (fraction x).IsNormal)
    {s : Scientific} (hs : (fraction x).StandsFor s.value)
    (hsignificand : s.significand < 2 ^ 53) (hlow : -22 ≤ s.exponent) (hhigh : s.exponent ≤ 22) :
    scale (UInt64.ofNat s.significand).toFloat s.exponent 4 = some x := by
  have hpos := Scientific.significand_pos (hs.pos hnormal)
  obtain ⟨hunsigned, hnormal'⟩ := toFloat_spec hpos (hsignificand.trans (by decide))
  have hsize := size_toFloat hpos hsignificand
  rw [scale, hunsigned.beq_zero_of_isNormal hnormal', if_neg (by decide), if_neg (by omega)]
  rcases Int.lt_or_le s.exponent 0 with hneg | hwhole
  · have hten := isTenTo (n := (-s.exponent).toNat) (by omega)
    obtain ⟨u, hrounds, hpack⟩ :=
      roundsTo_quotient hunsigned hten.isUnsigned hnormal' hten.isNormal
    have hvalue : s.value = s.significand / 10 ^ (-s.exponent).toNat := by
      rw [Scientific.value, ← zpow_natCast, Int.toNat_of_nonneg (by omega), zpow_neg,
        div_inv_eq_mul]
    rw [hsize, hten.exact (by omega), ← hvalue] at hrounds
    rw [if_neg (by omega), if_pos (by omega), eq_of_roundsTo hrounds hpack hx hnormal hs]
  · have hten := isTenTo (n := s.exponent.toNat) (by omega)
    obtain ⟨u, hrounds, hpack⟩ :=
      roundsTo_product hunsigned hten.isUnsigned hnormal' hten.isNormal
    have hvalue : s.value = s.significand * 10 ^ s.exponent.toNat := by
      rw [Scientific.value, ← zpow_natCast, Int.toNat_of_nonneg hwhole]
    rw [hsize, hten.exact (by omega), ← hvalue] at hrounds
    rw [if_pos hwhole, eq_of_roundsTo hrounds hpack hx hnormal hs]
    simp only [hx.isInf, Bool.false_eq_true, if_false]

/-! ## Large doubles -/

/-- Where the second largest double ends. -/
@[irreducible]
def bound : Nat := (2 ^ 54 - 3) * 2 ^ 970

theorem bound_eq : (bound : ℚ) = (2 ^ 53 - 3 / 2) * 2 ^ (971 : ℤ) := by
  have hplace : (2 : ℚ) ^ (971 : ℤ) = 2 * 2 ^ (970 : ℕ) := by
    rw [← zpow_natCast, ← zpow_one_add₀ (by norm_num)]
    rfl
  unfold bound
  rw [hplace]
  generalize (970 : ℕ) = p
  push_cast
  ring

/-- There is room for an error between the bound and the threshold. -/
theorem bound_mul_lt : (bound : ℚ) * (1 + 1 / 2 ^ 53) < threshold := by
  have hp : (0 : ℚ) < 2 ^ (971 : ℤ) := zpow_pos (by norm_num) _
  rw [bound_eq, threshold, mul_right_comm]
  exact mul_lt_mul_of_pos_right (by norm_num) hp

/-- All doubles but the largest one stand for numbers within the bound. -/
theorem le_bound {b : Binary} (hb : b.IsNormal)
    (hne : ¬ (b.mantissa = 2 ^ 53 - 1 ∧ b.exponent = 971)) {v : ℚ} (hv : b.StandsFor v) :
    v ≤ bound := by
  have hlt := hb.lt
  have hmax := hb.max
  have hp : (0 : ℚ) < 2 ^ b.exponent := zpow_pos (by norm_num) _
  refine hv.le.trans ?_
  rw [bound_eq]
  by_cases htop : b.exponent = 971
  · have hmantissa : (b.mantissa : ℚ) + 2 ≤ 2 ^ 53 := by
      exact_mod_cast (by omega : b.mantissa + 2 ≤ 2 ^ 53)
    rw [htop] at hp ⊢
    exact mul_le_mul_of_nonneg_right (by linarith) hp.le
  · have hmantissa : (b.mantissa : ℚ) + 1 ≤ 2 ^ 53 := by exact_mod_cast hlt
    have htwo := two_mul_le_zpow (show b.exponent < 971 by omega)
    generalize (2 : ℚ) ^ (971 : ℤ) = place at htwo
    nlinarith

/-- The number of digits that a large power of ten leaves room for. -/
theorem div_bound : bound / 10 ^ 293 < 2 ^ 53 ∧ bound / 10 ^ 292 = 17976931348623156
    ∧ 17976931348623156 * 10 ^ 292 ≤ bound ∧ 10 ^ 17 * 10 ^ 291 ≤ bound := by
  decide +kernel

/-- As a double, digits do not get over another number that is one. -/
theorem toFloat_mul_le_of_le {m n w : Nat} {b : Binary} (hpos : 0 < m) (hmax : m < 2 ^ 64)
    (hb : b.IsNormal) (hsize : w * 2 ^ (-b.exponent).toNat = b.mantissa * 2 ^ b.exponent.toNat)
    (hle : m ≤ w) (hbound : w * 10 ^ n ≤ bound) :
    (fraction (UInt64.ofNat m).toFloat).size * 10 ^ n ≤ bound := by
  obtain ⟨u, hrounds, hpack⟩ := roundsTo_toFloat hpos hmax
  have hw : b.size = w := size_eq_of_nat hsize
  have hfloat : (fraction (UInt64.ofNat m).toFloat).size ≤ w := by
    rw [← hw]
    exact size_le_of_roundsTo hrounds hpack hb (by rw [hw]; exact_mod_cast hle)
      (size_lt_threshold hb)
  calc (fraction (UInt64.ofNat m).toFloat).size * 10 ^ n
      ≤ w * 10 ^ n := mul_le_mul_of_nonneg_right hfloat (by positivity)
    _ ≤ bound := by exact_mod_cast hbound

/-- Digits as a double stay within the bound as well. -/
theorem toFloat_mul_le {m n : Nat} (hpos : 0 < m) (hmax : m ≤ 10 ^ 17) (h : m * 10 ^ n ≤ bound) :
    (fraction (UInt64.ofNat m).toFloat).size * 10 ^ n ≤ bound := by
  have hword : m < 2 ^ 64 := hmax.trans_lt (by decide)
  obtain ⟨hover, hlast, hlast', hfar⟩ := div_bound
  have hdiv : m ≤ bound / 10 ^ n := (Nat.le_div_iff_mul_le (Nat.pow_pos (by decide))).mpr h
  rcases Nat.lt_or_ge m (2 ^ 53) with hsmall | hlarge
  · rw [size_toFloat hpos hsmall]
    exact_mod_cast h
  · rcases Nat.lt_trichotomy n 292 with hless | rfl | hmore
    · have hbound : 10 ^ 17 * 10 ^ n ≤ bound :=
        (Nat.mul_le_mul_left _ (Nat.pow_le_pow_right (by decide) (Nat.le_of_lt_succ hless))).trans
          hfar
      exact toFloat_mul_le_of_le (b := ⟨false, 6250000000000000, 4⟩) hpos hword
        (by constructor <;> decide) (by decide) hmax hbound
    · exact toFloat_mul_le_of_le (b := ⟨false, 8988465674311578, 1⟩) hpos hword
        (by constructor <;> decide) (by decide) (hdiv.trans hlast.le) hlast'
    · have hmono : ∀ k ≤ n, bound / 10 ^ n ≤ bound / 10 ^ k := fun k hk =>
        Nat.div_le_div_left (Nat.pow_le_pow_right (by decide) hk) (Nat.pow_pos (by decide))
      exact absurd (hlarge.trans (hdiv.trans (hmono 293 hmore))) (Nat.not_le_of_lt hover)

/-- The digits of a large double are scaled to a double. -/
theorem scale_of_large {s : Scientific} (hpos : 0 < s.significand) (hmax : s.significand ≤ 10 ^ 17)
    (hwhole : 0 ≤ s.exponent) (hten : s.exponent ≤ 308) (hbound : s.value ≤ bound) :
    ∃ y, scale (UInt64.ofNat s.significand).toFloat s.exponent 4 = some y ∧ IsUnsigned y := by
  obtain ⟨n, hn⟩ := Int.eq_ofNat_of_zero_le hwhole
  obtain ⟨hunsigned, hnormal⟩ := toFloat_spec hpos (hmax.trans_lt (by decide))
  have hc := isTenTo (n := n) (by omega)
  have hdigits : s.significand * 10 ^ n ≤ bound := by
    rw [Scientific.value, hn] at hbound
    exact_mod_cast hbound
  have hless := toFloat_mul_le hpos hmax hdigits
  obtain ⟨u, hrounds, hpack⟩ := roundsTo_product hunsigned hc.isUnsigned hnormal hc.isNormal
  have hproduct : (fraction (UInt64.ofNat s.significand).toFloat).size * (fraction (tenTo n)).size
      < threshold := by
    refine lt_of_le_of_lt ?_ bound_mul_lt
    calc (fraction (UInt64.ofNat s.significand).toFloat).size * (fraction (tenTo n)).size
        ≤ (fraction (UInt64.ofNat s.significand).toFloat).size * (10 ^ n * (1 + 1 / 2 ^ 53)) :=
          mul_le_mul_of_nonneg_left hc.high (by rw [Binary.size]; positivity)
      _ = (fraction (UInt64.ofNat s.significand).toFloat).size * 10 ^ n * (1 + 1 / 2 ^ 53) := by
          ring
      _ ≤ bound * (1 + 1 / 2 ^ 53) := mul_le_mul_of_nonneg_right hless (by positivity)
  have hy := isUnsigned_of_roundsTo hrounds hpack hproduct
  refine ⟨_, ?_, hy⟩
  rw [scale, hunsigned.beq_zero_of_isNormal hnormal, if_neg (by decide), if_neg (by omega),
    if_pos hwhole, hn]
  simp only [Int.toNat_natCast, hy.isInf, Bool.false_eq_true, if_false]

/-! ## Doubles read back -/

/-- The digits of a decimal and its power of ten are exact as doubles. -/
structure IsShort (s : Scientific) : Prop where
  significand : s.significand < 2 ^ 53
  low : -22 ≤ s.exponent
  high : s.exponent ≤ 22

/-- The largest double. -/
theorem scale_of_largest : ∀ negative : Bool,
    Decimal.shortest .even ⟨negative, 2 ^ 53 - 1, 971⟩ = ⟨17976931348623157, 292⟩
      ∧ (scale (UInt64.ofNat 17976931348623157).toFloat 292 4).map
        (fun y => (y.isFinite, (fraction y).negative)) = some (true, false) := by
  decide +kernel

theorem isUnsigned_toFloat_zero :
    IsUnsigned (UInt64.ofNat 0).toFloat
      ∧ fraction (UInt64.ofNat 0).toFloat = ⟨false, 0, -1074⟩ := by
  have hzero : (UInt64.ofNat 0).toFloat.isFinite = true
      ∧ fraction (UInt64.ofNat 0).toFloat = ⟨false, 0, -1074⟩ := by decide +kernel
  exact ⟨⟨hzero.1, by rw [hzero.2]⟩, hzero.2⟩

theorem exists_scale_of_isNormal {x : Float} (h : (fraction x).IsNormal) :
    ∃ y, scale (UInt64.ofNat (decimal x).significand).toFloat (decimal x).exponent 4 = some y
      ∧ IsUnsigned y := by
  obtain ⟨hpos, hlow, hhigh⟩ := Decimal.shortest_bounds .even h
  have hmax := (Decimal.shortest_spec .even h).2.1
  rcases Int.lt_or_le (decimal x).exponent 0 with hneg | hwhole
  · have hle : (decimal x).significand ≤ maxWord := significand_written_le hmax
    have hexponent : -340 ≤ (decimal x).exponent := by
      rw [decimal, written]
      split_ifs
      · change (-340 : Int) ≤ -1
        decide
      · exact hlow
    have hdigits := Scientific.significand_pos ((standsFor_decimal h).pos h)
    have hunsigned := (toFloat_spec hdigits (Nat.lt_succ_of_le hle)).1
    exact scale_of_neg hunsigned hneg (by omega)
  · -- a whole number with an exponent mark
    have hself : decimal x = Decimal.shortest .even (fraction x) := by
      rw [decimal, written] at hwhole ⊢
      split_ifs at hwhole ⊢
      · change (0 : Int) ≤ -1 at hwhole
        omega
      · rfl
    have hvalue := standsFor_decimal h
    by_cases hlargest : (fraction x).mantissa = 2 ^ 53 - 1 ∧ (fraction x).exponent = 971
    · obtain ⟨hdecimal, hscale⟩ := scale_of_largest (fraction x).negative
      have hfraction : fraction x = ⟨(fraction x).negative, 2 ^ 53 - 1, 971⟩ := by
        rw [← hlargest.1, ← hlargest.2]
      rw [hself, hfraction, hdecimal]
      obtain ⟨y, hy, hmap⟩ := Option.map_eq_some_iff.mp hscale
      rw [Prod.mk.injEq] at hmap
      exact ⟨y, hy, hmap.1, hmap.2⟩
    · rw [hself] at hvalue hwhole ⊢
      exact scale_of_large hpos hmax hwhole hhigh (le_bound h hlargest hvalue)

/-- Every double is read as a double. -/
theorem exists_scale {x : Float} (h : x.isFinite = true) :
    ∃ y, scale (UInt64.ofNat (decimal x).significand).toFloat (decimal x).exponent 4 = some y
      ∧ IsUnsigned y := by
  rcases fraction_cases h with hzero | hnormal
  · rw [decimal_of_zero hzero]
    exact scale_of_neg isUnsigned_toFloat_zero.1 (by decide) (by decide)
  · exact exists_scale_of_isNormal hnormal

/-- The digits of a short decimal are scaled to the double without its sign. -/
theorem scale_decimal {x : Float} (h : x.isFinite = true) (hshort : IsShort (decimal x)) :
    scale (UInt64.ofNat (decimal x).significand).toFloat (decimal x).exponent 4 =
      some (unsigned x) := by
  obtain ⟨hunsigned, hmantissa, hexponent⟩ := fraction_unsigned h
  have hfraction :
      fraction (unsigned x) = ⟨false, (fraction x).mantissa, (fraction x).exponent⟩ := by
    rw [← hmantissa, ← hexponent, ← hunsigned.sign]
  rcases fraction_cases h with hzero | hnormal
  · obtain ⟨hunsigned', hfraction'⟩ := isUnsigned_toFloat_zero
    have hself : fraction x = ⟨_, 0, -1074⟩ := ofBits_of_mantissa_eq_zero hzero
    have heq : (UInt64.ofNat 0).toFloat = unsigned x := by
      apply eq_of_fraction_eq
      rw [hfraction', hfraction, hself]
    rw [decimal_of_zero hzero, scale, hunsigned'.beq_zero, hfraction', ← heq]
    rfl
  · have hstands := standsFor_decimal hnormal
    have hnormal' : (fraction (unsigned x)).IsNormal := by
      rw [hfraction]
      exact hnormal.of_eq rfl rfl
    have hstands' : (fraction (unsigned x)).StandsFor (decimal x).value := by
      rw [hfraction]
      exact ⟨hstands.low, hstands.high, hstands.odd⟩
    exact scale_of_short hunsigned hnormal' hstands' hshort.significand hshort.low hshort.high

/-- **A double with a short decimal is read back.** -/
theorem readsBack_of_isShort {x : Float} (h : x.isFinite = true) (hshort : IsShort (decimal x)) :
    ReadsBack x where
  head := head_render h
  newline := by
    rw [render_chars h]
    exact (isDouble_shortest h).newline
  number rest hrest := by
    rw [number_render h hrest, scale_decimal h hshort, Option.map_some, unsigned_eq h]

end SeriesLoad.Json
