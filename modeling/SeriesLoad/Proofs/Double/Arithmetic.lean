import SeriesLoad.Proofs.Double.Bits

/-!
# Arithmetic of doubles

Doubles are unsigned here, and signs are put on and taken off apart from that (`unsigned_eq`,
`fraction_neg`). **A product or a quotient of unsigned doubles is the double that the exact one is
rounded to** (`roundsTo_product`, `roundsTo_quotient`), and so is a word as a double
(`roundsTo_toFloat`). A whole number that fits a mantissa is exact (`value_ofInt`).
-/

namespace SeriesLoad.Double

open Float.Model Float.Model.UnpackedFloat
open Decimal (Binary)

/-- The fraction in the bits of a double. -/
def fraction (x : Float) : Binary := Binary.ofBits x.toBits.toNat

/-- A double that is no less than zero. -/
structure IsUnsigned (x : Float) : Prop where
  isFinite : x.isFinite = true
  sign : (fraction x).negative = false

variable {x y z : Float}

theorem eq_of_fraction_eq (h : fraction x = fraction y) : x = y := by
  have hword : x.toBits.toNat = y.toBits.toNat :=
    ofBits_injective (UInt64.toNat_lt _) (UInt64.toNat_lt _) h
  exact Float.toBits_inj.mp (UInt64.toNat_inj.mp hword)

/-- What is unpacked of an unsigned double. -/
theorem IsUnsigned.unpack (h : IsUnsigned x) :
    ((fraction x).mantissa = 0 ∧ x.toModel.unpack = .zero .positive)
      ∨ ∃ hx : (fraction x).IsNormal, x.toModel.unpack =
        .finite .positive (fraction x).mantissa (fraction x).exponent hx.pos := by
  have hunpack := unpack_eq h.isFinite (x := fraction x) rfl
  rwa [h.sign] at hunpack

theorem IsUnsigned.isNormal (h : IsUnsigned x) (hpos : (fraction x).mantissa ≠ 0) :
    (fraction x).IsNormal := by
  rcases h.unpack with ⟨hzero, -⟩ | ⟨hnormal, -⟩
  · exact absurd hzero hpos
  · exact hnormal

theorem IsUnsigned.unpack_of_isNormal (h : IsUnsigned x) (hx : (fraction x).IsNormal) :
    x.toModel.unpack =
      .finite .positive (fraction x).mantissa (fraction x).exponent hx.pos := by
  rcases h.unpack with ⟨hzero, -⟩ | ⟨hnormal, hunpack⟩
  · exact absurd hzero hx.pos.ne'
  · exact hunpack

theorem IsUnsigned.isInf (h : IsUnsigned x) : x.isInf = false := by
  rw [Float.isInf, Float.Model.isInf]
  rcases h.unpack with ⟨_, hunpack⟩ | ⟨_, hunpack⟩
  · rw [hunpack]
    rfl
  · rw [hunpack]
    rfl

/-- What is packed is a double with the sign and the fraction. -/
theorem fraction_of_pack_signed {s : Sign} {b : Binary} (hb : b.IsNormal)
    (h : x.toModel = .pack (.finite s b.mantissa b.exponent hb.pos)) :
    x.isFinite = true ∧ fraction x = ⟨s.toBitVec.toNat == 1, b.mantissa, b.exponent⟩ := by
  constructor
  · rw [Float.isFinite, Float.Model.isFinite, h, unpack_pack (.finite _ hb)]
    rfl
  · rw [fraction, Float.toBits, h]
    exact ofBits_pack s hb

theorem fraction_of_pack {b : Binary} (hb : b.IsNormal)
    (h : x.toModel = .pack (.finite .positive b.mantissa b.exponent hb.pos)) :
    IsUnsigned x ∧ fraction x = ⟨false, b.mantissa, b.exponent⟩ := by
  obtain ⟨hfinite, hfraction⟩ := fraction_of_pack_signed hb h
  exact ⟨⟨hfinite, by rw [hfraction]; rfl⟩, hfraction⟩

theorem fraction_of_pack_zero (h : x.toModel = .pack (.zero .positive)) :
    IsUnsigned x ∧ fraction x = ⟨false, 0, -1074⟩ := by
  have hfraction : fraction x = ⟨false, 0, -1074⟩ := by
    rw [fraction, Float.toBits, h]
    rfl
  refine ⟨⟨?_, by rw [hfraction]⟩, hfraction⟩
  rw [Float.isFinite, h]
  rfl

/-! ## Rounded results -/

section

variable {v : ℚ} {u : UnpackedFloat}

/-- A result is the double that stands for the exact one. -/
theorem eq_of_roundsTo (h : RoundsTo .positive v u) (hx : x.toModel = .pack u)
    (hz : IsUnsigned z) (hnormal : (fraction z).IsNormal) (hv : (fraction z).StandsFor v) :
    x = z := by
  rw [h.eq_of_standsFor hnormal hv, ← hz.unpack_of_isNormal hnormal, pack_unpack_self] at hx
  cases x
  cases z
  exact congrArg _ hx

/-- A result is a double if the exact one is below the threshold. -/
theorem isUnsigned_of_roundsTo (h : RoundsTo .positive v u) (hx : x.toModel = .pack u)
    (hv : v < threshold) : IsUnsigned x := by
  rcases h.isNormal hv with rfl | ⟨b, hb, rfl⟩
  · exact (fraction_of_pack_zero hx).1
  · exact (fraction_of_pack hb hx).1

/-- A result does not get over a double that the exact one is not above. -/
theorem size_le_of_roundsTo (h : RoundsTo .positive v u) (hx : x.toModel = .pack u) {b : Binary}
    (hb : b.IsNormal) (hv : v ≤ b.size) (hmax : b.size < threshold) :
    (fraction x).size ≤ b.size := by
  rcases h.isNormal (hv.trans_lt hmax) with rfl | ⟨c, hc, rfl⟩
  · rw [(fraction_of_pack_zero hx).2, Binary.size, Binary.size, Nat.cast_zero, zero_mul]
    positivity
  · rw [(fraction_of_pack hc hx).2]
    exact h.le hb hv

end

/-- The largest doubles are below the threshold. -/
theorem size_lt_threshold {b : Binary} (hb : b.IsNormal) : b.size < threshold := by
  have hmantissa : (b.mantissa : ℚ) + 1 ≤ 2 ^ 53 := by exact_mod_cast hb.lt
  have hle : (2 : ℚ) ^ b.exponent ≤ 2 ^ (971 : ℤ) :=
    zpow_le_zpow_right₀ (by norm_num) hb.max
  have hpos : (0 : ℚ) < 2 ^ b.exponent := zpow_pos (by norm_num) _
  rw [Binary.size, threshold]
  generalize (2 : ℚ) ^ (971 : ℤ) = place at hle
  nlinarith

/-- **The product of doubles is rounded.** -/
theorem roundsTo_product (hx : IsUnsigned x) (hy : IsUnsigned y)
    (hx' : (fraction x).IsNormal) (hy' : (fraction y).IsNormal) :
    ∃ u, RoundsTo .positive ((fraction x).size * (fraction y).size) u
      ∧ (x * y).toModel = .pack u := by
  refine ⟨_, roundsTo_mul .positive .positive hx' hy', ?_⟩
  rw [← hx.unpack_of_isNormal hx', ← hy.unpack_of_isNormal hy']
  rfl

/-- **The quotient of doubles is rounded.** -/
theorem roundsTo_quotient (hx : IsUnsigned x) (hy : IsUnsigned y)
    (hx' : (fraction x).IsNormal) (hy' : (fraction y).IsNormal) :
    ∃ u, RoundsTo .positive ((fraction x).size / (fraction y).size) u
      ∧ (x / y).toModel = .pack u := by
  refine ⟨_, roundsTo_div .positive .positive hx' hy', ?_⟩
  rw [← hx.unpack_of_isNormal hx', ← hy.unpack_of_isNormal hy']
  rfl

/-- **A word as a double is rounded.** -/
theorem roundsTo_toFloat {n : ℕ} (hpos : 0 < n) (hlt : n < 2 ^ 64) :
    ∃ u, RoundsTo .positive n u ∧ (UInt64.ofNat n).toFloat.toModel = .pack u := by
  refine ⟨_, roundsTo_ofNat hpos, ?_⟩
  rw [UInt64.toFloat, Float.Model.ofUInt64, UnpackedFloat.ofUInt64,
    UInt64.toNat_ofNat', Nat.mod_eq_of_lt hlt]

/-- A whole number that fits a mantissa is a fraction. -/
theorem exists_isNormal {n : ℕ} (hpos : 0 < n) (hlt : n < 2 ^ 53) :
    ∃ b : Binary, b.IsNormal ∧ b.size = n := by
  obtain ⟨k, hk⟩ : ∃ k, k = 52 - n.log2 := ⟨_, rfl⟩
  have hlog : n.log2 ≤ 52 := Nat.le_of_lt_succ ((Nat.log2_lt hpos.ne').mpr hlt)
  have hlow : 2 ^ 52 ≤ n * 2 ^ k := by
    calc 2 ^ 52 = 2 ^ (n.log2 + k) := by congr 1; omega
      _ ≤ n * 2 ^ k := two_pow_log2_add_le hpos k
  have hhigh : n * 2 ^ k < 2 ^ 53 := by
    calc n * 2 ^ k < 2 ^ (n.log2 + 1) * 2 ^ k :=
          Nat.mul_lt_mul_of_pos_right Nat.lt_log2_self (Nat.two_pow_pos k)
      _ = 2 ^ 53 := by rw [← Nat.pow_add]; congr 1; omega
  refine ⟨⟨false, n * 2 ^ k, -k⟩, ⟨by positivity, hhigh, ?_, ?_, .inl hlow⟩, ?_⟩
  · simp only
    omega
  · simp only
    omega
  · rw [Binary.size]
    push_cast
    rw [zpow_neg, zpow_natCast, mul_assoc, mul_inv_cancel₀ (by positivity), mul_one]

/-! ## Zero -/

theorem isUnsigned_zero : IsUnsigned 0 ∧ (fraction 0).mantissa = 0 := by
  have hzero : (0 : Float).isFinite = true ∧ (fraction 0).negative = false
      ∧ (fraction 0).mantissa = 0 := by decide +kernel
  exact ⟨⟨hzero.1, hzero.2.1⟩, hzero.2.2⟩

/-- An unsigned double equals zero if its mantissa does. -/
theorem IsUnsigned.beq_zero (h : IsUnsigned x) : (x == 0) = ((fraction x).mantissa == 0) := by
  have hbeq : (x == 0) = (x.toModel.unpack.compare (0 : Float).toModel.unpack == some .eq) := rfl
  have hzero : (0 : Float).toModel.unpack = .zero .positive := by
    rcases isUnsigned_zero.1.unpack with ⟨_, hunpack⟩ | ⟨hnormal, _⟩
    · exact hunpack
    · exact absurd isUnsigned_zero.2 hnormal.pos.ne'
  rw [hbeq, hzero]
  rcases h.unpack with ⟨hmantissa, hunpack⟩ | ⟨hnormal, hunpack⟩
  · rw [hunpack, hmantissa]
    rfl
  · rw [hunpack, beq_false_of_ne hnormal.pos.ne']
    rfl

theorem IsUnsigned.beq_zero_of_isNormal (h : IsUnsigned x) (hx : (fraction x).IsNormal) :
    (x == 0) = false := by
  rw [h.beq_zero]
  exact beq_false_of_ne hx.pos.ne'

/-! ## Signs -/

/-- A double without its sign. -/
def unsigned (x : Float) : Float := if (fraction x).negative then -x else x

theorem neg_neg (h : x.isFinite = true) : -(-x) = x := by
  have hdouble : IsDouble x.toModel.unpack := isDouble_unpack h
  change Float.ofModel (.pack (Float.Model.pack x.toModel.unpack.neg).unpack.neg) = x
  rw [unpack_pack hdouble.neg, hdouble.neg_neg, pack_unpack_self]

/-- A double is put together from its sign and the rest. -/
theorem unsigned_eq (h : x.isFinite = true) :
    (if (fraction x).negative then -unsigned x else unsigned x) = x := by
  unfold unsigned
  split_ifs
  · exact neg_neg h
  · rfl

/-- Taking the sign away leaves the mantissa and the exponent. -/
theorem fraction_unsigned (h : x.isFinite = true) :
    IsUnsigned (unsigned x) ∧ (fraction (unsigned x)).mantissa = (fraction x).mantissa
      ∧ (fraction (unsigned x)).exponent = (fraction x).exponent := by
  unfold unsigned
  split_ifs with hsign
  · have hneg : (-x).toModel = .pack x.toModel.unpack.neg := rfl
    rcases unpack_eq h (x := fraction x) rfl with ⟨hzero, hunpack⟩ | ⟨hnormal, hunpack⟩
    · rw [hunpack, hsign] at hneg
      obtain ⟨hunsigned, hfraction⟩ := fraction_of_pack_zero hneg
      have hself : fraction x = ⟨_, 0, -1074⟩ := ofBits_of_mantissa_eq_zero hzero
      rw [hfraction, hself]
      exact ⟨hunsigned, rfl, rfl⟩
    · rw [hunpack, hsign] at hneg
      obtain ⟨hunsigned, hfraction⟩ := fraction_of_pack hnormal hneg
      rw [hfraction]
      exact ⟨hunsigned, rfl, rfl⟩
  · exact ⟨⟨h, by simpa using hsign⟩, rfl, rfl⟩

/-- A double below zero. -/
theorem fraction_neg (h : IsUnsigned x) :
    (-x).isFinite = true ∧ fraction (-x) = { fraction x with negative := true } := by
  have hneg : (-x).toModel = .pack x.toModel.unpack.neg := rfl
  rcases h.unpack with ⟨hzero, hunpack⟩ | ⟨hnormal, hunpack⟩
  · rw [hunpack] at hneg
    have hself : fraction x = ⟨_, 0, -1074⟩ := ofBits_of_mantissa_eq_zero hzero
    rw [hself, fraction, Float.toBits, Float.isFinite, hneg]
    exact ⟨rfl, rfl⟩
  · rw [hunpack] at hneg
    exact fraction_of_pack_signed hnormal hneg

/-- The number that a double is. -/
def value (x : Float) : ℚ := if (fraction x).negative then -(fraction x).size else (fraction x).size

theorem isUnsigned_one : IsUnsigned (Float.ofBits 0x3FF0000000000000)
    ∧ fraction (Float.ofBits 0x3FF0000000000000) = ⟨false, 2 ^ 52, -52⟩ := by
  have hone : (Float.ofBits 0x3FF0000000000000).isFinite = true
      ∧ fraction (Float.ofBits 0x3FF0000000000000) = ⟨false, 2 ^ 52, -52⟩ := by decide +kernel
  exact ⟨⟨hone.1, by rw [hone.2]⟩, hone.2⟩

/-- A whole number that fits a mantissa is exact as a double. -/
theorem fraction_toFloat {n : ℕ} (hpos : 0 < n) (hlt : n < 2 ^ 53) :
    ∃ b : Binary, b.IsNormal ∧ b.size = n ∧ IsUnsigned (UInt64.ofNat n).toFloat
      ∧ fraction (UInt64.ofNat n).toFloat = ⟨false, b.mantissa, b.exponent⟩ := by
  obtain ⟨u, hrounds, hpack⟩ := roundsTo_toFloat hpos (hlt.trans (by decide))
  obtain ⟨b, hb, hsize⟩ := exists_isNormal hpos hlt
  rw [← hsize] at hrounds
  rw [hrounds.eq_of_standsFor hb b.standsFor_size] at hpack
  exact ⟨b, hb, hsize, fraction_of_pack hb hpack⟩

theorem size_toFloat {n : ℕ} (hpos : 0 < n) (hlt : n < 2 ^ 53) :
    (fraction (UInt64.ofNat n).toFloat).size = n := by
  obtain ⟨b, -, hsize, -, hfraction⟩ := fraction_toFloat hpos hlt
  rw [hfraction, ← hsize]
  rfl

/-- Such a number is made a double by way of a product with one. -/
theorem ofNat_spec {n : ℕ} (h : n < 2 ^ 53) :
    IsUnsigned (Float.ofNat n) ∧ (fraction (Float.ofNat n)).size = n := by
  rcases Nat.eq_zero_or_pos n with rfl | hpos
  · obtain ⟨hunsigned, hmantissa⟩ := isUnsigned_zero
    refine ⟨hunsigned, ?_⟩
    change (fraction 0).size = _
    rw [Binary.size, hmantissa, Nat.cast_zero, zero_mul]
  · obtain ⟨b, hb, hsize, hunsigned, hfraction⟩ := fraction_toFloat hpos h
    obtain ⟨hone, hone'⟩ := isUnsigned_one
    have hproduct : Float.ofNat n =
        (UInt64.ofNat n).toFloat * Float.ofBits 0x3FF0000000000000 := by
      change Float.ofScientific n false 0 = _
      rw [Float.ofScientific, dif_pos ⟨h, by decide⟩]
      rfl
    have hnormal : (fraction (UInt64.ofNat n).toFloat).IsNormal := by
      rw [hfraction]
      exact hb.of_eq rfl rfl
    have hnormal' : (fraction (Float.ofBits 0x3FF0000000000000)).IsNormal := by
      rw [hone']
      constructor <;> decide
    obtain ⟨u, hrounds, hpack⟩ := roundsTo_product hunsigned hone hnormal hnormal'
    rw [hfraction, hone'] at hrounds
    have hself : (⟨false, b.mantissa, b.exponent⟩ : Binary).size
        * (⟨false, 2 ^ 52, -52⟩ : Binary).size = b.size := by
      rw [Binary.size, Binary.size, Binary.size]
      norm_num
    rw [hself] at hrounds
    rw [← hproduct, hrounds.eq_of_standsFor hb b.standsFor_size] at hpack
    obtain ⟨hunsigned', hfraction'⟩ := fraction_of_pack hb hpack
    exact ⟨hunsigned', by rw [hfraction', ← hsize]; rfl⟩

theorem value_ofInt {n : ℤ} (h : n.natAbs < 2 ^ 53) : value (Float.ofInt n) = n := by
  cases n with
  | ofNat n =>
    obtain ⟨hunsigned, hsize⟩ := ofNat_spec (n := n) h
    change value (Float.ofNat n) = _
    rw [value, hunsigned.sign, hsize]
    rfl
  | negSucc n =>
    obtain ⟨hunsigned, hsize⟩ := ofNat_spec (n := n + 1) h
    change value (-Float.ofNat (n + 1)) = _
    rw [value, (fraction_neg hunsigned).2]
    change -(fraction (Float.ofNat (n + 1))).size = _
    rw [hsize, Int.cast_negSucc]

end SeriesLoad.Double
