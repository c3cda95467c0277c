import SeriesLoad.Binary64
import SeriesLoad.Proofs.Double.Rounding

/-!
# The bits of doubles

A word of 64 bits has a sign, an exponent and a mantissa, whose leading one is left out unless the
double is among the least. What the fields say is the fraction of the word (`unpack_eq`,
`ofBits_pack`). **The numbers that doubles have are packed into words without a loss**
(`unpack_pack`), and no two words have the same fraction (`ofBits_injective`).
-/

namespace SeriesLoad.Double

open Float.Model Float.Model.UnpackedFloat
open Decimal (Binary)

/-- The sign of a fraction. -/
def signOf (negative : Bool) : Sign := if negative then .negative else .positive

/-! ## Fields of bits -/

theorem toNat_unpackMantissa (b : BitVec 64) :
    (@unpackMantissa Format.binary64 b).toNat = b.toNat % 2 ^ 52 := by
  simp [unpackMantissa]

theorem toNat_unpackExponent (b : BitVec 64) :
    (@unpackExponent Format.binary64 b).toNat = b.toNat / 2 ^ 52 % 2 ^ 11 := by
  simp [unpackExponent, Nat.shiftRight_eq_div_pow]

theorem toNat_unpackSign (b : BitVec 64) :
    (@unpackSign Format.binary64 b).toNat = b.toNat / 2 ^ 63 % 2 := by
  simp [unpackSign, Nat.shiftRight_eq_div_pow]

theorem toNat_one_append (m : BitVec 52) : (1#1 ++ m).toNat = 2 ^ 52 + m.toNat := by
  rw [BitVec.toNat_append, ← Nat.shiftLeft_add_eq_or_of_lt m.isLt]
  rfl

/-! ## Packing -/

/-- A number that doubles have: a zero, or a fraction. -/
inductive IsDouble : UnpackedFloat → Prop
  | zero (s : Sign) : IsDouble (.zero s)
  | finite (s : Sign) {x : Binary} (hx : x.IsNormal) :
    IsDouble (.finite s x.mantissa x.exponent hx.pos)

/-- The bits of a fraction. The leading one of a long mantissa is not among them. -/
theorem pack_finite (s : Sign) {x : Binary} (hx : x.IsNormal) :
    UnpackedFloat.pack Format.binary64 (.finite s x.mantissa x.exponent hx.pos) =
      packComponents Format.binary64 s
        (if 2 ^ 52 ≤ x.mantissa then BitVec.ofNat 11 (x.exponent + 1075).toNat else 0#11)
        (BitVec.ofNat 52 x.mantissa) := by
  have hmin := hx.min
  have hmax := hx.max
  have hbiased : (x.exponent + Format.binary64.exponentBias
      + Format.binary64.mantissaBitsWithoutImplicit).toNat = (x.exponent + 1075).toNat := by
    change (x.exponent + 1023 + 52).toNat = _
    omega
  have hfits : ¬ 2 ^ Format.binary64.exponentBits ≤ (x.exponent + 1075).toNat + 1 := by
    change ¬ 2 ^ 11 ≤ _
    omega
  have hlong : x.mantissa.log2 + 1 = Format.binary64.mantissaBits ↔ 2 ^ 52 ≤ x.mantissa := by
    have hlog := (Nat.log2_lt hx.pos.ne').mpr hx.lt
    rw [← Nat.le_log2 hx.pos.ne']
    change _ = 53 ↔ _
    omega
  simp only [UnpackedFloat.pack, hbiased, if_neg hfits, hlong]
  split_ifs <;> rfl

/-- The fraction in a word is read off its fields. -/
theorem ofBits_toNat (b : BitVec 64) :
    Binary.ofBits b.toNat =
      { negative := (@unpackSign Format.binary64 b).toNat == 1
        mantissa :=
          if (@unpackExponent Format.binary64 b).toNat == 0 then
            (@unpackMantissa Format.binary64 b).toNat
          else 2 ^ 52 + (@unpackMantissa Format.binary64 b).toNat
        exponent :=
          if (@unpackExponent Format.binary64 b).toNat == 0 then -1074
          else ((@unpackExponent Format.binary64 b).toNat : ℤ) - 1075 } := by
  rw [toNat_unpackSign, toNat_unpackExponent, toNat_unpackMantissa]
  rfl

theorem ofBitVec_eq (b : BitVec 1) : Sign.ofBitVec b = signOf (b.toNat == 1) := by
  rcases BitVec.eq_zero_or_eq_one b with rfl | rfl <;> rfl

/-- What is unpacked of a word that is neither infinite nor no number. -/
theorem unpack_word {b : BitVec 64}
    (h : (@unpackExponent Format.binary64 b).toNat ≠ 2047) {x : Binary}
    (hx : x = Binary.ofBits b.toNat) :
    (x.mantissa = 0 ∧ UnpackedFloat.unpack Format.binary64 b = .zero (signOf x.negative))
      ∨ ∃ hx : x.IsNormal, UnpackedFloat.unpack Format.binary64 b =
        .finite (signOf x.negative) x.mantissa x.exponent hx.pos := by
  have hexponent : (@unpackExponent Format.binary64 b).toNat < 2 ^ 11 := BitVec.isLt _
  have hmantissa : (@unpackMantissa Format.binary64 b).toNat < 2 ^ 52 := BitVec.isLt _
  rw [ofBits_toNat] at hx
  have hsign : Sign.ofBitVec (@unpackSign Format.binary64 b) = signOf x.negative := by
    rw [hx, ofBitVec_eq]
  unfold UnpackedFloat.unpack
  dsimp only
  rw [hsign]
  split_ifs with hinfinite hnull hzero hnull
  · exact absurd (by rw [hinfinite]; rfl) h
  · exact absurd (by rw [hinfinite]; rfl) h
  · left
    have hzero' : (@unpackExponent Format.binary64 b).toNat = 0 := by rw [hzero]; rfl
    have hnull' : (@unpackMantissa Format.binary64 b).toNat = 0 := by rw [hnull]; rfl
    rw [hzero', hnull'] at hx
    exact ⟨by rw [hx]; rfl, rfl⟩
  · right
    have hzero' : (@unpackExponent Format.binary64 b).toNat = 0 := by rw [hzero]; rfl
    have hne : (@unpackMantissa Format.binary64 b).toNat ≠ 0 := fun heq =>
      hnull (BitVec.eq_of_toNat_eq heq)
    rw [hzero'] at hx
    have hm : x.mantissa = (@unpackMantissa Format.binary64 b).toNat := by rw [hx]; rfl
    have he : x.exponent = -1074 := by rw [hx]; rfl
    refine ⟨⟨by omega, by omega, by omega, by omega, .inr he⟩, ?_⟩
    simp only [UnpackedFloat.finite.injEq, hm, he, hzero', true_and]
    rfl
  · right
    have hne : (@unpackExponent Format.binary64 b).toNat ≠ 0 := fun heq =>
      hzero (BitVec.eq_of_toNat_eq heq)
    rw [beq_false_of_ne hne] at hx
    have hm : x.mantissa = 2 ^ 52 + (@unpackMantissa Format.binary64 b).toNat := by
      rw [hx]
      rfl
    have he : x.exponent = (@unpackExponent Format.binary64 b).toNat - 1075 := by
      rw [hx]
      rfl
    refine ⟨⟨by omega, by omega, by omega, by omega, .inl (by omega)⟩, ?_⟩
    simp only [UnpackedFloat.finite.injEq, hm, he, toNat_one_append, true_and]
    rfl

theorem signOf_toBitVec (s : Sign) : signOf (s.toBitVec.toNat == 1) = s := by
  cases s <;> rfl

/-- A fraction that is packed stands in the bits. -/
theorem ofBits_pack (s : Sign) {x : Binary} (hx : x.IsNormal) :
    Binary.ofBits
        (UnpackedFloat.pack Format.binary64 (.finite s x.mantissa x.exponent hx.pos)).toNat =
      ⟨s.toBitVec.toNat == 1, x.mantissa, x.exponent⟩ := by
  have hmin := hx.min
  have hmax := hx.max
  have hlt := hx.lt
  rw [ofBits_toNat, pack_finite s hx, unpackSign_packComponents, unpackExponent_packComponents,
    unpackMantissa_packComponents]
  by_cases hlong : 2 ^ 52 ≤ x.mantissa
  · have hfield :
        (BitVec.ofNat 11 (x.exponent + 1075).toNat).toNat = (x.exponent + 1075).toNat := by
      rw [BitVec.toNat_ofNat]
      omega
    have hne : ((x.exponent + 1075).toNat == 0) = false := beq_false_of_ne (by omega)
    have hmantissa : (BitVec.ofNat 52 x.mantissa).toNat = x.mantissa - 2 ^ 52 := by
      rw [BitVec.toNat_ofNat]
      omega
    rw [if_pos hlong, hfield, hne, hmantissa]
    simp only [Bool.false_eq_true, if_false, Binary.mk.injEq, true_and]
    omega
  · have hlast := hx.long.resolve_left hlong
    have hmantissa : (BitVec.ofNat 52 x.mantissa).toNat = x.mantissa := by
      rw [BitVec.toNat_ofNat]
      omega
    rw [if_neg hlong, hmantissa, hlast]
    rfl

/-- A number that doubles have is packed without a loss. -/
theorem unpack_pack {u : UnpackedFloat} (h : IsDouble u) : (Float.Model.pack u).unpack = u := by
  cases h with
  | zero s => cases s <;> rfl
  | finite s hx =>
    rename_i x
    have hmin := hx.min
    have hmax := hx.max
    have hpos := hx.pos
    have hfield : (@unpackExponent Format.binary64 (UnpackedFloat.pack Format.binary64
        (.finite s x.mantissa x.exponent hx.pos))).toNat ≠ 2047 := by
      rw [pack_finite s hx, unpackExponent_packComponents]
      split_ifs
      · rw [BitVec.toNat_ofNat]
        change (x.exponent + 1075).toNat % 2 ^ 11 ≠ 2047
        omega
      · decide
    have hunpack := unpack_word hfield (ofBits_pack s hx).symm
    simp only [hpos.ne', false_and, false_or, signOf_toBitVec] at hunpack
    exact hunpack.2

/-- The exponent of a double that is neither infinite nor no number is not the largest one. -/
theorem exponent_ne_of_isFinite {m : Float.Model} (h : m.isFinite = true) :
    (@unpackExponent Format.binary64 m.toBits.toBitVec).toNat ≠ 2047 := by
  intro heq
  have hfull : @unpackExponent Format.binary64 m.toBits.toBitVec = -1#_ :=
    BitVec.eq_of_toNat_eq heq
  rw [Float.Model.isFinite, Float.Model.unpack, UnpackedFloat.unpack] at h
  dsimp only at h
  rw [if_pos hfull] at h
  split_ifs at h <;> cases h

/-- The fraction of a double. -/
theorem unpack_eq {m : Float.Model} (h : m.isFinite = true) {x : Binary}
    (hx : x = Binary.ofBits m.toBits.toNat) :
    (x.mantissa = 0 ∧ m.unpack = .zero (signOf x.negative))
      ∨ ∃ hx : x.IsNormal, m.unpack = .finite (signOf x.negative) x.mantissa x.exponent hx.pos :=
  unpack_word (exponent_ne_of_isFinite h) hx

/-- Words with the same fraction are the same. -/
theorem ofBits_injective {w w' : ℕ} (hw : w < 2 ^ 64) (hw' : w' < 2 ^ 64)
    (h : Binary.ofBits w = Binary.ofBits w') : w = w' := by
  simp only [Binary.ofBits, Binary.mk.injEq] at h
  obtain ⟨hsign, hmantissa, hexponent⟩ := h
  rw [Bool.eq_iff_iff, beq_iff_eq, beq_iff_eq] at hsign
  simp only [beq_iff_eq] at hmantissa hexponent
  split_ifs at hmantissa hexponent <;> omega

/-- A zero has the exponent of the least doubles. -/
theorem ofBits_of_mantissa_eq_zero {w : ℕ} (h : (Binary.ofBits w).mantissa = 0) :
    Binary.ofBits w = ⟨(Binary.ofBits w).negative, 0, -1074⟩ := by
  simp only [Binary.ofBits, beq_iff_eq] at h ⊢
  split_ifs at h with hfield
  · simp [hfield, h]
  · omega

/-- Every double is what is packed of its number. -/
theorem pack_unpack_self (m : Float.Model) : Float.Model.pack m.unpack = m := by
  cases m with
  | mk bits valid =>
    rw [Float.Model.mk.injEq]
    exact UInt64.toBitVec_inj.mp (pack_unpack_of_valid valid)

/-- A double that is neither infinite nor no number has one of the numbers. -/
theorem isDouble_unpack {m : Float.Model} (h : m.isFinite = true) : IsDouble m.unpack := by
  rcases unpack_eq h rfl with ⟨_, hunpack⟩ | ⟨hnormal, hunpack⟩
  · rw [hunpack]
    exact .zero _
  · rw [hunpack]
    exact .finite _ hnormal

/-- Changing the sign gives one of the numbers. -/
theorem IsDouble.neg {u : UnpackedFloat} (h : IsDouble u) : IsDouble u.neg := by
  cases h with
  | zero s => exact .zero _
  | finite s hx => exact .finite _ hx

theorem IsDouble.neg_neg {u : UnpackedFloat} (h : IsDouble u) : u.neg.neg = u := by
  cases h with
  | zero s => cases s <;> rfl
  | finite s hx => cases s <;> rfl

end SeriesLoad.Double

namespace SeriesLoad.Binary64

open Float.Model

@[simp] theorem toFloat_ofFloat (x : Float) : (ofFloat x).toFloat = x := Float.ofBits_toBits x

/-- A word is told by what it stands for, unless that is not a number. -/
theorem ofFloat_toFloat {x : Binary64} (h : x.toFloat.isNaN = false) : ofFloat x.toFloat = x := by
  have hpack := @UnpackedFloat.pack_unpack Format.binary64 x.bits.toBitVec (by decide)
  have hbits : x.toFloat.toBits.toBitVec = UnpackedFloat.pack Format.binary64
      (UnpackedFloat.unpack Format.binary64 x.bits.toBitVec) := rfl
  rw [← hbits] at hpack
  by_cases hnan : @UnpackedFloat.isNaNBits Format.binary64 x.bits.toBitVec = true
  · rw [if_pos hnan] at hpack
    change (UnpackedFloat.unpack Format.binary64 x.toFloat.toBits.toBitVec).isNaN = false at h
    rw [hpack] at h
    exact absurd h (by decide)
  · rw [if_neg hnan] at hpack
    exact congrArg mk (UInt64.toBitVec_inj.mp hpack)

theorem ofFloat_toFloat_of_isFinite {x : Binary64} (h : x.toFloat.isFinite = true) :
    ofFloat x.toFloat = x := by
  refine ofFloat_toFloat ?_
  rw [Float.isFinite, Float.Model.isFinite] at h
  rw [Float.isNaN, Float.Model.isNaN]
  cases hunpack : x.toFloat.toModel.unpack with
  | notANumber =>
    rw [hunpack] at h
    cases h
  | _ => rfl

end SeriesLoad.Binary64
