import SeriesLoad.Proofs.Json.Scaling
import SeriesLoad.Value.Json

/-!
# Field values read back from JSON

A value is read by the form of its text, and numbers have only one form. So **a truth value and
bytes come back as they are, and every number comes back as a double, a whole one as well**
(`returns_from_json`).

A double is written with the digits that tell it from all others, and none of them is lost. It comes
back as itself if the digits and the power of ten are exact as doubles, so that only one result is
rounded. For other doubles the reader may miss the last place. A double that is not finite is not
read at all (`ofText_of_not_finite`).
-/

namespace SeriesLoad.FieldValue

open Double (fraction value)

/-- How a double comes back. -/
structure DoubleReturns (x y : Binary64) : Prop where
  isFinite : y.toFloat.isFinite = true
  sign : (fraction y).negative = (fraction x).negative
  /-- The double is the one that what is written stands for. -/
  stands : (fraction x).mantissa ≠ 0 → (fraction x).StandsFor (Json.decimal x).value
  unique : ∀ z : Binary64, z.toFloat.isFinite = true →
    (fraction z).negative = (fraction x).negative → (fraction z).mantissa ≠ 0 →
    (fraction z).StandsFor (Json.decimal x).value → z = x
  /-- It is read if its digits are exact as doubles, and if the reader is exact for it. -/
  same : Json.IsShort (Json.decimal x) ∨ Json.ReadsBack x → y = x

/-- How a value comes back. -/
inductive Returns : FieldValue → FieldValue → Prop
  | bool (b : Bool) : Returns (.bool b) (.bool b)
  | bytes (bs : List UInt8) : Returns (.bytes bs) (.bytes bs)
  | float {x y : Binary64} (h : DoubleReturns x y) : Returns (.float x) (.float y)
  | int {n : Int64} (h : n.toInt.natAbs < 2 ^ 53 → value (Float.ofInt n.toInt) = n.toInt) :
    Returns (.int n) (.float (.ofFloat (Float.ofInt n.toInt)))

/-- The value is neither infinite nor no number. -/
def IsFinite : FieldValue → Prop
  | .float x => x.toFloat.isFinite = true
  | _ => True

/-! ## Documents -/

/-- A text that is one document is read by the form of the document. -/
theorem ofText_render {j j' : Json} {v : FieldValue}
    (h : Json.value Json.maxDepth j.chars = some (j', [])) (hv : ofJson? j' = some v) :
    ofText j.render = .ok v := by
  simp only [ofText, Json.render, String.toList_ofList, Json.document, h, hv]
  rfl

theorem ofText_readable {j : Json} {v : FieldValue} (h : Json.Readable Json.maxDepth j)
    (hv : ofJson? j = some v) : ofText j.render = .ok v := by
  have hread := Json.value_chars h [] Json.ends_nil
  rw [List.append_nil] at hread
  exact ofText_render hread hv

theorem byte?_int (b : UInt8) : byte? (.int b.toNat) = some b := by
  have hlt := b.toNat_lt
  rw [byte?, if_pos (by omega), Int.toNat_natCast, UInt8.ofNat_toNat]

theorem mapM_byte? (bs : List UInt8) :
    (bs.map fun b => Json.int b.toNat).mapM byte? = some bs := by
  induction bs with
  | nil => rfl
  | cons b bs ih =>
    rw [List.map_cons, List.mapM_cons, byte?_int, ih]
    rfl

/-! ## Doubles -/

/-- What a double is read as. -/
theorem exists_returns {x : Binary64} (h : x.toFloat.isFinite = true) :
    ∃ y, ofText (toJson (.float x)).render = .ok (.float y) ∧ DoubleReturns x y := by
  obtain ⟨y, hscale, hunsigned⟩ := Json.exists_scale h
  have hread := Json.value_float h Json.maxDepth Json.ends_nil
  rw [hscale, List.append_nil] at hread
  refine ⟨_, ofText_render hread rfl, ?_, ?_, fun hne => ?_, fun z hz hsign hne hstands => ?_, ?_⟩
  · rw [Binary64.toFloat_ofFloat]
    split_ifs
    · exact (Double.fraction_neg hunsigned).1
    · exact hunsigned.isFinite
  · rw [Binary64.toFloat_ofFloat]
    split_ifs with hsign
    · rw [(Double.fraction_neg hunsigned).2, hsign]
    · rw [hunsigned.sign, Bool.eq_false_of_not_eq_true hsign]
  · exact Json.standsFor_decimal ((Json.fraction_cases h).resolve_left hne)
  · have hsame := Json.eq_of_standsFor_decimal h hz hsign hne hstands
    rw [← Binary64.ofFloat_toFloat_of_isFinite hz, hsame, Binary64.ofFloat_toFloat_of_isFinite h]
  · intro hexact
    have hback : Json.ReadsBack x := hexact.elim (Json.readsBack_of_isShort h) id
    have hsame := hback.number [] Json.ends_nil
    rw [Json.number_render h Json.ends_nil, hscale, Option.map_some, Option.some_inj,
      Prod.mk.injEq, Json.float.injEq] at hsame
    rw [hsame.1, Binary64.ofFloat_toFloat_of_isFinite h]

/-- A double that is not finite is written as `null`, and that is no value. -/
theorem ofText_of_not_finite {x : Binary64} (h : x.toFloat.isFinite = false) :
    ofText (toJson (.float x)).render = .error .noVariant := by
  have hrender : Json.layout.render x.toFloat = "null" := by
    rw [Float.isFinite, Float.Model.isFinite] at h
    rw [Decimal.Layout.render, Float.isNaN, Float.Model.isNaN, Float.isInf, Float.Model.isInf]
    cases hunpack : x.toFloat.toModel.unpack with
    | notANumber => rfl
    | infinity s =>
      -- The text of both infinities is the same.
      change (if x.toFloat < 0 then "null" else "null") = "null"
      rw [ite_self]
    | zero s =>
      rw [hunpack] at h
      cases h
    | finite s m e hm =>
      rw [hunpack] at h
      cases h
  have hnull : (toJson (.float x)).render = Json.null.render :=
    congrArg (fun text : String => String.ofList text.toList) hrender
  rw [hnull]
  decide +kernel

/-- **What comes back of a value that is written as JSON.** -/
theorem returns_from_json {v : FieldValue} (h : v.IsFinite) :
    ∃ w, ofText v.toJson.render = .ok w ∧ v.Returns w := by
  cases v with
  | float x =>
    obtain ⟨y, hread, hreturns⟩ := exists_returns h
    exact ⟨_, hread, .float hreturns⟩
  | int n =>
    have hmin := n.le_toInt
    have hmax := n.toInt_lt
    have hreadable : Json.Readable Json.maxDepth (.int n.toInt) := .int _ (by omega) (by omega)
    exact ⟨_, ofText_readable hreadable rfl, .int Double.value_ofInt⟩
  | bool b => exact ⟨_, ofText_readable (.bool _ b) rfl, .bool b⟩
  | bytes bs =>
    have hreadable : Json.Readable Json.maxDepth (.arr (bs.map fun b => .int b.toNat)) := by
      refine .arr fun j hj => ?_
      obtain ⟨b, -, rfl⟩ := List.mem_map.mp hj
      have hlt := b.toNat_lt
      exact .int _ (by omega) (by omega)
    refine ⟨_, ofText_readable hreadable ?_, .bytes bs⟩
    change ((bs.map fun b => Json.int b.toNat).mapM byte?).map bytes = _
    rw [mapM_byte?]
    rfl

theorem returns_from_json_short :
    IsFinite (.float (.ofFloat 58.5))
      ∧ ofText (toJson (.float (.ofFloat 58.5))).render = .ok (.float (.ofFloat 58.5)) := by
  have hfinite : IsFinite (.float (.ofFloat 58.5)) := by
    change (Binary64.ofFloat 58.5).toFloat.isFinite = true
    decide +kernel
  have hshort : Json.IsShort (Json.decimal (Binary64.ofFloat 58.5)) :=
    ⟨by decide +kernel, by decide +kernel, by decide +kernel⟩
  obtain ⟨w, hread, hreturns⟩ := returns_from_json hfinite
  cases hreturns with
  | float h => exact ⟨hfinite, by rw [hread, h.same (.inl hshort)]⟩

/-- A whole number is written without a point, and is read as a double nevertheless. -/
theorem whole_number_returns_as_double :
    (toJson (.int 3)).render = "3" ∧ ofText "3" = .ok (.float (.ofFloat 3))
      ∧ FieldValue.float (.ofFloat 3) ≠ .int 3 := by
  refine ⟨by decide +kernel, by decide +kernel, ?_⟩
  intro h
  cases h

end SeriesLoad.FieldValue
