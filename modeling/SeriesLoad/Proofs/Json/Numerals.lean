import SeriesLoad.Proofs.Double.Arithmetic
import SeriesLoad.Proofs.Json.Reader

/-!
# The text of a double

A double is written as the numeral of its shortest decimal, in one of four forms (`numeral_cases`).
**What is read of the text are all digits of that decimal and the power of ten behind them**
(`number_render`, `value_float`): they fit into a word, so none is left out. The decimal tells a
double from all others (`eq_of_standsFor_decimal`).
-/

namespace SeriesLoad.Json

open Decimal (Binary Scientific)
open Double

/-! ## Numbers with a point or an exponent mark -/

/-- A number taken apart: its sign, the digits before and after the point, and what stands behind
the exponent mark. Without digits after the point there is no point. -/
structure Numeral where
  negative : Bool
  whole : List Char
  fraction : List Char
  exponent : Option Int

/-- The characters of a fraction, with the point in front. -/
def pointChars : List Char → List Char
  | [] => []
  | d :: ds => '.' :: d :: ds

/-- The characters of an exponent, with its mark in front. -/
def markChars : Option Int → List Char
  | none => []
  | some power => 'e' :: (if power < 0 then '-' else '+') :: Nat.toDigits 10 power.natAbs

namespace Numeral

/-- The characters of a number without its sign. -/
def unsigned (n : Numeral) : List Char :=
  n.whole ++ (pointChars n.fraction ++ markChars n.exponent)

/-- The characters of a number. -/
def chars (n : Numeral) : List Char :=
  if n.negative then '-' :: n.unsigned else n.unsigned

/-- The number that all digits make. -/
def digits (n : Numeral) : Nat := Text.ofDigits 0 (n.whole ++ n.fraction)

/-- There are digits in front, with no zero before them, and a point or an exponent mark behind. -/
structure IsDouble (n : Numeral) : Prop where
  whole : ∀ c ∈ n.whole, c.isDigit = true
  fraction : ∀ c ∈ n.fraction, c.isDigit = true
  leading : (n.whole.isEmpty || (n.whole.length != 1 && n.whole.head? == some '0')) = false
  behind : n.fraction ≠ [] ∨ n.exponent ≠ none
  fits : n.digits ≤ maxWord

end Numeral

theorem foldl_fraction {m : Nat} {e : Int} {ds : List Char} (h : Text.ofDigits m ds ≤ maxWord) :
    ds.foldl Gathered.fraction ⟨m, e, false⟩ = ⟨Text.ofDigits m ds, e - ds.length, false⟩ := by
  induction ds generalizing m e with
  | nil => simp
  | cons d ds ih =>
    rw [Text.ofDigits_cons] at h ⊢
    have hnext := Nat.le_trans (Text.le_ofDigits (m * 10 + Text.digitValue d) ds) h
    have hfirst : Gathered.fraction ⟨m, e, false⟩ d =
        ⟨m * 10 + Text.digitValue d, e - 1, false⟩ := by
      simp only [Gathered.fraction, Bool.false_or, decide_eq_true_eq,
        if_neg (Nat.not_lt_of_le hnext)]
    rw [List.foldl_cons, hfirst, ih h, List.length_cons, Gathered.mk.injEq]
    refine ⟨rfl, ?_, rfl⟩
    omega

theorem exponent_markChars (power : Int) {rest : List Char} (h : Ends rest) :
    exponent ((if power < 0 then '-' else '+') :: Nat.toDigits 10 power.natAbs ++ rest) =
      some (power, rest) := by
  obtain ⟨hdigits, hrest⟩ := span_toDigits power.natAbs h
  have hvalue := Text.ofDigits_toDigits power.natAbs
  obtain ⟨c, cs, hcs, -⟩ := Text.Integer.exists_toDigits power.natAbs
  rw [hcs] at hdigits hrest hvalue ⊢
  rw [List.cons_append] at hdigits hrest
  split_ifs with hneg
  · simp only [exponent, List.cons_append, hdigits, hrest, hvalue, if_true, Option.some_inj,
      Prod.mk.injEq, Int.ofNat_eq_natCast, and_true]
    omega
  · simp only [exponent, List.cons_append, hdigits, hrest, hvalue, Bool.false_eq_true, if_false,
      Option.some_inj, Prod.mk.injEq, Int.ofNat_eq_natCast, and_true]
    omega

theorem ends_pointChars {ds rest : List Char} (h : ds ≠ []) :
    ∀ c ∈ (pointChars ds ++ rest).head?, c.isDigit = false := by
  intro c hc
  cases ds with
  | nil => exact absurd rfl h
  | cons d ds =>
    rw [pointChars, List.cons_append, List.head?_cons, Option.mem_some_iff] at hc
    rw [← hc]
    decide

theorem ends_markChars (power : Option Int) {rest : List Char} (h : Ends rest) :
    ∀ c ∈ (markChars power ++ rest).head?, c.isDigit = false := by
  intro c hc
  cases power with
  | none => exact not_isDigit_of_ends h c hc
  | some power =>
    rw [markChars, List.cons_append, List.head?_cons, Option.mem_some_iff] at hc
    rw [← hc]
    decide

theorem number?_false (g : Gathered) (negative : Bool) (e : Int) :
    g.number? negative false e = (g.float? negative e).map .float := by
  simp [Gathered.number?]

/-- What is read of a number that is taken apart. -/
theorem number_chars {n : Numeral} (h : n.IsDouble) {rest : List Char} (hrest : Ends rest) :
    number (n.chars ++ rest) =
      ((⟨n.digits, -n.fraction.length, false⟩ : Gathered).float? n.negative
        (n.exponent.getD 0)).map fun y => (.float y, rest) := by
  obtain ⟨negative, whole, fraction, power⟩ := n
  obtain ⟨hwhole, hfraction, hleading, hbehind, hfits⟩ := h
  simp only [Numeral.digits] at hwhole hfraction hleading hbehind hfits ⊢
  have hmark := ends_markChars power hrest
  have hnext : ∀ c ∈ (pointChars fraction ++ (markChars power ++ rest)).head?,
      c.isDigit = false := by
    cases fraction with
    | nil => exact hmark
    | cons d ds => exact ends_pointChars (List.cons_ne_nil _ _)
  obtain ⟨htake, hdrop⟩ := span_digits hwhole hnext
  obtain ⟨htake', hdrop'⟩ := span_digits hfraction hmark
  rw [Text.ofDigits_append] at hfits ⊢
  have hgathered : whole.foldl Gathered.whole ⟨0, 0, false⟩ =
      ⟨Text.ofDigits 0 whole, 0, false⟩ :=
    foldl_whole ((Text.le_ofDigits _ _).trans hfits)
  have hgathered' := foldl_fraction (e := 0) hfits
  rw [Int.zero_sub] at hgathered'
  generalize Text.ofDigits 0 whole = m at hfits hgathered hgathered' ⊢
  obtain ⟨w, ws, rfl⟩ : ∃ w ws, whole = w :: ws := by
    cases whole with
    | nil => simp at hleading
    | cons w ws => exact ⟨w, ws, rfl⟩
  have hminus : w ≠ '-' := by
    rintro rfl
    exact absurd (hwhole '-' List.mem_cons_self) (by decide)
  rw [List.cons_append] at htake hdrop
  unfold number Numeral.chars Numeral.unsigned
  cases negative
  case' true =>
    simp only [if_true, List.cons_append, List.append_assoc, htake, hdrop, hleading, hgathered]
  case' false =>
    simp only [Bool.false_eq_true, if_false, List.cons_append, List.append_assoc]
    split
    next hsign => exact absurd (List.head_eq_of_cons_eq hsign) hminus
    simp only [htake, hdrop, hleading, hgathered]
  -- the signs do not matter any more
  all_goals
    cases fraction with
    | nil =>
      cases power with
      | none => simp at hbehind
      | some power =>
        have hexponent := exponent_markChars power hrest
        simp only [pointChars, markChars, List.nil_append, List.cons_append] at hexponent ⊢
        simp [hexponent, number?_false, Option.map_map, Function.comp_def]
    | cons d ds =>
      simp only [pointChars, List.cons_append] at htake' hdrop' ⊢
      simp only [htake', hdrop', hgathered']
      cases power with
      | none =>
        cases rest with
        | nil => simp [markChars, number?_false, Option.map_map, Function.comp_def]
        | cons c rest =>
          obtain ⟨-, -, he, hE⟩ := isDigit_of_ends hrest
          simp [markChars, he, hE, number?_false, Option.map_map, Function.comp_def]
      | some power =>
        have hexponent := exponent_markChars power hrest
        simp only [markChars, List.cons_append] at hexponent ⊢
        simp [hexponent, number?_false, Option.map_map, Function.comp_def]

/-- A number is on one line. -/
theorem Numeral.IsDouble.newline {n : Numeral} (h : n.IsDouble) : '\n' ∉ n.chars := by
  have hdigits : ∀ ds : List Char, (∀ c ∈ ds, c.isDigit = true) → '\n' ∉ ds :=
    fun ds hds hmem => absurd (hds _ hmem) (by decide)
  have hpoint : '\n' ∉ pointChars n.fraction := by
    have hfraction := hdigits _ h.fraction
    cases hn : n.fraction with
    | nil => exact List.not_mem_nil
    | cons d ds =>
      rw [hn] at hfraction
      rw [pointChars, List.mem_cons, not_or]
      exact ⟨by decide, hfraction⟩
  have hmark : '\n' ∉ markChars n.exponent := by
    cases n.exponent with
    | none => exact List.not_mem_nil
    | some power =>
      have hpower := hdigits (Nat.toDigits 10 power.natAbs) fun _ hc =>
        Text.isDigit_of_mem_toDigits hc
      rw [markChars, List.mem_cons, List.mem_cons, not_or, not_or]
      exact ⟨by decide, by split_ifs <;> decide, hpower⟩
  have hunsigned : '\n' ∉ n.unsigned := by
    rw [unsigned, List.mem_append, List.mem_append, not_or, not_or]
    exact ⟨hdigits _ h.whole, hpoint, hmark⟩
  unfold chars
  split_ifs
  · rw [List.mem_cons, not_or]
    exact ⟨by decide, hunsigned⟩
  · exact hunsigned

/-! ## The text of a decimal -/

/-- The power of ten of the first digit. -/
def power (s : Scientific) : Int := s.exponent + (Nat.toDigits 10 s.significand).length - 1

/-- A decimal is written without an exponent mark. -/
def isPlain (s : Scientific) : Bool := s.significand == 0 || layout.plain (power s)

/-- The text of a decimal, taken apart. -/
def numeral (negative : Bool) (s : Scientific) : Numeral :=
  let ds := Nat.toDigits 10 s.significand
  if isPlain s then
    if power s < 0 then
      ⟨negative, ['0'], List.replicate (-(power s + 1)).toNat '0' ++ ds, none⟩
    else if 0 ≤ s.exponent then
      ⟨negative, ds ++ List.replicate s.exponent.toNat '0', ['0'], none⟩
    else ⟨negative, ds.take (power s + 1).toNat, ds.drop (power s + 1).toNat, none⟩
  else ⟨negative, ds.take 1, ds.drop 1, some (power s)⟩

theorem power_add_one (s : Scientific) :
    power s + 1 = s.exponent + (Nat.toDigits 10 s.significand).length := by
  rw [power]
  omega

/-- The four forms of a decimal. -/
theorem numeral_cases (negative : Bool) (s : Scientific) :
    (isPlain s = true ∧ power s < 0 ∧ numeral negative s =
        ⟨negative, ['0'], List.replicate (-(power s + 1)).toNat '0'
          ++ Nat.toDigits 10 s.significand, none⟩)
    ∨ (isPlain s = true ∧ 0 ≤ power s ∧ 0 ≤ s.exponent ∧ numeral negative s =
        ⟨negative, Nat.toDigits 10 s.significand ++ List.replicate s.exponent.toNat '0', ['0'],
          none⟩)
    ∨ (isPlain s = true ∧ 0 ≤ power s ∧ s.exponent < 0 ∧ numeral negative s =
        ⟨negative, (Nat.toDigits 10 s.significand).take (power s + 1).toNat,
          (Nat.toDigits 10 s.significand).drop (power s + 1).toNat, none⟩)
    ∨ (isPlain s = false ∧ numeral negative s =
        ⟨negative, (Nat.toDigits 10 s.significand).take 1,
          (Nat.toDigits 10 s.significand).drop 1, some (power s)⟩) := by
  unfold numeral
  grind

/-- The text of a decimal is put together again. -/
theorem unsigned_numeral (negative : Bool) (s : Scientific) :
    (numeral negative s).unsigned = layout.digits s := by
  have hlength := power_add_one s
  have hdigits : layout.digits s =
      if isPlain s then Decimal.pointAt (Nat.toDigits 10 s.significand) (power s + 1) true
      else Decimal.withExponent (Nat.toDigits 10 s.significand) (power s) := rfl
  obtain ⟨d, ds, hds, -⟩ := Text.Integer.exists_toDigits s.significand
  rcases numeral_cases negative s with ⟨hplain, hsmall, heq⟩ | ⟨hplain, hlarge, hwhole, heq⟩ |
    ⟨hplain, hlarge, hmixed, heq⟩ | ⟨hplain, heq⟩
  · rw [hdigits, heq, if_pos hplain, Decimal.pointAt, if_pos (by omega)]
    simp only [Numeral.unsigned, markChars, hds, List.append_nil]
    cases (-(power s + 1)).toNat <;> rfl
  · have hzeros : (power s + 1).toNat - (Nat.toDigits 10 s.significand).length =
        s.exponent.toNat := by omega
    rw [hdigits, heq, if_pos hplain, Decimal.pointAt, if_neg (by omega)]
    simp only [hzeros]
    rw [if_pos (by omega)]
    simp [Numeral.unsigned, markChars, pointChars]
  · obtain ⟨c, cs, hcs⟩ : ∃ c cs,
        (Nat.toDigits 10 s.significand).drop (power s + 1).toNat = c :: cs := by
      apply List.exists_cons_of_ne_nil
      rw [ne_eq, List.drop_eq_nil_iff]
      omega
    rw [hdigits, heq, if_pos hplain, Decimal.pointAt, if_neg (by omega)]
    simp only [hcs]
    rw [if_neg (by omega)]
    simp [Numeral.unsigned, markChars, pointChars]
  · rw [hdigits, heq, hplain, hds]
    cases ds <;> simp [Numeral.unsigned, pointChars, markChars, Decimal.withExponent]

/-- A decimal as its digits are gathered: a whole number that is written out has a zero after the
point. -/
def written (s : Scientific) : Scientific :=
  if isPlain s && 0 ≤ s.exponent then ⟨s.significand * 10 ^ (s.exponent + 1).toNat, -1⟩ else s

theorem value_written (s : Scientific) : (written s).value = s.value := by
  unfold written
  split_ifs with h
  · rw [Bool.and_eq_true, decide_eq_true_eq] at h
    have hten : (10 : ℚ) ^ (s.exponent + 1).toNat = 10 ^ s.exponent * 10 := by
      rw [← zpow_natCast, Int.toNat_of_nonneg (by omega), zpow_add_one₀ (by norm_num)]
    rw [Scientific.value, Scientific.value]
    push_cast
    rw [hten]
    ring
  · rfl

theorem ofDigits_zeros (m k : Nat) : Text.ofDigits m (List.replicate k '0') = m * 10 ^ k := by
  induction k generalizing m with
  | zero => simp
  | succ k ih =>
    rw [List.replicate_succ, Text.ofDigits_cons, ih, Nat.pow_succ']
    exact Nat.mul_assoc _ _ _

theorem written_of_not_whole {s : Scientific} (h : isPlain s = false ∨ s.exponent < 0) :
    written s = s := by
  rw [written, if_neg]
  rw [Bool.and_eq_true, decide_eq_true_eq]
  rintro ⟨hplain, hwhole⟩
  rcases h with hmarked | hneg
  · rw [hplain] at hmarked
    cases hmarked
  · omega

theorem written_of_whole {s : Scientific} (hplain : isPlain s = true) (h : 0 ≤ s.exponent) :
    written s = ⟨s.significand * 10 ^ (s.exponent + 1).toNat, -1⟩ := by
  rw [written, if_pos]
  rw [Bool.and_eq_true, decide_eq_true_eq]
  exact ⟨hplain, h⟩

/-- The digits of a numeral, as they are gathered. -/
theorem gathered_numeral (negative : Bool) (s : Scientific) :
    (numeral negative s).digits = (written s).significand ∧
      -((numeral negative s).fraction.length : Int) + (numeral negative s).exponent.getD 0 =
        (written s).exponent := by
  have hlength := power_add_one s
  have hdigits := Text.ofDigits_toDigits s.significand
  have hpos : 0 < (Nat.toDigits 10 s.significand).length :=
    List.length_pos_iff.mpr Nat.toDigits_ne_nil
  rcases numeral_cases negative s with ⟨hplain, hsmall, heq⟩ | ⟨hplain, hlarge, hwhole, heq⟩ |
    ⟨hplain, hlarge, hmixed, heq⟩ | ⟨hplain, heq⟩
  · rw [heq, written_of_not_whole (.inr (by omega))]
    constructor
    · have hzero : Text.ofDigits 0 ['0'] = 0 := rfl
      simp only [Numeral.digits, Text.ofDigits_append, hzero, Text.ofDigits_replicate_zero, hdigits]
    · simp only [List.length_append, List.length_replicate, Option.getD_none]
      omega
  · rw [heq, written_of_whole hplain hwhole]
    constructor
    · have hexponent : (s.exponent + 1).toNat = s.exponent.toNat + 1 := by omega
      have hzero : ∀ m, Text.ofDigits m ['0'] = m * 10 := fun m => rfl
      simp only [Numeral.digits, Text.ofDigits_append, hzero, ofDigits_zeros, hdigits, hexponent,
        Nat.pow_succ, Nat.mul_assoc]
    · rfl
  · rw [heq, written_of_not_whole (.inr hmixed)]
    constructor
    · simp only [Numeral.digits, List.take_append_drop, hdigits]
    · simp only [List.length_drop, Option.getD_none]
      omega
  · rw [heq, written_of_not_whole (.inl hplain)]
    constructor
    · simp only [Numeral.digits, List.take_append_drop, hdigits]
    · simp only [List.length_drop, Option.getD_some]
      omega

/-- All digits of a double fit into a word. -/
theorem significand_written_le {s : Scientific} (hmax : s.significand ≤ 10 ^ 17) :
    (written s).significand ≤ maxWord := by
  have hword : 10 ^ 17 ≤ maxWord := by decide
  by_cases h : isPlain s = true ∧ 0 ≤ s.exponent
  · obtain ⟨hplain, hwhole⟩ := h
    rw [written_of_whole hplain hwhole]
    rw [isPlain, Bool.or_eq_true, beq_iff_eq] at hplain
    rcases hplain with hzero | hplain
    · simp [hzero]
    · have hlength := power_add_one s
      have hpower : power s ≤ 15 := by
        simp only [layout, decide_eq_true_eq] at hplain
        exact hplain.2
      have hlt : s.significand < 10 ^ (Nat.toDigits 10 s.significand).length :=
        (Nat.length_toDigits_le_iff (by decide)
          (List.length_pos_iff.mpr Nat.toDigits_ne_nil)).mp (Nat.le_refl _)
      calc s.significand * 10 ^ (s.exponent + 1).toNat
          ≤ 10 ^ (Nat.toDigits 10 s.significand).length * 10 ^ (s.exponent + 1).toNat :=
            Nat.mul_le_mul_right _ hlt.le
        _ = 10 ^ ((Nat.toDigits 10 s.significand).length + (s.exponent + 1).toNat) :=
            (Nat.pow_add _ _ _).symm
        _ ≤ 10 ^ 17 := Nat.pow_le_pow_right (by decide) (by omega)
        _ ≤ maxWord := hword
  · rw [written, if_neg (by simpa using h)]
    exact hmax.trans hword

theorem leading_of_head {ds : List Char} (hne : ds ≠ [])
    (h : ds.length = 1 ∨ ds.head? ≠ some '0') :
    (ds.isEmpty || (ds.length != 1 && ds.head? == some '0')) = false := by
  rw [List.isEmpty_eq_false_iff.mpr hne, Bool.false_or, Bool.and_eq_false_iff]
  rcases h with hlength | hhead
  · exact .inl (by rw [hlength]; rfl)
  · exact .inr (beq_eq_false_iff_ne.mpr hhead)

theorem isDouble_numeral (negative : Bool) {s : Scientific}
    (hzero : s.significand = 0 → s.exponent = 0) (hmax : s.significand ≤ 10 ^ 17) :
    (numeral negative s).IsDouble := by
  have hlength := power_add_one s
  have hdigit : ∀ c ∈ Nat.toDigits 10 s.significand, c.isDigit = true := fun c hc =>
    Text.isDigit_of_mem_toDigits hc
  have hzeros : ∀ k, ∀ c ∈ List.replicate k '0', c.isDigit = true := fun k c hc => by
    rw [List.eq_of_mem_replicate hc]
    decide
  have hpos : 0 < (Nat.toDigits 10 s.significand).length :=
    List.length_pos_iff.mpr Nat.toDigits_ne_nil
  have hfits : (numeral negative s).digits ≤ maxWord := by
    rw [(gathered_numeral negative s).1]
    exact significand_written_le hmax
  rcases numeral_cases negative s with ⟨hplain, hsmall, heq⟩ | ⟨hplain, hlarge, hwhole, heq⟩ |
    ⟨hplain, hlarge, hmixed, heq⟩ | ⟨hplain, heq⟩
  · rw [heq] at hfits ⊢
    refine ⟨hzeros 1, ?_, rfl, .inl ?_, hfits⟩
    · intro c hc
      rcases List.mem_append.mp hc with hc | hc
      · exact hzeros _ c hc
      · exact hdigit c hc
    · exact List.append_ne_nil_of_right_ne_nil _ Nat.toDigits_ne_nil
  · rw [heq] at hfits ⊢
    refine ⟨?_, hzeros 1, ?_, .inl (List.cons_ne_nil _ _), hfits⟩
    · intro c hc
      rcases List.mem_append.mp hc with hc | hc
      · exact hdigit c hc
      · exact hzeros _ c hc
    · refine leading_of_head (List.append_ne_nil_of_left_ne_nil Nat.toDigits_ne_nil _) ?_
      rcases Nat.eq_zero_or_pos s.significand with hnull | hsome
      · left
        rw [hnull, hzero hnull]
        rfl
      · right
        rw [List.head?_append_of_ne_nil _ Nat.toDigits_ne_nil]
        exact head?_toDigits hsome
  · have hsome : 0 < s.significand := by
      by_contra hnull
      have := hzero (by omega)
      omega
    have htake : (Nat.toDigits 10 s.significand).take (power s + 1).toNat ≠ [] := by
      rw [ne_eq, List.take_eq_nil_iff]
      rintro (hnone | hnil)
      · omega
      · exact Nat.toDigits_ne_nil hnil
    rw [heq] at hfits ⊢
    refine ⟨fun c hc => hdigit c (List.mem_of_mem_take hc),
      fun c hc => hdigit c (List.mem_of_mem_drop hc), leading_of_head htake (.inr ?_), .inl ?_,
      hfits⟩
    · rw [List.head?_take, if_neg (by omega)]
      exact head?_toDigits hsome
    · rw [ne_eq, List.drop_eq_nil_iff]
      omega
  · rw [heq] at hfits ⊢
    refine ⟨fun c hc => hdigit c (List.mem_of_mem_take hc),
      fun c hc => hdigit c (List.mem_of_mem_drop hc), ?_, .inr (Option.some_ne_none _), hfits⟩
    obtain ⟨d, ds, hds, -⟩ := Text.Integer.exists_toDigits s.significand
    rw [hds]
    rfl

/-! ## The text of a double -/

/-- The decimal that a double is written as, as its digits are gathered. -/
def decimal (x : Float) : Scientific := written (Decimal.shortest .even (fraction x))

/-- The fraction of a double is zero, or is one that has a shortest decimal. -/
theorem fraction_cases {x : Float} (h : x.isFinite = true) :
    (fraction x).mantissa = 0 ∨ (fraction x).IsNormal := by
  rcases unpack_eq h rfl with ⟨hzero, -⟩ | ⟨hnormal, -⟩
  · exact .inl hzero
  · exact .inr hnormal

theorem shortest_of_zero {b : Binary} (h : b.mantissa = 0) :
    Decimal.shortest .even b = ⟨0, 0⟩ := by
  rw [Decimal.shortest, if_pos (by rw [h]; rfl)]

theorem negative_numeral (negative : Bool) (s : Scientific) :
    (numeral negative s).negative = negative := by
  unfold numeral
  split_ifs <;> rfl

/-- A double is written as the numeral of its shortest decimal. -/
theorem render_chars {x : Float} (h : x.isFinite = true) :
    (layout.render x).toList =
      (numeral (fraction x).negative (Decimal.shortest .even (fraction x))).chars := by
  have hfinite : x.isNaN = false ∧ x.isInf = false := by
    rw [Float.isNaN, Float.Model.isNaN, Float.isInf, Float.Model.isInf]
    rcases unpack_eq h rfl with ⟨_, hunpack⟩ | ⟨_, hunpack⟩
    · rw [hunpack]
      exact ⟨rfl, rfl⟩
    · rw [hunpack]
      exact ⟨rfl, rfl⟩
  rw [Decimal.Layout.render, hfinite.1, hfinite.2]
  simp only [Bool.false_eq_true, if_false, String.toList_ofList]
  rw [Numeral.chars, unsigned_numeral, negative_numeral]
  rfl

theorem isDouble_shortest {x : Float} (h : x.isFinite = true) :
    (numeral (fraction x).negative (Decimal.shortest .even (fraction x))).IsDouble := by
  rcases fraction_cases h with hzero | hnormal
  · rw [shortest_of_zero hzero]
    exact isDouble_numeral _ (fun _ => rfl) (Nat.zero_le _)
  · have hpos := (Decimal.shortest_bounds .even hnormal).1
    exact isDouble_numeral _ (fun hnull => by omega) (Decimal.shortest_spec .even hnormal).2.1

/-- What is read of the text of a double: the digits of its decimal, all of them. -/
theorem number_render {x : Float} (h : x.isFinite = true) {rest : List Char} (hrest : Ends rest) :
    number ((layout.render x).toList ++ rest) =
      (scale (UInt64.ofNat (decimal x).significand).toFloat (decimal x).exponent 4).map fun y =>
        (.float (if (fraction x).negative then -y else y), rest) := by
  obtain ⟨hdigits, hexponent⟩ :=
    gathered_numeral (fraction x).negative (Decimal.shortest .even (fraction x))
  rw [render_chars h, number_chars (isDouble_shortest h) hrest, Gathered.float?, hdigits,
    hexponent, negative_numeral, Option.map_map]
  rfl

theorem head_render {x : Float} (h : x.isFinite = true) :
    ∃ c cs, (layout.render x).toList = c :: cs ∧ beginsNumber c = true := by
  have hdouble := isDouble_shortest h
  rw [render_chars h]
  generalize numeral (fraction x).negative (Decimal.shortest .even (fraction x)) = n at hdouble
  obtain ⟨negative, whole, fraction, power⟩ := n
  cases whole with
  | nil => exact absurd hdouble.leading (by simp)
  | cons w ws =>
    cases negative
    · refine ⟨w, _, rfl, ?_⟩
      rw [beginsNumber, hdouble.whole w List.mem_cons_self, Bool.true_or]
    · exact ⟨'-', _, rfl, by decide⟩

/-- What a document that is a double is read as. -/
theorem value_float {x : Float} (h : x.isFinite = true) (depth : Nat) {rest : List Char}
    (hrest : Ends rest) : value depth (chars (.float x) ++ rest) =
      (scale (UInt64.ofNat (decimal x).significand).toFloat (decimal x).exponent 4).map fun y =>
        (.float (if (fraction x).negative then -y else y), rest) := by
  obtain ⟨c, cs, hcs, hc⟩ := head_render h
  have hread := number_render h hrest
  rw [chars, hcs, List.cons_append, value_number hc]
  rwa [hcs] at hread

/-! ## The decimal of a double -/

theorem decimal_of_zero {x : Float} (h : (fraction x).mantissa = 0) : decimal x = ⟨0, -1⟩ := by
  rw [decimal, shortest_of_zero h]
  decide

/-- The decimal of a double is a number that its fraction stands for. -/
theorem standsFor_decimal {x : Float} (h : (fraction x).IsNormal) :
    (fraction x).StandsFor (decimal x).value := by
  rw [decimal, value_written]
  exact (Decimal.shortest_spec .even h).1

/-- A double is told by its decimal. -/
theorem eq_of_standsFor_decimal {x z : Float} (hx : x.isFinite = true) (hz : z.isFinite = true)
    (hsign : (fraction z).negative = (fraction x).negative) (hne : (fraction z).mantissa ≠ 0)
    (h : (fraction z).StandsFor (decimal x).value) : z = x := by
  have hnormal := (fraction_cases hz).resolve_left hne
  rcases fraction_cases hx with hzero | hnormal'
  · have hpos := h.pos hnormal
    rw [decimal_of_zero hzero, Scientific.value, Nat.cast_zero, zero_mul] at hpos
    exact absurd hpos (lt_irrefl _)
  · obtain ⟨hmantissa, hexponent⟩ :=
      standsFor_unique hnormal hnormal' h (standsFor_decimal hnormal')
    apply eq_of_fraction_eq
    rw [Binary.mk.injEq]
    exact ⟨hsign, hmantissa, hexponent⟩

end SeriesLoad.Json
