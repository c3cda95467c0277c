import Mathlib.Tactic.SplitIfs
import SeriesLoad.Encoding.Bson
import SeriesLoad.Text.Utf8

/-!
# Texts as bytes and back

The bytes of a text are those of its characters, one after the other (`textBytes_eq`), and **reading
the bytes of a text gives the text** (`decode_flatMap`): what is well-formed is read without a
replacement character, character by character, whatever follows. The bytes are in the order of the
texts (`toUTF8_lt`).

Each width of a character has its own range of first bytes, so the reader is followed through its
cases by the width. The range of the second byte depends on the first one where overlong forms,
surrogates and values past the last code point are kept out.
-/

namespace SeriesLoad

/-! ## Lists of bytes -/

theorem toList_loop (bs : ByteArray) (i : Nat) (r : List UInt8) :
    ByteArray.toList.loop bs i r = r.reverse ++ bs.data.toList.drop i := by
  fun_induction ByteArray.toList.loop bs i r with
  | case1 i r hlt ih =>
    have hlt' : i < bs.data.size := hlt
    have hget : bs.get! i = bs.data.toList[i] := by
      rw [Array.getElem_toList]
      exact getElem!_pos bs.data i hlt'
    rw [ih, hget, List.reverse_cons, List.append_assoc,
      List.singleton_append, ← List.drop_eq_getElem_cons]
  | case2 i r hge =>
    have hle : bs.data.toList.length ≤ i := by
      rw [Array.length_toList]
      exact Nat.le_of_not_lt hge
    rw [List.drop_eq_nil_of_le hle, List.append_nil]

theorem toList_eq (bs : ByteArray) : bs.toList = bs.data.toList := by
  rw [ByteArray.toList, toList_loop, List.reverse_nil, List.nil_append, List.drop_zero]

namespace Bson

theorem textBytes_eq (s : String) : textBytes s = s.toList.flatMap String.utf8EncodeChar := by
  rw [textBytes, toList_eq, String.toUTF8_eq_toByteArray, ← String.utf8Encode_toList,
    List.utf8Encode, List.toList_data_toByteArray]

theorem toByteArray_textBytes (s : String) : (textBytes s).toByteArray = s.toUTF8 := by
  rw [textBytes_eq, String.toUTF8_eq_toByteArray, ← String.utf8Encode_toList, List.utf8Encode]

end Bson

theorem fromUTF8?_toUTF8 (s : String) : String.fromUTF8? s.toUTF8 = some s :=
  dif_pos s.isValidUTF8

theorem fromUTF8?_textBytes (s : String) :
    String.fromUTF8? (Bson.textBytes s).toByteArray = some s := by
  rw [Bson.toByteArray_textBytes, fromUTF8?_toUTF8]

/-- Only one character has a zero byte in it. -/
theorem zero_not_mem_utf8EncodeChar {c : Char} (h : c ≠ '\x00') :
    (0 : UInt8) ∉ String.utf8EncodeChar c := by
  have hpos : c.val.toNat ≠ 0 := fun hzero => h (Char.ext (UInt32.toNat_inj.mp hzero))
  have hbyte : ∀ n, (0 : UInt8) = UInt8.ofNat n ↔ n % 256 = 0 := fun n => by
    rw [eq_comm, ← UInt8.toNat_inj, UInt8.toNat_ofNat']
    rfl
  unfold String.utf8EncodeChar
  dsimp only
  split_ifs <;> simp only [List.mem_cons, List.not_mem_nil, or_false, hbyte] <;> omega

namespace Text.Utf8

theorem toNat_ofNat {n : Nat} (h : n < 256) : (UInt8.ofNat n).toNat = n := by
  rw [UInt8.toNat_ofNat']
  exact Nat.mod_eq_of_lt h

/-- What a first byte asks for, by its number. -/
theorem lead_eq (b : UInt8) : lead b =
    if 0xC2 ≤ b.toNat ∧ b.toNat ≤ 0xDF then some (0, 0x80, 0xBF)
    else if b.toNat = 0xE0 then some (1, 0xA0, 0xBF)
    else if b.toNat = 0xED then some (1, 0x80, 0x9F)
    else if 0xE1 ≤ b.toNat ∧ b.toNat ≤ 0xEF then some (1, 0x80, 0xBF)
    else if b.toNat = 0xF0 then some (2, 0x90, 0xBF)
    else if 0xF1 ≤ b.toNat ∧ b.toNat ≤ 0xF3 then some (2, 0x80, 0xBF)
    else if b.toNat = 0xF4 then some (2, 0x80, 0x8F)
    else none := by
  simp [lead, UInt8.le_iff_toNat_le, ← UInt8.toNat_inj]

/-- The first two bytes of a character of two bytes. -/
theorem lead_two {v : Nat} (hlow : 0x80 ≤ v) (hhigh : v < 0x800) :
    lead (UInt8.ofNat (v / 64 % 32 + 192)) = some (0, 0x80, 0xBF) := by
  rw [lead_eq, toNat_ofNat (by omega), if_pos (by omega)]

/-- The first two bytes of a character of three bytes, which is no surrogate. -/
theorem lead_three {v : Nat} (hlow : 0x800 ≤ v) (hhigh : v < 0x10000)
    (hvalid : v < 0xD800 ∨ 0xDFFF < v) :
    ∃ low high : UInt8, lead (UInt8.ofNat (v / 4096 % 16 + 224)) = some (1, low, high)
      ∧ low.toNat ≤ v / 64 % 64 + 128 ∧ v / 64 % 64 + 128 ≤ high.toNat := by
  rw [lead_eq, toNat_ofNat (by omega), if_neg (by omega)]
  split_ifs with h1 h2 h3
  · exact ⟨0xA0, 0xBF, rfl, show 160 ≤ _ by omega, show _ ≤ 191 by omega⟩
  · exact ⟨0x80, 0x9F, rfl, show 128 ≤ _ by omega, show _ ≤ 159 by omega⟩
  · exact ⟨0x80, 0xBF, rfl, show 128 ≤ _ by omega, show _ ≤ 191 by omega⟩
  all_goals omega

/-- The first two bytes of a character of four bytes. -/
theorem lead_four {v : Nat} (hlow : 0x10000 ≤ v) (hhigh : v < 0x110000) :
    ∃ low high : UInt8, lead (UInt8.ofNat (v / 262144 % 8 + 240)) = some (2, low, high)
      ∧ low.toNat ≤ v / 4096 % 64 + 128 ∧ v / 4096 % 64 + 128 ≤ high.toNat := by
  rw [lead_eq, toNat_ofNat (by omega), if_neg (by omega), if_neg (by omega), if_neg (by omega),
    if_neg (by omega)]
  split_ifs with h1 h2 h3
  · exact ⟨0x90, 0xBF, rfl, show 144 ≤ _ by omega, show _ ≤ 191 by omega⟩
  · exact ⟨0x80, 0xBF, rfl, show 128 ≤ _ by omega, show _ ≤ 191 by omega⟩
  · exact ⟨0x80, 0x8F, rfl, show 128 ≤ _ by omega, show _ ≤ 143 by omega⟩
  all_goals omega

theorem isContinuation_ofNat {n : Nat} (h : n < 64) :
    isContinuation (UInt8.ofNat (n + 128)) = true := by
  rw [isContinuation, Bool.and_eq_true, decide_eq_true_eq, decide_eq_true_eq,
    UInt8.le_iff_toNat_le, UInt8.le_iff_toNat_le, toNat_ofNat (by omega)]
  exact ⟨show 128 ≤ _ by omega, show _ ≤ 191 by omega⟩

theorem payload_ofNat {n : Nat} (h : n < 64) : payload (UInt8.ofNat (n + 128)) = n := by
  rw [payload, toNat_ofNat (by omega)]
  omega

theorem not_ascii {n : Nat} (hlow : 0x80 ≤ n) (hhigh : n < 256) : ¬UInt8.ofNat n < 0x80 := by
  rw [UInt8.lt_iff_toNat_lt, toNat_ofNat hhigh]
  exact Nat.not_lt_of_le hlow

/-- A second byte is in its range. -/
theorem between_ofNat {low high : UInt8} {n : Nat} (hlow : low.toNat ≤ n) (hhigh : n ≤ high.toNat) :
    (!(decide (low ≤ UInt8.ofNat n) && decide (UInt8.ofNat n ≤ high))) = false := by
  have hn : n < 256 := Nat.lt_of_le_of_lt hhigh high.toNat_lt
  rw [Bool.not_eq_false', Bool.and_eq_true, decide_eq_true_eq, decide_eq_true_eq,
    UInt8.le_iff_toNat_le, UInt8.le_iff_toNat_le, toNat_ofNat hn]
  exact ⟨hlow, hhigh⟩

/-- A character that was written is read, and reading goes on behind it. -/
theorem decode_utf8EncodeChar (c : Char) (rest : List UInt8) :
    decode (String.utf8EncodeChar c ++ rest) = c :: decode rest := by
  have hc : Char.ofNat c.val.toNat = c := Char.ofNat_toNat c
  have hvalid : c.val.toNat < 0xD800 ∨ 0xDFFF < c.val.toNat ∧ c.val.toNat < 0x110000 := c.valid
  unfold String.utf8EncodeChar
  dsimp only
  generalize c.val.toNat = v at hc hvalid
  subst hc
  split_ifs with h1 h2 h3
  · have hsmall : UInt8.ofNat v < 0x80 := by
      rw [UInt8.lt_iff_toNat_lt, toNat_ofNat (by omega)]
      exact Nat.lt_succ_of_le h1
    rw [List.singleton_append, decode.eq_def]
    dsimp only
    rw [if_pos hsmall, toNat_ofNat (by omega)]
  · have hchar : (UInt8.ofNat (v / 64 % 32 + 192)).toNat % 32 * 64 + v % 64 = v := by
      rw [toNat_ofNat (by omega)]
      omega
    rw [List.cons_append, List.singleton_append, decode.eq_def]
    dsimp only
    rw [if_neg (not_ascii (by omega) (by omega)), lead_two (by omega) (by omega)]
    dsimp only
    rw [between_ofNat (show 128 ≤ _ by omega) (show _ ≤ 191 by omega), if_neg Bool.false_ne_true,
      payload_ofNat (by omega), hchar]
  · obtain ⟨low, high, hlead, hlow, hhigh⟩ :=
      lead_three (v := v) (by omega) (by omega) (by omega)
    have hchar : (UInt8.ofNat (v / 4096 % 16 + 224)).toNat % 16 * 4096 + v / 64 % 64 * 64
        + v % 64 = v := by
      rw [toNat_ofNat (by omega)]
      omega
    rw [List.cons_append, List.cons_append, List.singleton_append, decode.eq_def]
    dsimp only
    rw [if_neg (not_ascii (by omega) (by omega)), hlead]
    dsimp only
    rw [between_ofNat hlow hhigh, if_neg Bool.false_ne_true]
    simp only [isContinuation_ofNat (Nat.mod_lt v (by decide : 0 < 64)), if_true,
      payload_ofNat (Nat.mod_lt _ (by decide : 0 < 64)), hchar]
  · obtain ⟨low, high, hlead, hlow, hhigh⟩ := lead_four (v := v) (by omega) (by omega)
    have hchar : (UInt8.ofNat (v / 262144 % 8 + 240)).toNat % 8 * 262144 + v / 4096 % 64 * 4096
        + v / 64 % 64 * 64 + v % 64 = v := by
      rw [toNat_ofNat (by omega)]
      omega
    rw [List.cons_append, List.cons_append, List.cons_append, List.singleton_append, decode.eq_def]
    dsimp only
    rw [if_neg (not_ascii (by omega) (by omega)), hlead]
    dsimp only
    rw [between_ofNat hlow hhigh, if_neg Bool.false_ne_true]
    simp only [isContinuation_ofNat (Nat.mod_lt _ (by decide : 0 < 64)), if_true,
      payload_ofNat (Nat.mod_lt _ (by decide : 0 < 64)), hchar, Bool.not_true, Bool.false_eq_true,
      if_false]

theorem decode_flatMap (cs : List Char) (rest : List UInt8) :
    decode (cs.flatMap String.utf8EncodeChar ++ rest) = cs ++ decode rest := by
  induction cs with
  | nil => rfl
  | cons c cs ih =>
    rw [List.flatMap_cons, List.append_assoc, decode_utf8EncodeChar, ih, List.cons_append]

/-- Well-formed bytes are those of the text that they are read as. -/
theorem flatMap_decode {bs : List UInt8} (h : bs.toByteArray.IsValidUTF8) :
    (decode bs).flatMap String.utf8EncodeChar = bs := by
  obtain ⟨cs, hcs⟩ := h
  have hbs : bs = cs.flatMap String.utf8EncodeChar := by
    rw [← List.toList_data_toByteArray (l := bs), hcs, List.utf8Encode,
      List.toList_data_toByteArray]
  have hdecode := decode_flatMap cs []
  rw [List.append_nil, ← hbs, decode.eq_def [], List.append_nil] at hdecode
  rw [hdecode, ← hbs]

/-! ## The order of bytes -/

theorem cons_ofNat_lt {m n : Nat} (hm : m < 256) (hn : n < 256) {bs cs : List UInt8} :
    UInt8.ofNat m :: bs < UInt8.ofNat n :: cs ↔ m < n ∨ m = n ∧ bs < cs := by
  rw [List.cons_lt_cons_iff, UInt8.lt_iff_toNat_lt, ← UInt8.toNat_inj, toNat_ofNat hm,
    toNat_ofNat hn]

/-- The bytes of characters are ordered as the characters, whatever stands behind them. -/
theorem utf8EncodeChar_lt {c d : Char} (h : c < d) (bs cs : List UInt8) :
    String.utf8EncodeChar c ++ bs < String.utf8EncodeChar d ++ cs := by
  have hlt : c.val.toNat < d.val.toNat := h
  have hd : d.val.toNat < 0x110000 := by
    have := d.valid
    simp only [UInt32.isValidChar, Nat.isValidChar] at this
    omega
  unfold String.utf8EncodeChar
  dsimp only
  generalize c.val.toNat = v at hlt
  generalize d.val.toNat = w at hlt hd
  -- the bytes behind the first one are digits to the base 64
  have hdigits (n : Nat) : n / 4096 = n / 64 / 64 ∧ n / 262144 = n / 64 / 64 / 64 := by omega
  simp only [hdigits]
  split_ifs
  all_goals
    simp only [List.cons_append, List.nil_append]
    repeat rw [cons_ofNat_lt (by omega) (by omega)]
    omega

theorem flatMap_utf8EncodeChar_lt {cs ds : List Char} (h : cs < ds) :
    cs.flatMap String.utf8EncodeChar < ds.flatMap String.utf8EncodeChar := by
  induction ds generalizing cs with
  | nil => exact absurd h (List.not_lt_nil cs)
  | cons d ds ih =>
    rw [List.flatMap_cons]
    cases cs with
    | nil =>
      obtain ⟨b, bs, hbs⟩ := List.exists_cons_of_ne_nil (String.utf8EncodeChar_ne_nil (c := d))
      rw [hbs, List.cons_append]
      exact List.nil_lt_cons b _
    | cons c cs =>
      rw [List.flatMap_cons]
      rcases List.cons_lt_cons_iff.mp h with hlt | ⟨rfl, hlt⟩
      · exact utf8EncodeChar_lt hlt _ _
      · exact List.append_left_lt (ih hlt)

/-- Texts are ordered as their bytes. -/
theorem toUTF8_lt {a b : String} (h : a < b) : a.toUTF8.toList < b.toUTF8.toList := by
  have ha := Bson.textBytes_eq a
  have hb := Bson.textBytes_eq b
  rw [Bson.textBytes] at ha hb
  rw [ha, hb]
  exact flatMap_utf8EncodeChar_lt (String.lt_iff.mp h)

end Text.Utf8

end SeriesLoad
