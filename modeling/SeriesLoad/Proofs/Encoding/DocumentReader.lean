import Mathlib.Tactic.SplitIfs
import SeriesLoad.Proofs.Encoding.Documents
import SeriesLoad.Proofs.Text.Utf8

/-!
# Reading binary documents

`decode?` reads the bytes of one document, after the layout of the format: the length in front, then
for each element a byte for its type, its key up to the next zero byte, and as many bytes as the type
takes, then a zero byte. `split?` takes a row of documents apart by their lengths alone.

**A document that can be written and is not too long for its length is read back as it is**
(`decode?_bytes`), and **documents that stand one behind the other are split at their own bounds**
(`split?_flatten`). The length of a document inside another is bounded by that of the outer one, so
the bound is needed for the outermost only.

The reader is not told what to expect: every value is read by the type byte in front of it.
-/

namespace SeriesLoad.Bson

namespace Reader

/-- The number that little-endian bytes stand for. -/
def ofLittleEndian : List UInt8 → Nat
  | [] => 0
  | b :: bs => b.toNat + 256 * ofLittleEndian bs

/-- The signed 32-bit number in front of bytes, if it is there and not negative. -/
def length? (bs : List UInt8) : Option Nat :=
  if 4 ≤ bs.length ∧ ofLittleEndian (bs.take 4) < 2 ^ 31 then some (ofLittleEndian (bs.take 4))
  else none

/-- Takes bytes apart into pieces that begin with their own length. -/
def split? (bs : List UInt8) : Option (List (List UInt8)) :=
  if bs = [] then some []
  else
    match length? bs with
    | none => none
    | some n =>
      if 0 < n ∧ n ≤ bs.length then (split? (bs.drop n)).map (bs.take n :: ·) else none
termination_by bs.length
decreasing_by
  rw [List.length_drop]
  omega

/-- The types of values. -/
inductive Kind where
  | double
  | string
  | document
  | binary
  | boolean
  | int64
deriving DecidableEq

/-- The type that a byte stands for. -/
def kind? (b : UInt8) : Option Kind :=
  if b = 0x01 then some .double
  else if b = 0x02 then some .string
  else if b = 0x03 then some .document
  else if b = 0x05 then some .binary
  else if b = 0x08 then some .boolean
  else if b = 0x12 then some .int64
  else none

/-- How many of the bytes that follow belong to a value of a type. -/
def Kind.width? (bs : List UInt8) : Kind → Option Nat
  | .double => some 8
  | .string => (length? bs).map (4 + ·)
  | .document => length? bs
  | .binary => (length? bs).map (5 + ·)
  | .boolean => some 1
  | .int64 => some 8

/-- The value of a type that bytes stand for; none is read as a document here. -/
def Kind.plain? (bs : List UInt8) : Kind → Option Value
  | .double => some (.double ⟨.ofNat (ofLittleEndian bs)⟩)
  | .string =>
    if bs.getLast? = some 0 then
      (String.fromUTF8? (bs.drop 4).dropLast.toByteArray).map .string
    else none
  | .document => none
  | .binary => if bs[4]? = some 0 then some (.binary (bs.drop 5)) else none
  | .boolean => if bs = [0] then some (.boolean false)
    else if bs = [1] then some (.boolean true)
    else none
  | .int64 => some (.int64 (UInt64.ofNat (ofLittleEndian bs)).toInt64)

/-- The bytes are a document from end to end: they begin with their own length and end in zero. -/
def isFramed (bs : List UInt8) : Bool :=
  length? bs == some bs.length && 5 ≤ bs.length && bs.getLast? == some 0

/-- What is between the length of a document and its last byte. -/
def inside (bs : List UInt8) : List UInt8 := (bs.drop 4).dropLast

/-- The key in front of a zero byte. -/
def key? (bs : List UInt8) : Option String :=
  if 0 ∈ bs then String.fromUTF8? (bs.takeWhile (· != 0)).toByteArray else none

/-- What is behind a key and its zero byte. -/
def behindKey (bs : List UInt8) : List UInt8 := (bs.dropWhile (· != 0)).drop 1

theorem length_behindKey (bs : List UInt8) : (behindKey bs).length ≤ bs.length := by
  have hle := (List.dropWhile_suffix (l := bs) (· != 0)).length_le
  rw [behindKey, List.length_drop]
  omega

theorem length_inside_take (bs : List UInt8) (width : Nat) :
    (inside ((behindKey bs).take width)).length ≤ (behindKey bs).length := by
  rw [inside, List.length_dropLast, List.length_drop, List.length_take]
  omega

/-- Reads elements one after the other. -/
def members? : List UInt8 → Option (List (String × Value))
  | [] => some []
  | type :: bs => do
    let kind ← kind? type
    let key ← key? bs
    let width ← kind.width? (behindKey bs)
    let v ←
      if (behindKey bs).length < width then none
      else if kind = .document then
        if isFramed ((behindKey bs).take width) then
          (members? (inside ((behindKey bs).take width))).map Value.document
        else none
      else kind.plain? ((behindKey bs).take width)
    let rest ← members? ((behindKey bs).drop width)
    return (key, v) :: rest
termination_by bs => bs.length
decreasing_by
  · exact Nat.lt_succ_of_le (Nat.le_trans (List.drop_sublist ..).length_le (length_behindKey bs))
  · exact Nat.lt_succ_of_le (Nat.le_trans (length_inside_take bs width) (length_behindKey bs))

/-- Reads one document that takes up all the bytes. -/
def decode? (bs : List UInt8) : Option Document :=
  if isFramed bs then members? (inside bs) else none

/-! ## Numbers and lengths -/

@[simp] theorem length_littleEndian (width n : Nat) : (littleEndian width n).length = width := by
  induction width generalizing n with
  | zero => rfl
  | succ width ih => rw [littleEndian, List.length_cons, ih]

theorem ofLittleEndian_littleEndian {width n : Nat} (h : n < 256 ^ width) :
    ofLittleEndian (littleEndian width n) = n := by
  induction width generalizing n with
  | zero =>
    rw [Nat.pow_zero, Nat.lt_one_iff] at h
    rw [h]
    rfl
  | succ width ih =>
    have hdiv : n / 256 < 256 ^ width := by
      rw [Nat.pow_succ'] at h
      exact Nat.div_lt_of_lt_mul h
    rw [littleEndian, ofLittleEndian, ih hdiv,
      Text.Utf8.toNat_ofNat (Nat.mod_lt n (by decide : 0 < 256)), Nat.mod_add_div]

theorem length?_littleEndian {n : Nat} (h : n < 2 ^ 31) (rest : List UInt8) :
    length? (littleEndian 4 n ++ rest) = some n := by
  have htake : (littleEndian 4 n ++ rest).take 4 = littleEndian 4 n :=
    List.take_left' (length_littleEndian 4 n)
  have hn : ofLittleEndian (littleEndian 4 n) = n :=
    ofLittleEndian_littleEndian (Nat.lt_trans h (by decide))
  have hfour : 4 ≤ (littleEndian 4 n ++ rest).length := by
    rw [List.length_append, length_littleEndian]
    exact Nat.le_add_right 4 _
  rw [length?, htake, hn, if_pos ⟨hfour, h⟩]

/-- A length is told by its four bytes alone. -/
theorem length?_append {bs : List UInt8} {n : Nat} (h : length? bs = some n) (rest : List UInt8) :
    length? (bs ++ rest) = some n := by
  unfold length? at h ⊢
  split_ifs at h with hfour
  have hfour' : 4 ≤ (bs ++ rest).length := by
    rw [List.length_append]
    exact Nat.le_add_right_of_le hfour.1
  rw [List.take_append_of_le_length hfour.1, if_pos ⟨hfour', hfour.2⟩]
  exact h

theorem four_le_of_length? {bs : List UInt8} {n : Nat} (h : length? bs = some n) :
    4 ≤ bs.length := by
  unfold length? at h
  split_ifs at h with hfour
  exact hfour.1

/-- Pieces that begin with their own lengths, one behind the other, are split at their bounds. -/
theorem split?_flatten {pieces : List (List UInt8)}
    (h : ∀ piece ∈ pieces, length? piece = some piece.length) :
    split? pieces.flatten = some pieces := by
  induction pieces with
  | nil => rw [List.flatten_nil, split?, if_pos rfl]
  | cons piece pieces ih =>
    obtain ⟨hpiece, hpieces⟩ := List.forall_mem_cons.mp h
    have hfour := four_le_of_length? hpiece
    have hne : piece ++ pieces.flatten ≠ [] := by
      intro hnil
      rw [(List.append_eq_nil_iff.mp hnil).1] at hfour
      exact absurd hfour (by decide)
    have hle : 0 < piece.length ∧ piece.length ≤ (piece ++ pieces.flatten).length := by
      rw [List.length_append]
      omega
    rw [List.flatten_cons, split?, if_neg hne, length?_append hpiece]
    dsimp only
    rw [if_pos hle, List.drop_left, List.take_left, ih hpieces]
    rfl

/-! ## Frames -/

theorem length_framed (elements : List UInt8) :
    (framed elements).length = elements.length + 5 := by
  simp only [framed, List.length_append, length_littleEndian, List.length_singleton]
  omega

theorem length?_framed {elements : List UInt8} (h : (framed elements).length < 2 ^ 31) :
    length? (framed elements) = some (framed elements).length := by
  rw [length_framed] at h ⊢
  rw [framed, List.append_assoc]
  exact length?_littleEndian h _

theorem isFramed_framed {elements : List UInt8} (h : (framed elements).length < 2 ^ 31) :
    isFramed (framed elements) = true := by
  rw [isFramed, length?_framed h, length_framed, framed, List.getLast?_concat]
  simp

theorem inside_framed (elements : List UInt8) : inside (framed elements) = elements := by
  rw [inside, framed, List.append_assoc, List.drop_left' (length_littleEndian 4 _),
    List.dropLast_concat]

/-! ## Keys -/

theorem zero_not_mem_textBytes {key : String} (h : hasZero key = false) :
    (0 : UInt8) ∉ textBytes key := by
  rw [hasZero, ← Bool.not_eq_true, List.contains_iff_mem] at h
  rw [textBytes_eq, List.mem_flatMap]
  rintro ⟨c, hc, hzero⟩
  exact zero_not_mem_utf8EncodeChar (fun heq => h (heq ▸ hc)) hzero

theorem bne_zero_of_mem_textBytes {key : String} (h : hasZero key = false) :
    ∀ b ∈ textBytes key, (b != 0) = true :=
  fun _ hb => bne_iff_ne.mpr fun hzero => zero_not_mem_textBytes h (hzero ▸ hb)

theorem key?_keyBytes {key : String} (h : hasZero key = false) (rest : List UInt8) :
    key? (keyBytes key ++ rest) = some key := by
  have hzero : 0 ∈ keyBytes key ++ rest :=
    List.mem_append_left _ (List.mem_append_right _ (List.mem_singleton_self 0))
  have hkey : (keyBytes key ++ rest).takeWhile (· != 0) = textBytes key := by
    rw [keyBytes, List.append_assoc, List.takeWhile_append_of_pos (bne_zero_of_mem_textBytes h)]
    simp
  rw [key?, if_pos hzero, hkey, fromUTF8?_textBytes]

theorem behindKey_keyBytes {key : String} (h : hasZero key = false) (rest : List UInt8) :
    behindKey (keyBytes key ++ rest) = rest := by
  rw [behindKey, keyBytes, List.append_assoc,
    List.dropWhile_append_of_pos (bne_zero_of_mem_textBytes h)]
  simp

/-! ## Values -/

/-- The type of a value. -/
def kindOf : Value → Kind
  | .double _ => .double
  | .string _ => .string
  | .document _ => .document
  | .binary _ => .binary
  | .boolean _ => .boolean
  | .int64 _ => .int64

theorem eq_document {v : Value} (h : kindOf v = .document) :
    ∃ members, v = .document members := by
  cases v with
  | document members => exact ⟨members, rfl⟩
  | _ => cases h

theorem kind?_typeByte (v : Value) : kind? v.typeByte = some (kindOf v) := by
  cases v <;> rfl

/-- A value takes up its own bytes. -/
theorem width?_bytes {v : Value} (h : v.bytes.length < 2 ^ 31) (rest : List UInt8) :
    (kindOf v).width? (v.bytes ++ rest) = some v.bytes.length := by
  cases v with
  | double x => rw [Value.bytes, length_littleEndian]; rfl
  | string s =>
    rw [Value.bytes, stringBytes, List.length_append, length_littleEndian, keyBytes,
      List.length_append, List.length_singleton] at h ⊢
    rw [List.append_assoc, kindOf, Kind.width?, length?_littleEndian (by omega)]
    rfl
  | document members =>
    rw [Value.bytes] at h ⊢
    exact length?_append (length?_framed h) rest
  | binary bs =>
    rw [Value.bytes, List.length_append, length_littleEndian, List.length_cons] at h ⊢
    rw [List.append_assoc, kindOf, Kind.width?, length?_littleEndian (by omega), Option.map_some]
    congr 1
    omega
  | boolean b => rw [Value.bytes]; rfl
  | int64 n => rw [Value.bytes, length_littleEndian]; rfl

/-- A value that is no document is read from its bytes. -/
theorem plain?_bytes {v : Value} (h : kindOf v ≠ .document) :
    (kindOf v).plain? v.bytes = some v := by
  cases v with
  | double x =>
    have hx : ofLittleEndian (littleEndian 8 x.bits.toNat) = x.bits.toNat :=
      ofLittleEndian_littleEndian x.bits.toNat_lt
    rw [Value.bytes, kindOf, Kind.plain?, hx, UInt64.ofNat_toNat]
  | string s =>
    have hlast : (stringBytes s).getLast? = some 0 := by
      rw [stringBytes, keyBytes, ← List.append_assoc, List.getLast?_concat]
    have htext : ((stringBytes s).drop 4).dropLast = textBytes s := by
      rw [stringBytes, keyBytes, List.drop_left' (length_littleEndian 4 _), List.dropLast_concat]
    rw [Value.bytes, kindOf, Kind.plain?, if_pos hlast, htext, fromUTF8?_textBytes]
    rfl
  | document members => exact absurd rfl h
  | binary bs =>
    have hsub : (littleEndian 4 bs.length ++ 0x00 :: bs)[4]? = some 0 := by
      rw [List.getElem?_append_right (Nat.le_of_eq (length_littleEndian 4 _)), length_littleEndian]
      rfl
    have hrest : (littleEndian 4 bs.length ++ 0x00 :: bs).drop 5 = bs := by
      rw [List.append_cons]
      refine List.drop_left' ?_
      rw [List.length_append, length_littleEndian, List.length_singleton]
    rw [Value.bytes, kindOf, Kind.plain?, if_pos hsub, hrest]
  | boolean b => cases b <;> rw [Value.bytes] <;> rfl
  | int64 n =>
    have hn : ofLittleEndian (littleEndian 8 n.toUInt64.toNat) = n.toUInt64.toNat :=
      ofLittleEndian_littleEndian n.toUInt64.toNat_lt
    rw [Value.bytes, kindOf, Kind.plain?, hn, UInt64.ofNat_toNat, Int64.toInt64_toUInt64]

/-! ## Documents -/

/-- Where no key is bad there is none in the first element, nor behind it. -/
theorem badMember?_cons {key : String} {v : Value} {rest : List (String × Value)}
    (h : badMember? ((key, v) :: rest) = none) :
    hasZero key = false ∧ v.badKey? = none ∧ badMember? rest = none := by
  rw [badMember?] at h
  split_ifs at h with hkey
  cases hv : v.badKey? with
  | some bad => simp [hv] at h
  | none =>
    rw [hv] at h
    exact ⟨Bool.eq_false_iff.mpr hkey, rfl, h⟩

/-- One element is read, if what is inside it and what is behind it is read. -/
theorem members?_cons {key : String} {v : Value} {rest : List (String × Value)}
    {bs : List UInt8} (hkey : hasZero key = false) (hsize : v.bytes.length < 2 ^ 31)
    (hinside : ∀ members, v = .document members →
      members? (memberBytes members) = some members)
    (hrest : members? bs = some rest) :
    members? (v.typeByte :: (keyBytes key ++ (v.bytes ++ bs))) = some ((key, v) :: rest) := by
  have hwidth : ¬ (v.bytes ++ bs).length < v.bytes.length :=
    Nat.not_lt_of_le (List.length_append ▸ Nat.le_add_right _ _)
  rw [members?]
  simp only [kind?_typeByte, key?_keyBytes hkey, behindKey_keyBytes hkey, width?_bytes hsize,
    hwidth, List.take_left, List.drop_left, hrest, if_false, Option.bind_eq_bind,
    Option.bind_some, Option.pure_def]
  by_cases hdocument : kindOf v = .document
  · obtain ⟨members, rfl⟩ := eq_document hdocument
    rw [Value.bytes] at hsize ⊢
    rw [if_pos hdocument, if_pos (isFramed_framed hsize), inside_framed, hinside members rfl]
    rfl
  · rw [if_neg hdocument, plain?_bytes hdocument]
    rfl

/-- **Elements that can be written and are not too long are read back as they are.** -/
theorem members?_memberBytes (members : List (String × Value)) (hbad : badMember? members = none)
    (hsize : (memberBytes members).length < 2 ^ 31) :
    members? (memberBytes members) = some members := by
  -- on the number of bytes, since the elements of a document inside and those behind it are fewer
  induction hlength : (memberBytes members).length using Nat.strongRecOn
    generalizing members with
  | _ length ih =>
    cases members with
    | nil => rw [memberBytes, members?]
    | cons member rest =>
      obtain ⟨key, v⟩ := member
      obtain ⟨hkey, hv, hrest⟩ := badMember?_cons hbad
      rw [memberBytes, List.length_cons, List.length_append, List.length_append] at hlength hsize
      rw [memberBytes]
      refine members?_cons hkey (by omega) (fun members heq => ?_)
        (ih _ (by omega) rest hrest (by omega) rfl)
      subst heq
      rw [Value.bytes, length_framed] at hlength hsize
      exact ih _ (by omega) members hv (by omega) rfl

/-- **A document that can be written and is not too long is read back as it is.** -/
theorem decode?_bytes {d : Document} (hbad : badMember? d = none) (hsize : d.bytes.length < 2 ^ 31) :
    decode? d.bytes = some d := by
  have hmembers : (memberBytes d).length < 2 ^ 31 := by
    rw [Document.bytes, length_framed] at hsize
    omega
  rw [Document.bytes] at hsize ⊢
  rw [decode?, if_pos (isFramed_framed hsize), inside_framed, members?_memberBytes d hbad hmembers]

end Reader

end SeriesLoad.Bson
