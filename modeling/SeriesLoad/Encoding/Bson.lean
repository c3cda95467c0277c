import SeriesLoad.Binary64

/-!
# Binary documents

A document lists values by key, and is written with its length in front: a signed 32-bit number,
the elements, and a zero byte. An element is a byte for the type of its value, its key with a zero
byte behind it, and the value. Numbers are little-endian.

A key with a zero byte in it cannot be written; `Document.encode` refuses the first such key.
-/

namespace SeriesLoad.Bson

/-- A value of a document. -/
inductive Value where
  | double (x : Binary64)
  | string (s : String)
  | document (members : List (String × Value))
  /-- Bytes of no particular kind. -/
  | binary (bs : List UInt8)
  | boolean (b : Bool)
  | int64 (n : Int64)

/-- A document: its members in order, each key at most once if it was built by `insert`. -/
abbrev Document := List (String × Value)

/-- Sets the value of a key. A key that is already there keeps its place. -/
def Document.insert (key : String) (v : Value) : Document → Document
  | [] => [(key, v)]
  | (k, w) :: rest => if k = key then (key, v) :: rest else (k, w) :: insert key v rest

/-! ## Bytes -/

/-- So many little-endian bytes of a number. -/
def littleEndian : Nat → Nat → List UInt8
  | 0, _ => []
  | width + 1, n => UInt8.ofNat (n % 256) :: littleEndian width (n / 256)

/-- The bytes of a text. -/
def textBytes (s : String) : List UInt8 := s.toUTF8.toList

/-- A key, with the zero byte that ends it. -/
def keyBytes (s : String) : List UInt8 := textBytes s ++ [0]

/-- A text with its length in front, the zero byte that ends it counted. -/
def stringBytes (s : String) : List UInt8 :=
  littleEndian 4 ((textBytes s).length + 1) ++ keyBytes s

/-- The byte for the type of a value. -/
def Value.typeByte : Value → UInt8
  | .double _ => 0x01
  | .string _ => 0x02
  | .document _ => 0x03
  | .binary _ => 0x05
  | .boolean _ => 0x08
  | .int64 _ => 0x12

/-- Elements with the length in front and the zero byte behind. -/
def framed (elements : List UInt8) : List UInt8 :=
  littleEndian 4 (elements.length + 5) ++ elements ++ [0]

mutual

/-- The bytes of a value. -/
def Value.bytes : Value → List UInt8
  | .double x => littleEndian 8 x.bits.toNat
  | .string s => stringBytes s
  | .document members => framed (memberBytes members)
  | .binary bs => littleEndian 4 bs.length ++ 0x00 :: bs
  | .boolean b => [if b then 1 else 0]
  | .int64 n => littleEndian 8 n.toUInt64.toNat

/-- The elements of a document. -/
def memberBytes : List (String × Value) → List UInt8
  | [] => []
  | (key, v) :: rest => v.typeByte :: (keyBytes key ++ (v.bytes ++ memberBytes rest))

end

/-- The bytes of a document. -/
def Document.bytes (d : Document) : List UInt8 := framed (memberBytes d)

/-! ## Keys that cannot be written -/

/-- Whether a key has a zero byte in it. -/
def hasZero (key : String) : Bool := key.toList.contains '\x00'

mutual

/-- The first key with a zero byte in a value. -/
def Value.badKey? : Value → Option String
  | .document members => badMember? members
  | _ => none

/-- The first key with a zero byte among members and inside them. -/
def badMember? : List (String × Value) → Option String
  | [] => none
  | (key, v) :: rest =>
    if hasZero key then some key
    else match v.badKey? with
      | some k => some k
      | none => badMember? rest

end

/-- The bytes of a document, or the first key that cannot be written. -/
def Document.encode (d : Document) : Except String (List UInt8) :=
  match badMember? d with
  | some key => .error key
  | none => .ok d.bytes

end SeriesLoad.Bson
