/-!
# Reading bytes as UTF-8 text

`decode` reads any byte string as text. Well-formed sequences become their characters; each
longest well-formed beginning of a broken sequence becomes one replacement character, and reading
goes on at the byte that broke it. So nothing is refused and no byte is read twice.

The first byte of a sequence fixes its length and the range of its second byte, which is how
overlong forms, surrogates and values past the last code point are kept out.
-/

namespace SeriesLoad.Text.Utf8

/-- What a broken sequence is read as. -/
def replacement : Char := '\uFFFD'

/-- A byte that continues a sequence. -/
def isContinuation (b : UInt8) : Bool := 0x80 ≤ b && b ≤ 0xBF

/-- What a first byte asks for: how many bytes follow the second one, and the range of the second.
`none` for a byte that starts no sequence of two or more. -/
def lead (b : UInt8) : Option (Nat × UInt8 × UInt8) :=
  if 0xC2 ≤ b && b ≤ 0xDF then some (0, 0x80, 0xBF)
  else if b == 0xE0 then some (1, 0xA0, 0xBF)
  else if b == 0xED then some (1, 0x80, 0x9F)
  else if 0xE1 ≤ b && b ≤ 0xEF then some (1, 0x80, 0xBF)
  else if b == 0xF0 then some (2, 0x90, 0xBF)
  else if 0xF1 ≤ b && b ≤ 0xF3 then some (2, 0x80, 0xBF)
  else if b == 0xF4 then some (2, 0x80, 0x8F)
  else none

/-- The six payload bits of a continuation byte. -/
def payload (b : UInt8) : Nat := b.toNat % 64

/-- Reads bytes as text, a replacement character for each broken sequence. -/
def decode : List UInt8 → List Char
  | [] => []
  | a :: rest =>
    if a < 0x80 then Char.ofNat a.toNat :: decode rest
    else match lead a, rest with
      | none, rest => replacement :: decode rest
      | some _, [] => [replacement]
      | some (more, low, high), b :: rest =>
        if !(low ≤ b && b ≤ high) then replacement :: decode (b :: rest)
        else match more, rest with
          | 0, rest => Char.ofNat (a.toNat % 32 * 64 + payload b) :: decode rest
          | _ + 1, [] => [replacement]
          | 1, c :: rest =>
            if isContinuation c then
              Char.ofNat (a.toNat % 16 * 4096 + payload b * 64 + payload c) :: decode rest
            else replacement :: decode (c :: rest)
          | _ + 2, c :: rest =>
            if !isContinuation c then replacement :: decode (c :: rest)
            else match rest with
              | [] => [replacement]
              | d :: rest =>
                if isContinuation d then
                  Char.ofNat (a.toNat % 8 * 262144 + payload b * 4096 + payload c * 64 + payload d)
                    :: decode rest
                else replacement :: decode (d :: rest)
  termination_by bytes => bytes.length

/-- The text of a byte string. -/
def text (bytes : List UInt8) : String := String.ofList (decode bytes)

end SeriesLoad.Text.Utf8
