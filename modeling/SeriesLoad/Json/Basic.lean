import SeriesLoad.Decimal.Layout

/-!
# JSON values and their text

`Json` is a JSON document; members of an object keep the order in which they were given.
`Json.render` writes it with no blanks, and is what queries and field values are printed by.
-/

namespace SeriesLoad

/-- A JSON document. Whole numbers and doubles are kept apart, because they print differently. -/
inductive Json where
  | null
  | bool (b : Bool)
  | int (n : Int)
  | float (x : Float)
  | str (s : String)
  | arr (items : List Json)
  | obj (members : List (String × Json))

namespace Json

/-- In JSON a double keeps a zero after the point, has an exponent mark below `10^-5` and from
`10^16` on, and is `null` if it is not finite. -/
def layout : Decimal.Layout where
  tie := .even
  plain power := decide (-5 ≤ power ∧ power ≤ 15)
  pointZero := true
  notANumber := "null"
  infinity := "null"
  minusInfinity := "null"

/-- The lower-case hexadecimal digit of a number below 16. -/
def hexDigit (n : Nat) : Char :=
  if n < 10 then Char.ofNat ('0'.toNat + n) else Char.ofNat ('a'.toNat + (n - 10))

/-- A character inside quotes: quotes, backslashes and controls are escaped, all else stands for
itself. -/
def escapeChar (c : Char) : List Char :=
  if c = '"' then ['\\', '"']
  else if c = '\\' then ['\\', '\\']
  else if c = '\n' then ['\\', 'n']
  else if c = '\r' then ['\\', 'r']
  else if c = '\t' then ['\\', 't']
  else if c = '\x08' then ['\\', 'b']
  else if c = '\x0c' then ['\\', 'f']
  else if c.toNat < 0x20 then
    ['\\', 'u', '0', '0', hexDigit (c.toNat / 16), hexDigit (c.toNat % 16)]
  else [c]

/-- A string in quotes. -/
def quote (s : String) : List Char :=
  '"' :: (s.toList.flatMap escapeChar ++ ['"'])

mutual

/-- The characters of a document. -/
def chars : Json → List Char
  | .null => "null".toList
  | .bool b => (if b then "true" else "false").toList
  | .int n => (Int.repr n).toList
  | .float x => (layout.render x).toList
  | .str s => quote s
  | .arr items => '[' :: (itemChars items ++ [']'])
  | .obj members => '\x7b' :: (memberChars members ++ ['\x7d'])

/-- The items of an array, with commas between them. -/
def itemChars : List Json → List Char
  | [] => []
  | [j] => chars j
  | j :: k :: rest => chars j ++ ',' :: itemChars (k :: rest)

/-- The members of an object, with commas between them. -/
def memberChars : List (String × Json) → List Char
  | [] => []
  | [(key, j)] => quote key ++ ':' :: chars j
  | (key, j) :: m :: rest => quote key ++ ':' :: (chars j ++ ',' :: memberChars (m :: rest))

end

/-- The text of a document. -/
def render (j : Json) : String := String.ofList j.chars

end Json

end SeriesLoad
