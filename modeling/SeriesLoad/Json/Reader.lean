import SeriesLoad.Json.Basic
import SeriesLoad.Text.Digits

/-!
# Reading JSON text

`Json.parse?` reads a text that is one JSON document. A reader takes characters from the front of
its input and gives back the rest. Nesting is limited to 127 levels. A number that is not whole, or
not within 64 bits, is read as a double: as many of its leading digits as fit in 64 bits, as a
double, times or over a power of ten.
-/

namespace SeriesLoad.Json

/-- Reads something from the front of its input. -/
abbrev Reader (α : Type) := List Char → Option (α × List Char)

/-- The blanks allowed between the tokens of a document. -/
def isBlank (c : Char) : Bool := c = ' ' || c = '\n' || c = '\t' || c = '\r'

/-- Drops the blanks in front. -/
def skipBlanks (cs : List Char) : List Char := cs.dropWhile isBlank

/-! ## Numbers -/

/-- The largest 64-bit number. -/
def maxWord : Nat := 2 ^ 64 - 1

/-- Digits gathered so far: the number they make, the power of ten it is short of, and whether a
digit had to be left out. -/
structure Gathered where
  significand : Nat
  exponent : Int
  full : Bool

/-- Adds a digit before the point. One that does not fit is only counted, and so are all that
follow it. -/
def Gathered.whole (g : Gathered) (c : Char) : Gathered :=
  let next := g.significand * 10 + Text.digitValue c
  if g.full || maxWord < next then { g with exponent := g.exponent + 1, full := true }
  else { g with significand := next }

/-- Adds a digit after the point. One that does not fit is dropped, and so are all that follow
it. -/
def Gathered.fraction (g : Gathered) (c : Char) : Gathered :=
  let next := g.significand * 10 + Text.digitValue c
  if g.full || maxWord < next then { g with full := true }
  else { g with significand := next, exponent := g.exponent - 1 }

/-- A power of ten as a double. -/
def tenTo (n : Nat) : Float := Float.ofScientific 1 false n

/-- `x · 10^e` in double arithmetic; `none` if that is too large. Small powers are reached in hops
of 308. -/
def scale (x : Float) (e : Int) : Nat → Option Float
  | 0 => some x
  | hops + 1 =>
    if x == 0 then some x
    else if 308 < e then none
    else if 0 ≤ e then
      let y := x * tenTo e.toNat
      if y.isInf then none else some y
    else if -308 ≤ e then some (x / tenTo (-e).toNat)
    else scale (x / tenTo 308) (e + 308) hops

/-- The double made of gathered digits and a written exponent. -/
def Gathered.float? (g : Gathered) (negative : Bool) (exponent : Int) : Option Float :=
  let x := (UInt64.ofNat g.significand).toFloat
  (scale x (g.exponent + exponent) 4).map fun y => if negative then -y else y

/-- An exponent after its mark: a sign, then at least one digit. -/
def exponent : Reader Int := fun cs =>
  let (negative, cs) := match cs with
    | '-' :: rest => (true, rest)
    | '+' :: rest => (false, rest)
    | _ => (false, cs)
  match cs.takeWhile Char.isDigit, cs.dropWhile Char.isDigit with
  | [], _ => none
  | ds, rest =>
    let n : Int := Int.ofNat (Text.ofDigits 0 ds)
    some (if negative then -n else n, rest)

/-- The whole number or double that gathered digits stand for. -/
def Gathered.number? (g : Gathered) (negative isWhole : Bool) (exponent : Int) : Option Json :=
  if isWhole && !g.full && !negative then some (.int g.significand)
  else if isWhole && !g.full && g.significand != 0 && g.significand ≤ 2 ^ 63 then
    some (.int (-g.significand))
  else (g.float? negative exponent).map .float

/-- A number. A leading zero stands alone, and a point has digits on both sides. -/
def number : Reader Json := fun cs =>
  let (negative, cs) := match cs with
    | '-' :: rest => (true, rest)
    | _ => (false, cs)
  let whole := cs.takeWhile Char.isDigit
  let cs := cs.dropWhile Char.isDigit
  if whole.isEmpty || (whole.length != 1 && whole.head? == some '0') then none
  else
    let g := whole.foldl Gathered.whole ⟨0, 0, false⟩
    let fraction? : Option (Option Gathered × List Char) := match cs with
      | '.' :: rest =>
        match rest.takeWhile Char.isDigit with
        | [] => none
        | ds =>
          -- a digit left out before the point does not keep those after it out
          some (some (ds.foldl Gathered.fraction { g with full := false }),
            rest.dropWhile Char.isDigit)
      | _ => some (none, cs)
    match fraction? with
    | none => none
    | some (fraction, cs) =>
      let digits := fraction.getD g
      match cs with
      | e :: rest =>
        if e = 'e' || e = 'E' then
          match exponent rest with
          | none => none
          | some (n, rest) => (digits.number? negative false n).map (·, rest)
        else (digits.number? negative fraction.isNone 0).map (·, cs)
      | [] => (digits.number? negative fraction.isNone 0).map (·, cs)

/-! ## Strings -/

/-- The value of a hexadecimal digit. -/
def hexValue? (c : Char) : Option Nat :=
  if c.isDigit then some (Text.digitValue c)
  else if 'a' ≤ c && c ≤ 'f' then some (c.toNat - 'a'.toNat + 10)
  else if 'A' ≤ c && c ≤ 'F' then some (c.toNat - 'A'.toNat + 10)
  else none

/-- Four hexadecimal digits. -/
def unit : Reader Nat
  | a :: b :: c :: d :: rest => do
    let a ← hexValue? a
    let b ← hexValue? b
    let c ← hexValue? c
    let d ← hexValue? d
    some (((a * 16 + b) * 16 + c) * 16 + d, rest)
  | _ => none

/-- The character escaped by one letter. -/
def escaped? : Char → Option Char
  | '"' => some '"'
  | '\\' => some '\\'
  | '/' => some '/'
  | 'b' => some '\x08'
  | 'f' => some '\x0c'
  | 'n' => some '\n'
  | 'r' => some '\r'
  | 't' => some '\t'
  | _ => none

/-- The character of a numeric escape: one unit, or a pair of surrogates with the second one
escaped as well. -/
def coded : Reader Char := fun cs => do
  let (high, rest) ← unit cs
  if 0xD800 ≤ high && high < 0xDC00 then
    match rest with
    | '\\' :: 'u' :: rest =>
      let (low, rest) ← unit rest
      if 0xDC00 ≤ low && low < 0xE000 then
        some (Char.ofNat (0x10000 + (high - 0xD800) * 0x400 + (low - 0xDC00)), rest)
      else none
    | _ => none
  else if 0xDC00 ≤ high && high < 0xE000 then none
  else some (Char.ofNat high, rest)

/-- The rest of a string after its opening quote; `fuel` bounds its number of characters. -/
def stringTail : Nat → Reader (List Char)
  | 0, _ => none
  | fuel + 1, cs => match cs with
    | [] => none
    | '"' :: rest => some ([], rest)
    | '\\' :: 'u' :: rest => do
      let (c, rest) ← coded rest
      let (s, rest) ← stringTail fuel rest
      some (c :: s, rest)
    | '\\' :: e :: rest => do
      let c ← escaped? e
      let (s, rest) ← stringTail fuel rest
      some (c :: s, rest)
    | c :: rest =>
      if c.toNat < 0x20 || c = '\\' then none
      else do
        let (s, rest) ← stringTail fuel rest
        some (c :: s, rest)

/-- A string. -/
def string : Reader String
  | '"' :: rest => (stringTail (rest.length + 1) rest).map fun (s, rest) => (String.ofList s, rest)
  | _ => none

/-! ## Values -/

/-- One or more items up to a closing character, commas between them; `fuel` bounds their
number. -/
def sequence {α : Type} (item : Reader α) (close : Char) : Nat → Reader (List α)
  | 0, _ => none
  | fuel + 1, cs => do
    let (x, rest) ← item cs
    match skipBlanks rest with
    | [] => none
    | c :: rest =>
      if c = close then some ([x], rest)
      else if c = ',' then do
        let (xs, rest) ← sequence item close fuel rest
        some (x :: xs, rest)
      else none

/-- No item or a sequence of them, up to a closing character. -/
def enclosed {α : Type} (item : Reader α) (close : Char) : Reader (List α) := fun cs =>
  match skipBlanks cs with
  | [] => none
  | c :: rest => if c = close then some ([], rest) else sequence item close (cs.length + 1) cs

/-- A name, a colon and a value. -/
def member (value : Reader Json) : Reader (String × Json) := fun cs => do
  let (key, rest) ← string (skipBlanks cs)
  match skipBlanks rest with
  | ':' :: rest => do
    let (j, rest) ← value rest
    some ((key, j), rest)
  | _ => none

/-- A fixed word. -/
def word (w : List Char) (j : Json) : Reader Json := fun cs =>
  if w.isPrefixOf cs then some (j, cs.drop w.length) else none

/-- A value, blanks allowed in front, with at most `depth` arrays and objects around each other. -/
def value (depth : Nat) : Reader Json := fun cs =>
  match skipBlanks cs with
  | '[' :: rest => match depth with
    | 0 => none
    | depth + 1 => (enclosed (value depth) ']' rest).map fun (js, rest) => (.arr js, rest)
  | '\x7b' :: rest => match depth with
    | 0 => none
    | depth + 1 =>
      (enclosed (member (value depth)) '\x7d' rest).map fun (ms, rest) => (.obj ms, rest)
  | '"' :: rest => (string ('"' :: rest)).map fun (s, rest) => (.str s, rest)
  | 'n' :: rest => word "null".toList .null ('n' :: rest)
  | 't' :: rest => word "true".toList (.bool true) ('t' :: rest)
  | 'f' :: rest => word "false".toList (.bool false) ('f' :: rest)
  | cs => number cs

/-- The deepest nesting that is read. -/
def maxDepth : Nat := 127

/-- A document. -/
def document : Reader Json := value maxDepth

/-- Whether a text holds blanks only. -/
def isBlankText (cs : List Char) : Bool := cs.all isBlank

/-- Reads a text that is one document, with blanks around it. -/
def parse? (s : String) : Option Json := do
  let (j, rest) ← document s.toList
  if isBlankText rest then some j else none

end SeriesLoad.Json
