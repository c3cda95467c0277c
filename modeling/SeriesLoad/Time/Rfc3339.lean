import SeriesLoad.Time.Instant

/-!
# Instants as RFC 3339 text

`render` writes an instant in UTC with a `Z`; the second has 0, 3, 6 or 9 digits after the point,
the fewest that are exact, and a leap second is written as 60.

`parse` reads a text with any offset and gives the instant in UTC. It reads from left to right and
stops at the first fault, so of two faults the earlier one is reported; only the hour, minute and
second wait for the fraction, and the size of the offset for the end of the text.
-/

namespace SeriesLoad.Rfc3339

/-! ## Writing -/

/-- The fraction of a second, in the fewest groups of three digits. -/
def fractionChars (nanos : Nat) : List Char :=
  if nanos == 0 then []
  else if nanos % 1000000 == 0 then '.' :: Text.padded 3 (nanos / 1000000)
  else if nanos % 1000 == 0 then '.' :: Text.padded 6 (nanos / 1000)
  else '.' :: Text.padded 9 nanos

/-- The characters of an instant. -/
def chars (t : Instant) : List Char :=
  let second := t.secondOfDay.toNat
  let written := second % 60 + (if t.isLeap then 1 else 0)
  t.date.chars ++ 'T' :: (Text.padded 2 (second / 3600) ++ ':' :: (Text.padded 2 (second / 60 % 60)
    ++ ':' :: (Text.padded 2 written ++ (fractionChars (t.nanos % nanosPerSecond) ++ ['Z']))))

/-- The text of an instant. -/
def render (t : Instant) : String := String.ofList (chars t)

/-! ## Reading -/

/-- Why a text is no instant. -/
inductive ParseError where
  /-- The text ends too early. -/
  | tooShort
  /-- A character does not belong where it stands. -/
  | invalid
  /-- A number is too large for its place. -/
  | outOfRange
  /-- Something follows the offset. -/
  | trailing
deriving DecidableEq, Repr

/-- The words for a fault. -/
def ParseError.message : ParseError → String
  | .tooShort => "premature end of input"
  | .invalid => "input contains invalid characters"
  | .outOfRange => "input is out of range"
  | .trailing => "trailing input"

/-- Reads something from the front of a text. -/
abbrev Reader (α : Type) := List Char → Except ParseError (α × List Char)

/-- The number of bytes of a text. -/
def byteLength (cs : List Char) : Nat := cs.foldr (·.utf8Size + ·) 0

/-- So many digits, as one number, after a number already read. -/
def digits : Nat → Nat → Reader Nat
  | 0, n, cs => .ok (n, cs)
  | count + 1, n, cs => match cs with
    | c :: rest =>
      if c.isDigit then digits count (n * 10 + Text.digitValue c) rest else .error .invalid
    | [] => .error .invalid

/-- One character of a kind. -/
def separator (isGood : Char → Bool) : Reader Unit
  | c :: rest => if isGood c then .ok ((), rest) else .error .invalid
  | [] => .error .invalid

/-- Year, month and day, which have to make a date. -/
def date : Reader Date := fun cs => do
  let (year, cs) ← digits 4 0 cs
  let ((), cs) ← separator (· == '-') cs
  let (month, cs) ← digits 2 0 cs
  let ((), cs) ← separator (· == '-') cs
  let (day, cs) ← digits 2 0 cs
  let d : Date := ⟨year, month, day⟩
  if d.isValid then .ok (d, cs) else .error .outOfRange

/-- Hour, minute and second, of any size. -/
def clock : Reader (Nat × Nat × Nat) := fun cs => do
  let (hour, cs) ← digits 2 0 cs
  let ((), cs) ← separator (· == ':') cs
  let (minute, cs) ← digits 2 0 cs
  let ((), cs) ← separator (· == ':') cs
  let (second, cs) ← digits 2 0 cs
  .ok ((hour, minute, second), cs)

/-- Nanoseconds, if there is a point. The first nine digits count. -/
def fraction : Reader Nat
  | '.' :: rest =>
    match rest with
    | [] => .error .tooShort
    | c :: _ =>
      if c.isDigit then
        let ds := rest.takeWhile Char.isDigit
        let kept := ds.take 9
        let n := Text.ofDigits 0 kept
        .ok (n * 10 ^ (9 - kept.length), rest.dropWhile Char.isDigit)
      else .error .invalid
  | cs => .ok (0, cs)

/-- The second and nanosecond of a written second; 60 stands for a leap second. -/
def leapSecond (second nanos : Nat) : Nat × Nat :=
  if second == 60 then (59, nanos + nanosPerSecond) else (second, nanos)

/-- The seconds by which a local time is ahead of UTC. -/
def offset : Reader Int
  | [] => .error .tooShort
  | sign :: cs =>
    if sign == 'Z' || sign == 'z' then .ok (0, cs)
    else if sign == '+' || sign == '-' || sign == '\u2212' then
      if byteLength cs < 2 then .error .tooShort
      else match cs with
        | h :: h' :: cs =>
          if !(h.isDigit && h'.isDigit) then .error .invalid
          else match cs with
            | [] => .error .tooShort
            | ':' :: cs =>
              if byteLength cs < 2 then .error .tooShort
              else match cs with
                | m :: m' :: cs =>
                  if !(m.isDigit && m'.isDigit) then .error .invalid
                  else if 6 ≤ Text.digitValue m then .error .outOfRange
                  else
                    let hours : Int := Text.digitValue h * 10 + Text.digitValue h'
                    let minutes : Int := Text.digitValue m * 10 + Text.digitValue m'
                    let seconds := hours * 3600 + minutes * 60
                    .ok (if sign == '+' then seconds else -seconds, cs)
                | _ => .error .invalid
            | _ => .error .invalid
        | _ => .error .invalid
    else .error .invalid

/-- Reads a text as an instant. -/
def parse (s : String) : Except ParseError Instant := do
  let cs := s.toList
  if byteLength cs < 19 then .error .tooShort
  else
    let (d, cs) ← date cs
    let ((), cs) ← separator (fun c => c == 'T' || c == 't' || c == ' ') cs
    let ((hour, minute, second), cs) ← clock cs
    let (nanos, cs) ← fraction cs
    let (second, nanos) := leapSecond second nanos
    if !(hour < 24 && minute < 60 && second < 60) then .error .outOfRange
    else
      let (ahead, cs) ← offset cs
      if !cs.isEmpty then .error .trailing
      else if 86400 ≤ ahead.natAbs then .error .outOfRange
      else
        let seconds := d.epochDay * 86400 + hour * 3600 + minute * 60 + second - ahead
        match Instant.ofParts? seconds nanos with
        | some t => .ok t
        | none => .error .outOfRange

end SeriesLoad.Rfc3339
