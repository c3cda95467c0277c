import SeriesLoad.Point

/-!
# Line protocol

A point is one line: the measurement, its tags, its fields and its time.

```
cpu,hostname=host_0,region=eu-west-1 usage_user=58,usage_system=2 1451606400000000000
```

Commas, blanks and equals signs in names, keys and tag values stand behind a backslash. An integer
ends in `i`, and bytes are text in quotes, with quotes and backslashes behind a backslash.
-/

namespace SeriesLoad.LineProtocol

/-- The characters that end a name, a key or a tag value. -/
def isDelimiter (c : Char) : Bool := c = ',' || c = ' ' || c = '='

/-- A name, a key or a tag value, its delimiters escaped. -/
def escape (cs : List Char) : List Char :=
  cs.flatMap fun c => if isDelimiter c then ['\\', c] else [c]

/-- The characters that are escaped in quotes. -/
def isQuoted (c : Char) : Bool := c = '"' || c = '\\'

/-- A text in quotes. -/
def quote (cs : List Char) : List Char :=
  '"' :: (cs.flatMap (fun c => if isQuoted c then ['\\', c] else [c]) ++ ['"'])

/-- The value of a field. -/
def valueChars : FieldValue → List Char
  | .bytes bs => quote (Text.Utf8.decode bs)
  | .int n => (FieldValue.int n).text.toList ++ ['i']
  | v => v.text.toList

/-- A tag. -/
def tagChars (tag : String × String) : List Char :=
  ',' :: (escape tag.1.toList ++ '=' :: escape tag.2.toList)

/-- A field. -/
def fieldChars (field : String × FieldValue) : List Char :=
  escape field.1.toList ++ '=' :: valueChars field.2

/-- The fields, a blank in front of them and commas between them. -/
def fieldsChars : List (String × FieldValue) → List Char
  | [] => []
  | f :: rest => ' ' :: (fieldChars f ++ rest.flatMap fun g => ',' :: fieldChars g)

/-- The line of a point. -/
def chars (p : Point) : List Char :=
  escape p.name.toList ++ p.tags.toList.flatMap tagChars ++ fieldsChars p.fields.toList
    ++ ' ' :: ((Int.repr p.nanos).toList ++ ['\n'])

/-- The record of a point. -/
def record (p : Point) : String := String.ofList (chars p)

end SeriesLoad.LineProtocol
