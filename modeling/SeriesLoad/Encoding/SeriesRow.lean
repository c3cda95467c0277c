import SeriesLoad.Point

/-!
# Series rows

A point is one line for each of its fields. The line names the table for the kind of the value,
then the series, the time and the value; the series is the measurement with its tags, the field and
the UTC day.

```
series_double,cpu,hostname=host_0,region=eu-west-1#usage_user#2016-01-01,1451606400000000000,58
```

Nothing is escaped.
-/

namespace SeriesLoad.SeriesRow

/-- The table for values of this kind. -/
def table : FieldValue → String
  | .float _ => "double"
  | .int _ => "bigint"
  | .bool _ => "boolean"
  | .bytes _ => "blob"

/-- The measurement and the tags. -/
def seriesChars (p : Point) : List Char :=
  p.name.toList ++ p.tags.toList.flatMap fun tag => ',' :: (tag.1.toList ++ '=' :: tag.2.toList)

/-- The line of one field. -/
def rowChars (p : Point) (field : String × FieldValue) : List Char :=
  "series_".toList ++ (table field.2).toList ++ ',' :: (seriesChars p ++ '#' :: (field.1.toList
    ++ '#' :: (p.time.date.chars ++ ',' :: ((Int.repr p.nanos).toList
      ++ ',' :: (field.2.text.toList ++ ['\n'])))))

/-- The lines of a point. -/
def chars (p : Point) : List Char := p.fields.toList.flatMap (rowChars p)

/-- The record of a point. -/
def record (p : Point) : String := String.ofList (chars p)

end SeriesLoad.SeriesRow
