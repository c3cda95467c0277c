import SeriesLoad.Point

/-!
# Tag and field rows

A point is two lines: one with its tags, one with its measurement, time and field values.

```
tags,hostname=host_0,region=eu-west-1,datacenter=eu-west-1b
cpu,1451606400000000000,58,2,24
```

The names of the fields are not repeated; they are listed once, ahead of the first point. Nothing
is escaped.
-/

namespace SeriesLoad.TagRow

/-- The line of the tags. -/
def tagsChars (tags : List (String × String)) : List Char :=
  "tags".toList
    ++ (tags.flatMap fun tag => ',' :: (tag.1.toList ++ '=' :: tag.2.toList)) ++ ['\n']

/-- The line of the fields. -/
def fieldsChars (p : Point) : List Char :=
  p.name.toList ++ ',' :: ((Int.repr p.nanos).toList
    ++ (p.fields.toList.flatMap fun field => ',' :: field.2.text.toList) ++ ['\n'])

/-- The lines of a point. -/
def chars (p : Point) : List Char := tagsChars p.tags.toList ++ fieldsChars p

/-- The record of a point. -/
def record (p : Point) : String := String.ofList (chars p)

end SeriesLoad.TagRow
