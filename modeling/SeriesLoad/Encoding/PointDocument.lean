import SeriesLoad.Encoding.Bson
import SeriesLoad.Point

/-!
# Points as binary documents

```
measurement: "cpu", timestamp_ns: 1451606400000000000,
tags: (hostname: "host_0", ...), fields: (usage_user: 58.0, ...)
```

A key that a point has twice is in the document once, at its first place and with its last value.
-/

namespace SeriesLoad.PointDocument

/-- A field value, in the type that holds it exactly. -/
def fieldValue : FieldValue → Bson.Value
  | .float x => .double x
  | .int n => .int64 n
  | .bool b => .boolean b
  | .bytes bs => .binary bs

/-- Tags as a document. -/
def tags (pairs : List (String × String)) : Bson.Document :=
  pairs.foldl (fun d pair => d.insert pair.1 (.string pair.2)) []

/-- Fields as a document. -/
def fields (pairs : List (String × FieldValue)) : Bson.Document :=
  pairs.foldl (fun d pair => d.insert pair.1 (fieldValue pair.2)) []

/-- The document of a point. -/
def ofPoint (p : Point) : Bson.Document :=
  [("measurement", .string p.name),
   ("timestamp_ns", .int64 (Int64.ofInt p.nanos)),
   ("tags", .document (tags p.tags.toList)),
   ("fields", .document (fields p.fields.toList))]

end SeriesLoad.PointDocument
