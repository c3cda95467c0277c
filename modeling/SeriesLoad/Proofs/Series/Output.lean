import SeriesLoad.Proofs.Series.Reader

/-!
# Series rows in the output

A point is a line for each of its fields, so the records of points one behind the other are as many
lines as the points have fields. **They are read back as the kind, the series, the day, the time and
the text of each field, in order, and the day is the one that the time of the same line falls on**
(`rows_read_back`).

The days are those of the proleptic Gregorian calendar: the start of 1970 is in its first day, and
with every further day the count goes up by one, before 1970 as well (`Date.ofEpochDay_succ`).
-/

namespace SeriesLoad

open SeriesRow.Reader (Row)

namespace SeriesRow

theorem joined_recordOf (points : List Point) :
    joined (points.map Format.cassandra.recordOf) = (String.ofList (points.flatMap chars)).toUTF8 :=
  joined_toUTF8 chars points

/-- The output of readable points is read back. -/
theorem read?_recordOf {points : List Point} (h : ∀ p ∈ points, Readable p) :
    Reader.read? (joined (points.map Format.cassandra.recordOf)) =
      some (points.flatMap Row.ofPoint) := by
  rw [Reader.read?, joined_recordOf, fromUTF8?_toUTF8, Option.bind_some, String.toList_ofList,
    rows?_chars h]

/-- The count in a row is on the day in that row. -/
theorem nanos_mem_day {p : Point} {row : Row} (h : row ∈ Row.ofPoint p) :
    row.day.isValid = true ∧ row.day.epochDay * nanosPerDay ≤ row.nanos
      ∧ row.nanos < (row.day.epochDay + 1) * nanosPerDay := by
  obtain ⟨field, -, rfl⟩ := List.mem_map.mp h
  refine ⟨Date.isValid_ofEpochDay _, ?_⟩
  simp only [Reader.Row.ofField, Date.epochDay_ofEpochDay, nanosPerDay, nanosPerSecond]
  omega

end SeriesRow

/-- The records of points, one behind the other, are read back line by line, a line for each field
of each point, in order: the kind of the value, the measurement with the tags, the key of the field,
the day, the time and the text of the value, which may have commas in it. The day in a line is the
one that the time in this line falls on. Days are counted from the first of January 1970, one after
the other as the calendar has them. -/
theorem rows_read_back (points : List Point) (h : ∀ p ∈ points, SeriesRow.Readable p) :
    (∃ records : List ByteArray, points.map Format.cassandra.encode = records.map .ok
        ∧ SeriesRow.Reader.read? (joined records) = some (points.flatMap Row.ofPoint))
      ∧ (∀ p ∈ points, ∀ row ∈ Row.ofPoint p, row.day.isValid = true
        ∧ row.day.epochDay * nanosPerDay ≤ row.nanos
        ∧ row.nanos < (row.day.epochDay + 1) * nanosPerDay)
      ∧ Date.ofEpochDay 0 = ⟨1970, 1, 1⟩
      ∧ ∀ n, Date.ofEpochDay (n + 1) = (Date.ofEpochDay n).next := by
  refine ⟨⟨points.map Format.cassandra.recordOf, Format.map_encode fun p _ => rfl,
    SeriesRow.read?_recordOf h⟩, ?_, rfl, Date.ofEpochDay_succ⟩
  intro p _ row hrow
  exact SeriesRow.nanos_mem_day hrow

/-- A point a nanosecond before the start of 1970, with commas in a value. -/
def eveOf1970 : Point where
  name := "cpu"
  timestamp := Instant.ofNanos? (-1)
  tags := #[("hostname", "host_0"), ("region", "")]
  fields := #[("usage_user", .float (.ofFloat 58.5)), ("label", .bytes [0x61, 0x2C, 0x23, 0x2C])]

/-- A point at the start of a leap day, without tags. -/
def leapDay : Point where
  name := "mem"
  timestamp := some (.ofSecs 1456704000)
  fields := #[("used", .int (-3)), ("on", .bool true)]

theorem rows_read_back_around_1970 :
    SeriesRow.Readable eveOf1970 ∧ SeriesRow.Readable leapDay
      ∧ ∃ first second, Format.cassandra.encode eveOf1970 = .ok first
        ∧ Format.cassandra.encode leapDay = .ok second
        ∧ SeriesRow.Reader.read? (first ++ second) = some
          [⟨.double, "cpu", [("hostname", "host_0"), ("region", "")], "usage_user",
              ⟨1969, 12, 31⟩, -1, (FieldValue.float (.ofFloat 58.5)).text⟩,
           ⟨.blob, "cpu", [("hostname", "host_0"), ("region", "")], "label",
              ⟨1969, 12, 31⟩, -1, "a,#,"⟩,
           ⟨.bigint, "mem", [], "used", ⟨2016, 2, 29⟩, 1456704000000000000, "-3"⟩,
           ⟨.boolean, "mem", [], "on", ⟨2016, 2, 29⟩, 1456704000000000000, "true"⟩] := by
  have hlabel : (FieldValue.bytes [0x61, 0x2C, 0x23, 0x2C]).text = "a,#," := by
    have hdecode := Text.Utf8.decode_flatMap ['a', ',', '#', ','] []
    rw [Text.Utf8.decode.eq_def []] at hdecode
    exact congrArg String.ofList hdecode
  have hfirst : SeriesRow.Readable eveOf1970 := by
    refine ⟨⟨by decide, by decide, by decide⟩, by decide, by decide, ?_⟩
    simp only [eveOf1970, List.forall_mem_cons, hlabel]
    exact ⟨⟨by decide, Text.newline_of_isPlain (FieldValue.isPlain_text_float _)⟩,
      ⟨by decide, by decide⟩, List.forall_mem_nil _⟩
  have hsecond : SeriesRow.Readable leapDay :=
    ⟨⟨by decide, by decide, by decide⟩, by decide, by decide, by decide⟩
  obtain ⟨⟨records, hencode, hread⟩, -⟩ := rows_read_back [eveOf1970, leapDay]
    (List.forall_mem_cons.mpr ⟨hfirst, List.forall_mem_singleton.mpr hsecond⟩)
  obtain ⟨first, rest, rfl, hfirstRecord, hrest⟩ := List.map_eq_cons_iff.mp hencode.symm
  obtain ⟨second, rest, rfl, hsecondRecord, hnil⟩ := List.map_eq_cons_iff.mp hrest
  obtain rfl := List.map_eq_nil_iff.mp hnil
  rw [joined_cons, joined_cons, joined_nil, ByteArray.append_empty] at hread
  rw [← hlabel]
  exact ⟨hfirst, hsecond, first, second, hfirstRecord.symm, hsecondRecord.symm, hread⟩

end SeriesLoad
