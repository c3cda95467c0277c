import SeriesLoad.Proofs.Line.Reader
import SeriesLoad.Proofs.Run.Partition

/-!
# Lines in the output

The records of points in line protocol stand one behind the other, a line each. **They are read back
as the names, tags, fields and times of the points** (`lines_read_back`), so two lists of points with
the same output do not differ in any of these, the text of a double standing for the double.
-/

namespace SeriesLoad

open LineProtocol.Reader (Line Readable)

namespace LineProtocol

theorem joined_recordOf (points : List Point) :
    joined (points.map Format.influx.recordOf) = (String.ofList (points.flatMap chars)).toUTF8 :=
  joined_toUTF8 chars points

/-- The output of readable points is read back. -/
theorem read?_recordOf {points : List Point} (h : ∀ p ∈ points, Readable p) :
    Reader.read? (joined (points.map Format.influx.recordOf)) = some (points.map .ofPoint) := by
  rw [Reader.read?, joined_recordOf, fromUTF8?_toUTF8, Option.bind_some, String.toList_ofList,
    Reader.lines?_chars h]

end LineProtocol

/-- The lines of points, one behind the other, are read back from left to right: of each point its
name, its tags and its fields in their order, the values with their kinds, and its time. Nothing is
asked of the words of a point but that they have no newline in them and no backslash at their end,
and of bytes that they are a text. -/
theorem lines_read_back (points : List Point) (h : ∀ p ∈ points, Readable p) :
    ∃ records : List ByteArray, points.map Format.influx.encode = records.map .ok
      ∧ LineProtocol.Reader.read? (joined records) = some (points.map Line.ofPoint)
      ∧ ∀ others : List Point, (∀ p ∈ others, Readable p) →
        joined (others.map Format.influx.recordOf) = joined records →
        others.map Line.ofPoint = points.map Line.ofPoint := by
  have hread := LineProtocol.read?_recordOf h
  refine ⟨points.map Format.influx.recordOf, Format.map_encode fun p _ => rfl, hread,
    fun others hothers hjoined => ?_⟩
  have hreadOthers := LineProtocol.read?_recordOf hothers
  rw [hjoined, hread] at hreadOthers
  exact (Option.some.inj hreadOthers).symm

/-- A point whose words and bytes have all the characters that are escaped, and backslashes in front
of some of them. -/
def delimiters : Point where
  name := "a\\,b"
  tags := #[("host name", "x=\\=y"), ("", "")]
  fields := #[("load,1", .float (.ofFloat 0.5)), ("n", .int (-3)), ("on", .bool true),
    ("note", .bytes [0x22, 0x0A, 0x5C, 0x2C])]

theorem lines_read_back_delimiters :
    Readable delimiters ∧ Readable {}
      ∧ ∃ first second, Format.influx.encode delimiters = .ok first
        ∧ Format.influx.encode {} = .ok second
        ∧ LineProtocol.Reader.read? (first ++ second) = some
          [⟨"a\\,b", [("host name", "x=\\=y"), ("", "")],
            [("load,1", .float (FieldValue.float (.ofFloat 0.5)).text), ("n", .int (-3)),
             ("on", .bool true), ("note", .bytes [0x22, 0x0A, 0x5C, 0x2C])], 0⟩,
           ⟨"", [], [], 0⟩] := by
  have hnote : LineProtocol.Reader.IsReadable (.bytes [0x22, 0x0A, 0x5C, 0x2C]) :=
    ⟨['"', '\n', '\\', ','], rfl⟩
  have hfirst : Readable delimiters := by
    refine ⟨by decide, by decide, ?_⟩
    show ∀ field ∈ delimiters.fields.toList, _
    simp only [delimiters, List.forall_mem_cons]
    exact ⟨⟨by decide, trivial⟩, ⟨by decide, trivial⟩, ⟨by decide, trivial⟩, ⟨by decide, hnote⟩,
      List.forall_mem_nil _⟩
  have hsecond : Readable {} := ⟨by decide, List.forall_mem_nil _, List.forall_mem_nil _⟩
  obtain ⟨records, hencode, hread, -⟩ := lines_read_back [delimiters, {}]
    (List.forall_mem_cons.mpr ⟨hfirst, List.forall_mem_singleton.mpr hsecond⟩)
  obtain ⟨first, rest, rfl, hfirstRecord, hrest⟩ := List.map_eq_cons_iff.mp hencode.symm
  obtain ⟨second, rest, rfl, hsecondRecord, hnil⟩ := List.map_eq_cons_iff.mp hrest
  obtain rfl := List.map_eq_nil_iff.mp hnil
  rw [joined_cons, joined_cons, joined_nil, ByteArray.append_empty] at hread
  exact ⟨hfirst, hsecond, first, second, hfirstRecord.symm, hsecondRecord.symm, hread⟩

end SeriesLoad
