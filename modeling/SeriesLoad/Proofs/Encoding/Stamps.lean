import SeriesLoad.Proofs.Encoding.DocumentReader
import SeriesLoad.Proofs.Table.Output

/-!
# The time of a record

Every format writes the time of a point as a count of nanoseconds, each in a place of its own: at
the end of the line in line protocol, in the second cell of the second line in tag and field rows,
in the last cell but one of every line in series rows, and behind the measurement in documents.
`Format.stamp?` reads it there, without being told anything of the point.

**It is the count of the point** (`HostModel.Samples.stamp?_recordOf`), for the samples of hosts
whose tags are plain. So what is said of the times of such samples is said of the bytes of their
records.
-/

namespace SeriesLoad

/-! ## Line protocol -/

/-- The count that a word stands for. -/
def Text.stamp? (word : List Char) : Option Int :=
  (Text.Integer.read Text.Integer.signed word).toOption

theorem Text.stamp?_nanos (p : Point) : stamp? (Int.repr p.nanos).toList = some p.nanos := by
  rw [stamp?, Table.read_nanos]
  rfl

namespace LineProtocol

/-- The time of a line is behind its last blank. -/
def stamp? (cs : List Char) : Option Int :=
  (cs.splitOn ' ').getLast?.bind fun word => Text.stamp? word.dropLast

theorem stamp?_chars (p : Point) : stamp? (chars p) = some p.nanos := by
  have hblank : ' ' ∉ (Int.repr p.nanos).toList ++ ['\n'] := by
    have hdigits : ' ' ∉ (Int.repr p.nanos).toList :=
      Text.not_mem_of_isNumeral (Text.isNumeral_intRepr _) (by decide)
    simp [hdigits]
  rw [stamp?, chars, List.splitOn_append_cons_self, List.splitOn_eq_singleton hblank,
    List.getLast?_concat, Option.bind_some, List.dropLast_concat, Text.stamp?_nanos]

end LineProtocol

/-! ## Tag and field rows -/

namespace TagRow

/-- The time of the two lines is in the second one, behind the measurement. -/
def stamp? (cs : List Char) : Option Int :=
  match Table.grid cs with
  | _ :: (_ :: word :: _) :: _ => Text.stamp? word
  | _ => none

theorem stamp?_chars {keys : List String} {columns : Schema} {p : Point}
    (h : Table.Fits keys columns p) : stamp? (chars p) = some p.nanos := by
  have hgrid := Table.grid_chars h []
  rw [List.append_nil] at hgrid
  rw [stamp?, hgrid]
  exact Text.stamp?_nanos p

end TagRow

/-! ## Series rows -/

theorem Date.not_mem_chars {c : Char} (hdigit : c.isDigit = false) (hmark : c ∉ ['-', '+'])
    (d : Date) : c ∉ d.chars := by
  have hpadded : ∀ width n, c ∉ Text.padded width n := by
    intro width n hmem
    rw [Text.isDigit_of_mem_padded hmem] at hdigit
    cases hdigit
  simp only [List.mem_cons, List.not_mem_nil, or_false, not_or] at hmark
  have hyear : c ∉ yearChars d.year := by
    unfold yearChars
    split_ifs <;> simp [hpadded, hmark]
  simp [chars, hpadded, hyear, hmark]

namespace SeriesRow

/-- The time of the lines is in the last cell but one, the same in all of them. -/
def stamp? (cs : List Char) : Option Int :=
  match (Table.grid cs).dropLast.map fun row => row.reverse[1]?.bind Text.stamp? with
  | stamp :: rest => if ∀ other ∈ rest, other = stamp then stamp else none
  | [] => none

/-- What is in front of the time in a line. -/
def leadChars (p : Point) (field : String × FieldValue) : List Char :=
  "series_".toList ++ (table field.2).toList ++ ',' :: (seriesChars p ++ '#' :: (field.1.toList
    ++ '#' :: p.time.date.chars))

theorem rowChars_eq (p : Point) (field : String × FieldValue) (cs : List Char) :
    rowChars p field ++ cs = leadChars p field ++ ',' :: ((Int.repr p.nanos).toList
      ++ ',' :: field.2.text.toList) ++ '\n' :: cs := by
  unfold rowChars leadChars
  -- the text of the day is kept from being computed
  generalize p.time.date.chars = day
  simp

/-- The cells of a line end in the time and the value. -/
theorem splitOn_row (p : Point) {field : String × FieldValue}
    (hvalue : Text.isPlain field.2.text.toList = true) :
    (leadChars p field ++ ',' :: ((Int.repr p.nanos).toList ++ ',' :: field.2.text.toList)).splitOn
        ',' =
      (leadChars p field).splitOn ',' ++ [(Int.repr p.nanos).toList, field.2.text.toList] := by
  have hnanos := Text.comma_of_isPlain (Text.isPlain_intRepr p.nanos)
  rw [List.splitOn_append_cons_self, List.splitOn_append_cons_self_of_not_mem hnanos,
    List.splitOn_eq_singleton (Text.comma_of_isPlain hvalue)]

variable {keys : List String} {columns : Schema} {p : Point}

theorem newline_not_mem_leadChars (h : Table.Fits keys columns p) {field : String × FieldValue}
    (hkey : Text.isPlain field.1.toList = true) : '\n' ∉ leadChars p field := by
  have htable : ∀ v, '\n' ∉ (table v).toList := by
    intro v
    cases v with
    | float x => exact (by decide : '\n' ∉ "double".toList)
    | int n => exact (by decide : '\n' ∉ "bigint".toList)
    | bool b => exact (by decide : '\n' ∉ "boolean".toList)
    | bytes bs => exact (by decide : '\n' ∉ "blob".toList)
  have hname := Text.newline_of_isPlain h.name
  have htags : ∀ tag ∈ p.tags.toList, '\n' ∉ tag.1.toList ∧ '\n' ∉ tag.2.toList := by
    intro tag htag
    obtain ⟨hkey, -, hvalue⟩ := h.tags tag htag
    exact ⟨Text.newline_of_isPlain hkey, Text.newline_of_isPlain hvalue⟩
  have hkey := Text.newline_of_isPlain hkey
  have hday : '\n' ∉ p.time.date.chars := Date.not_mem_chars (by decide) (by decide) _
  have hseries : '\n' ∉ seriesChars p := by
    simp only [seriesChars, List.mem_append, List.mem_flatMap, List.mem_cons, not_or, not_exists,
      not_and]
    refine ⟨hname, ?_⟩
    intro tag htag
    exact ⟨by decide, (htags tag htag).1, by decide, (htags tag htag).2⟩
  unfold leadChars
  generalize p.time.date.chars = day at hday
  simp [htable, hseries, hkey, hday]

/-- The lines of a point, taken apart. -/
theorem grid_chars (h : Table.Fits keys columns p)
    (hkeys : ∀ field ∈ p.fields.toList, Text.isPlain field.1.toList = true) :
    Table.grid (chars p) = (p.fields.toList.map fun field =>
      (leadChars p field).splitOn ',' ++ [(Int.repr p.nanos).toList, field.2.text.toList])
        ++ [[[]]] := by
  have hvalues := h.values
  rw [chars]
  -- on the fields alone: the point stays the same
  generalize p.fields.toList = fields at hkeys hvalues
  induction fields with
  | nil => rfl
  | cons field rest ih =>
    obtain ⟨hkey, hkeys⟩ := List.forall_mem_cons.mp hkeys
    obtain ⟨hvalue, hvalues⟩ := List.forall_mem_cons.mp hvalues
    have hline : '\n' ∉ leadChars p field
        ++ ',' :: ((Int.repr p.nanos).toList ++ ',' :: field.2.text.toList) := by
      have hlead := newline_not_mem_leadChars h hkey
      have hnanos := Text.newline_of_isPlain (Text.isPlain_intRepr p.nanos)
      simp [hlead, hnanos, Text.newline_of_isPlain hvalue]
    rw [List.flatMap_cons, rowChars_eq, Table.grid_append hline, splitOn_row p hvalue,
      ih hkeys hvalues, List.map_cons, List.cons_append]

theorem stamp?_chars (h : Table.Fits keys columns p)
    (hkeys : ∀ field ∈ p.fields.toList, Text.isPlain field.1.toList = true)
    (hfields : p.fields.toList ≠ []) : stamp? (chars p) = some p.nanos := by
  have hstamps : ((Table.grid (chars p)).dropLast.map fun row =>
      row.reverse[1]?.bind Text.stamp?) = p.fields.toList.map fun _ => some p.nanos := by
    rw [grid_chars h hkeys, List.dropLast_concat, List.map_map]
    refine List.map_congr_left ?_
    intro field _
    simp [Text.stamp?_nanos]
  obtain ⟨field, rest, hcons⟩ := List.exists_cons_of_ne_nil hfields
  rw [stamp?, hstamps, hcons, List.map_cons]
  refine if_pos ?_
  intro other hother
  obtain ⟨_, -, rfl⟩ := List.mem_map.mp hother
  rfl

end SeriesRow

/-! ## Documents -/

namespace Bson.Reader

/-- The time of a document is the number behind its first element, which is a text. -/
def stamp? (bs : List UInt8) : Option Int := do
  let text := behindKey (bs.drop 5)
  let element := text.drop (4 + (← length? text))
  if element.head? = some 0x12 ∧ key? (element.drop 1) = some "timestamp_ns" then
    match Kind.int64.plain? ((behindKey (element.drop 1)).take 8) with
    | some (.int64 n) => some n.toInt
    | _ => none
  else none

/-- How the document of a point begins. -/
theorem bytes_ofPoint (p : Point) :
    ∃ size rest, (PointDocument.ofPoint p).bytes =
      (littleEndian 4 size ++ [0x02]) ++ (keyBytes "measurement" ++ ((littleEndian 4
        ((textBytes p.name).length + 1) ++ keyBytes p.name) ++ 0x12 :: (keyBytes "timestamp_ns"
          ++ ((Value.int64 (Int64.ofInt p.nanos)).bytes ++ rest)))) := by
  refine ⟨(memberBytes (PointDocument.ofPoint p)).length + 5,
    memberBytes [("tags", .document (PointDocument.tags p.tags.toList)),
      ("fields", .document (PointDocument.fields p.fields.toList))] ++ [0], ?_⟩
  rw [Document.bytes, framed]
  generalize (memberBytes (PointDocument.ofPoint p)).length + 5 = size
  rw [PointDocument.ofPoint, memberBytes, memberBytes, Value.bytes, stringBytes]
  simp only [Value.typeByte, List.append_assoc, List.cons_append, List.nil_append]

theorem stamp?_bytes {p : Point} (hname : (textBytes p.name).length + 1 < 2 ^ 31) :
    stamp? (PointDocument.ofPoint p).bytes = some p.nanos := by
  obtain ⟨size, rest, hbytes⟩ := bytes_ofPoint p
  have hmeasurement : hasZero "measurement" = false := by decide
  have hstamp : hasZero "timestamp_ns" = false := by decide
  have hfive : (littleEndian 4 size ++ [(0x02 : UInt8)]).length = 5 := by simp
  have hsize : (littleEndian 4 ((textBytes p.name).length + 1) ++ keyBytes p.name).length =
      4 + ((textBytes p.name).length + 1) := by
    simp [keyBytes]
  have hlength : length? ((littleEndian 4 ((textBytes p.name).length + 1) ++ keyBytes p.name)
      ++ 0x12 :: (keyBytes "timestamp_ns" ++ ((Value.int64 (Int64.ofInt p.nanos)).bytes ++ rest))) =
        some ((textBytes p.name).length + 1) := by
    rw [List.append_assoc]
    exact length?_littleEndian hname _
  have hcount : (Int64.ofInt p.nanos).toInt = p.nanos := by
    obtain ⟨hmin, hmax⟩ := Instant.unixNanos_mem p.time
    exact Int64.toInt_ofInt_of_le hmin (Int.lt_of_le_of_lt hmax (by decide))
  have hvalue : Kind.int64.plain? ((Value.int64 (Int64.ofInt p.nanos)).bytes) =
      some (.int64 (Int64.ofInt p.nanos)) :=
    plain?_bytes (v := .int64 (Int64.ofInt p.nanos)) (by simp [kindOf])
  have height : (Value.int64 (Int64.ofInt p.nanos)).bytes.length = 8 := by
    rw [Value.bytes, length_littleEndian]
  rw [hbytes, stamp?, List.drop_left' hfive, behindKey_keyBytes hmeasurement, hlength]
  simp only [Option.bind_eq_bind, Option.bind_some]
  rw [List.drop_left' hsize]
  simp only [List.head?_cons, List.drop_succ_cons, List.drop_zero, key?_keyBytes hstamp,
    behindKey_keyBytes hstamp, and_self, if_true]
  rw [List.take_left' height, hvalue]
  exact congrArg some hcount

end Bson.Reader

/-! ## Records -/

/-- The time that is written in a record of the format. -/
def Format.stamp? (f : Format) (record : ByteArray) : Option Int :=
  match f with
  | .cassandra => (String.fromUTF8? record).bind fun text => SeriesRow.stamp? text.toList
  | .influx => (String.fromUTF8? record).bind fun text => LineProtocol.stamp? text.toList
  | .mongo => Bson.Reader.stamp? record.data.toList
  | .timescaledb => (String.fromUTF8? record).bind fun text => TagRow.stamp? text.toList

theorem Format.toList_recordOf_mongo {p : Point} (h : Format.mongo.Encodes p) :
    (Format.mongo.recordOf p).data.toList = (PointDocument.ofPoint p).bytes := by
  have hencode : Format.mongo.encode p = .ok (Format.mongo.recordOf p) := h
  unfold Format.encode Bson.Document.encode at hencode
  cases hbad : Bson.badMember? (PointDocument.ofPoint p) with
  | some key => simp [hbad] at hencode
  | none =>
    simp only [hbad, Except.ok.injEq] at hencode
    rw [← hencode]

theorem HostModel.columns_short (model : HostModel) : ∀ column ∈ model.columns,
    (Bson.textBytes column.1).length + 1 < 2 ^ 31 ∧ column.2 ≠ [] := by
  cases model <;> decide +kernel

namespace HostModel.Samples

variable {model : HostModel} {tags : List HostTags} {q : Point}

/-- The time that is read from the record of a sample is the one of the sample. -/
theorem stamp?_recordOf (h : model.Samples tags q)
    (hplain : ∀ t ∈ tags, ∀ v ∈ t.values, Text.isPlain v.toList = true) (f : Format) :
    f.stamp? (f.recordOf q) = some q.nanos := by
  have hfits := h.fits hplain
  obtain ⟨hname, hkeys⟩ := model.columns_short _ h.column
  cases f with
  | cassandra =>
    have hfields : q.fields.toList ≠ [] := by
      intro hnil
      rw [hnil] at hkeys
      exact hkeys rfl
    have hplainKeys : ∀ field ∈ q.fields.toList, Text.isPlain field.1.toList = true := by
      intro field hfield
      exact Text.isPlain_of_isName (model.isName_columns _ h.column _
        (List.mem_cons_of_mem _ (List.mem_map_of_mem hfield)))
    have hrecord : Format.cassandra.recordOf q = (SeriesRow.record q).toUTF8 := rfl
    rw [Format.stamp?, hrecord, fromUTF8?_toUTF8, Option.bind_some, SeriesRow.record,
      String.toList_ofList, SeriesRow.stamp?_chars hfits hplainKeys hfields]
  | influx =>
    have hrecord : Format.influx.recordOf q = (LineProtocol.record q).toUTF8 := rfl
    rw [Format.stamp?, hrecord, fromUTF8?_toUTF8, Option.bind_some, LineProtocol.record,
      String.toList_ofList, LineProtocol.stamp?_chars]
  | mongo =>
    rw [Format.stamp?, Format.toList_recordOf_mongo (h.encodes .mongo),
      Bson.Reader.stamp?_bytes hname]
  | timescaledb =>
    have hrecord : Format.timescaledb.recordOf q = (TagRow.record q).toUTF8 := rfl
    rw [Format.stamp?, hrecord, fromUTF8?_toUTF8, Option.bind_some, TagRow.record,
      String.toList_ofList, TagRow.stamp?_chars hfits]

end HostModel.Samples

end SeriesLoad
