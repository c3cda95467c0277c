import SeriesLoad.Proofs.Encoding.Stamps
import SeriesLoad.Proofs.Query.Window
import SeriesLoad.Proofs.Time.Calendar

/-!
# Reading series rows back

`read?` reads the output of the format of series rows line by line. A line is cut at its first
comma, at the next two number signs, and at the two commas that come next; what is left is the value
and may have commas of its own. The series is split at commas and its tags at their first equals
sign. The kind of the value is told by the table alone, since nothing else of a value is written but
its text.

**Rows are read back** (`rows?_chars`) if no name, key or tag value has a character that the line is
cut at, and no value has a newline in its text. The day in a row is the one that the count of
nanoseconds in the same row falls on (`Instant.Fits.date_eq`), although the day is made from the
instant and not from the count.
-/

namespace SeriesLoad

/-! ## Counts and days -/

/-- The nanoseconds of a day. -/
def nanosPerDay : Int := 86400 * nanosPerSecond

/-- The day of an instant is the one that its count falls on, also before 1970. -/
theorem Instant.Fits.date_eq {t : Instant} (h : t.Fits) :
    t.date = Date.ofEpochDay (t.unixNanos / nanosPerDay) := by
  have hnanos := nanos_lt_of_isLeap_eq_false h.not_leap
  have hday : t.unixNanos / nanosPerDay = t.epochDay := by
    rw [h.unixNanos_eq]
    simp only [exactNanos, epochDay, nanosPerDay, nanosPerSecond] at hnanos ⊢
    omega
  rw [hday, date]

theorem Instant.Fits.year_mem {t : Instant} (h : t.Fits) :
    0 ≤ t.date.year ∧ t.date.year ≤ 9999 := by
  have hnanos := nanos_lt_of_isLeap_eq_false h.not_leap
  have hmin := h.min_le
  have hmax := h.le_max
  simp only [exactNanos, minWord, maxWord, nanosPerSecond] at hnanos hmin hmax
  exact Date.year_ofEpochDay (by unfold epochDay; omega) (by unfold epochDay; omega)

namespace SeriesRow

/-! ## The reader -/

namespace Reader

/-- The text up to the first such character, and what is behind it. -/
def cut? (c : Char) (cs : List Char) : Option (List Char × List Char) :=
  if c ∈ cs then some (cs.takeWhile (· != c), (cs.dropWhile (· != c)).drop 1) else none

theorem cut?_append {c : Char} {w : List Char} (h : c ∉ w) (rest : List Char) :
    cut? c (w ++ c :: rest) = some (w, rest) := by
  have hw : ∀ d ∈ w, (d != c) = true := by
    intro d hd
    exact bne_iff_ne.mpr (ne_of_mem_of_not_mem hd h)
  rw [cut?, if_pos (List.mem_append_right w List.mem_cons_self),
    List.takeWhile_append_of_pos hw, List.dropWhile_append_of_pos hw]
  simp

/-- The kinds of values. -/
inductive Kind where
  | double
  | bigint
  | boolean
  | blob
deriving DecidableEq, Repr

/-- The kind of a value. -/
def Kind.of : FieldValue → Kind
  | .float _ => .double
  | .int _ => .bigint
  | .bool _ => .boolean
  | .bytes _ => .blob

/-- The kind that the name of a table stands for. -/
def Kind.read? (cs : List Char) : Option Kind :=
  [("series_double", Kind.double), ("series_bigint", .bigint), ("series_boolean", .boolean),
    ("series_blob", .blob)].lookup (String.ofList cs)

/-- What a line tells of a point and one of its fields. -/
structure Row where
  kind : Kind
  name : String
  tags : List (String × String)
  key : String
  day : Date
  nanos : Int
  /-- The text of the value. -/
  text : String
deriving DecidableEq, Repr

/-- The measurement and the tags of a series. -/
def series (cs : List Char) : String × List (String × String) :=
  match cs.splitOn ',' with
  | name :: tags => (String.ofList name, tags.map Table.readTag)
  | [] => ("", [])

/-- A day, with nothing behind it. -/
def day? (cs : List Char) : Option Date :=
  match Rfc3339.date cs with
  | .ok (d, []) => some d
  | _ => none

/-- A line. -/
def row? (cs : List Char) : Option Row := do
  let (table, cs) ← cut? ',' cs
  let kind ← Kind.read? table
  let (seriesChars, cs) ← cut? '#' cs
  let (key, cs) ← cut? '#' cs
  let (day, cs) ← cut? ',' cs
  let (nanos, text) ← cut? ',' cs
  let (name, tags) := series seriesChars
  return ⟨kind, name, tags, String.ofList key, ← day? day, ← Text.stamp? nanos,
    String.ofList text⟩

/-- Lines, up to the end of the last one. -/
def rows? : List (List Char) → Option (List Row)
  | [[]] => some []
  | line :: rest => do
    let row ← row? line
    let rows ← rows? rest
    return row :: rows
  | [] => none

/-- The rows of a file. -/
def read? (bs : ByteArray) : Option (List Row) :=
  (String.fromUTF8? bs).bind fun text => rows? (text.toList.splitOn '\n')

end Reader

/-! ## The way back -/

/-- The characters at which a line is cut. -/
def isMark (c : Char) : Bool := c = ',' || c = '=' || c = '#' || c = '\n'

/-- A word that can stand in a series: it has none of the characters at which a line is cut. -/
def IsWord (s : String) : Prop := ∀ c ∈ s.toList, isMark c = false

instance (s : String) : Decidable (IsWord s) := List.decidableBAll _ _

theorem IsWord.not_mem {s : String} (h : IsWord s) {c : Char} (hc : isMark c = true) :
    c ∉ s.toList := by
  intro hmem
  rw [h c hmem] at hc
  cases hc

theorem IsWord.isPlain {s : String} (h : IsWord s) : Text.isPlain s.toList = true := by
  refine List.all_eq_true.mpr ?_
  intro c hc
  have hcomma : c ≠ ',' := by
    rintro rfl
    exact h.not_mem rfl hc
  have hnewline : c ≠ '\n' := by
    rintro rfl
    exact h.not_mem rfl hc
  simp [hcomma, hnewline]

/-- The rows of a point can be told apart and taken apart: its time is not in a leap second and fits
64 bits, its words have no characters at which a line is cut, and its values have no newlines in
their texts. -/
structure Readable (p : Point) : Prop where
  time : p.time.Fits
  name : IsWord p.name
  tags : ∀ tag ∈ p.tags.toList, IsWord tag.1 ∧ IsWord tag.2
  fields : ∀ field ∈ p.fields.toList, IsWord field.1 ∧ '\n' ∉ field.2.text.toList

namespace Reader

/-- The row of one field of a point. -/
def Row.ofField (p : Point) (field : String × FieldValue) : Row where
  kind := .of field.2
  name := p.name
  tags := p.tags.toList
  key := field.1
  day := .ofEpochDay (p.nanos / nanosPerDay)
  nanos := p.nanos
  text := field.2.text

/-- The rows of a point, one for each field. -/
def Row.ofPoint (p : Point) : List Row := p.fields.toList.map (Row.ofField p)

end Reader

open Reader

variable {p : Point} {field : String × FieldValue}

theorem read?_table (v : FieldValue) :
    Kind.read? ("series_".toList ++ (table v).toList) = some (.of v) := by
  cases v <;> simp only [table, Kind.of] <;> decide

theorem comma_not_mem_table (v : FieldValue) : ',' ∉ "series_".toList ++ (table v).toList := by
  cases v <;> simp only [table] <;> decide

theorem seriesChars_eq (p : Point) :
    seriesChars p = Table.cells p.name.toList (p.tags.toList.map Table.tagWord) := by
  simp [seriesChars, Table.cells, Table.tagWord, List.flatMap_map]

theorem Readable.isPlain_tagWord (h : Readable p) :
    ∀ w ∈ p.tags.toList.map Table.tagWord, Text.isPlain w = true := by
  intro w hw
  obtain ⟨tag, htag, rfl⟩ := List.mem_map.mp hw
  exact Table.isPlain_tagWord (h.tags tag htag).1.isPlain (h.tags tag htag).2.isPlain

/-- The series of a point is read back. -/
theorem series_seriesChars (h : Readable p) : series (seriesChars p) = (p.name, p.tags.toList) := by
  have htags : (p.tags.toList.map Table.tagWord).map Table.readTag = p.tags.toList := by
    rw [List.map_map]
    refine (List.map_congr_left ?_).trans (List.map_id _)
    intro tag htag
    exact Table.readTag_tagWord ((h.tags tag htag).1.not_mem rfl)
  rw [series, seriesChars_eq, Table.splitOn_cells h.name.isPlain h.isPlain_tagWord]
  simp only [htags, String.ofList_toList]

theorem sign_not_mem_seriesChars (h : Readable p) : '#' ∉ seriesChars p := by
  simp only [seriesChars, List.mem_append, List.mem_flatMap, List.mem_cons, not_or, not_exists,
    not_and]
  refine ⟨h.name.not_mem rfl, ?_⟩
  intro tag htag
  exact ⟨by decide, (h.tags tag htag).1.not_mem rfl, by decide, (h.tags tag htag).2.not_mem rfl⟩

theorem day?_date (h : p.time.Fits) : day? p.time.date.chars = some p.time.date := by
  have hread := Rfc3339.date_chars p.time.isValid_date h.year_mem.1 h.year_mem.2 []
  rw [List.append_nil] at hread
  rw [day?, hread]

/-- The line of a field, without the newline. -/
def line (p : Point) (field : String × FieldValue) : List Char :=
  ("series_".toList ++ (table field.2).toList) ++ ',' :: (seriesChars p ++ '#' ::
    (field.1.toList ++ '#' :: (p.time.date.chars ++ ',' :: ((Int.repr p.nanos).toList
      ++ ',' :: field.2.text.toList))))

theorem rowChars_eq_line (p : Point) (field : String × FieldValue) (cs : List Char) :
    rowChars p field ++ cs = line p field ++ '\n' :: cs := by
  unfold rowChars line
  -- the text of the day is kept from being computed
  generalize p.time.date.chars = day
  simp

/-- The line of a field is read back. -/
theorem row?_line (h : Readable p) (hfield : field ∈ p.fields.toList) :
    row? (line p field) = some (Row.ofField p field) := by
  have hkey : '#' ∉ field.1.toList := (h.fields field hfield).1.not_mem rfl
  have hday : ',' ∉ p.time.date.chars := Date.not_mem_chars (by decide) (by decide) _
  have hnanos : ',' ∉ (Int.repr p.nanos).toList := Text.comma_of_isPlain (Text.isPlain_intRepr _)
  have hread : day? p.time.date.chars = some (.ofEpochDay (p.nanos / nanosPerDay)) :=
    (day?_date h.time).trans (congrArg some h.time.date_eq)
  unfold row? line
  -- the text of the day is kept from being computed
  generalize p.time.date.chars = day at hday hread ⊢
  simp only [bind, Option.bind, pure, cut?_append (comma_not_mem_table _), read?_table,
    cut?_append (sign_not_mem_seriesChars h), cut?_append hkey, cut?_append hday,
    cut?_append hnanos, series_seriesChars h, hread, Text.stamp?_nanos, String.ofList_toList]
  rfl

theorem newline_not_mem_line (h : Readable p) (hfield : field ∈ p.fields.toList) :
    '\n' ∉ line p field := by
  obtain ⟨hkey, htext⟩ := h.fields field hfield
  have htable : ∀ v, '\n' ∉ (table v).toList := by
    intro v
    cases v <;> simp only [table] <;> decide
  have hseries : '\n' ∉ seriesChars p := by
    rw [seriesChars_eq]
    exact Table.newline_not_mem_cells h.name.isPlain h.isPlain_tagWord
  have hkey : '\n' ∉ field.1.toList := hkey.not_mem rfl
  have hday : '\n' ∉ p.time.date.chars := Date.not_mem_chars (by decide) (by decide) _
  have hnanos := Text.newline_of_isPlain (Text.isPlain_intRepr p.nanos)
  unfold line
  generalize p.time.date.chars = day at hday
  simp [htable, hseries, hkey, hday, hnanos, htext]

/-- Fields of a point are read back, with any lines behind them. -/
theorem rows?_rowChars (h : Readable p) {fields : List (String × FieldValue)}
    (hfields : ∀ field ∈ fields, field ∈ p.fields.toList) {cs : List Char} {rows : List Row}
    (hcs : rows? (cs.splitOn '\n') = some rows) :
    rows? ((fields.flatMap (rowChars p) ++ cs).splitOn '\n') =
      some (fields.map (Row.ofField p) ++ rows) := by
  induction fields with
  | nil => exact hcs
  | cons field rest ih =>
    obtain ⟨hfield, hrest⟩ := List.forall_mem_cons.mp hfields
    rw [List.flatMap_cons, List.append_assoc, rowChars_eq_line,
      List.splitOn_append_cons_self_of_not_mem (newline_not_mem_line h hfield), rows?]
    · simp only [row?_line h hfield, ih hrest, bind, Option.bind, pure, List.map_cons,
        List.cons_append]
    · intro _
      exact List.splitOn_ne_nil _ _

/-- The rows of points are read back, one point after the other. -/
theorem rows?_chars {points : List Point} (h : ∀ p ∈ points, Readable p) :
    rows? ((points.flatMap chars).splitOn '\n') = some (points.flatMap Row.ofPoint) := by
  induction points with
  | nil => rfl
  | cons p rest ih =>
    obtain ⟨hp, hrest⟩ := List.forall_mem_cons.mp h
    rw [List.flatMap_cons, List.flatMap_cons, chars, Row.ofPoint]
    exact rows?_rowChars hp (fun field hfield => hfield) (ih hrest)

end SeriesRow

end SeriesLoad
