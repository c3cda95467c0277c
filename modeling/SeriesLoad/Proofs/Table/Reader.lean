import SeriesLoad.Encoding.TagRow
import SeriesLoad.Proofs.Text.Plain
import SeriesLoad.Proofs.Time.Arithmetic
import SeriesLoad.Schema

/-!
# Reading a table back

`Table.read?` reads the output of the format of tag and field rows knowing nothing but its layout:
it splits lines at newlines and cells at commas, takes the tag keys and the columns from the
preamble, and then two lines for each record. It refuses a tags row with other keys than those of
the preamble, a row of a measurement that the preamble does not name, and a row with more or fewer
values than that measurement has columns.

**What was written is read back** (`read?_chars`), as long as no word has a comma or a newline in
it, and every point has the tag keys of the preamble and fields of one of its measurements.
-/

namespace SeriesLoad

/-! ## Words and rows -/

namespace Table

/-- Cells with commas between them. -/
def cells (first : List Char) (rest : List (List Char)) : List Char :=
  first ++ rest.flatMap (',' :: ·)

theorem splitOn_cells {first : List Char} {rest : List (List Char)}
    (hfirst : Text.isPlain first = true) (hrest : ∀ w ∈ rest, Text.isPlain w = true) :
    (cells first rest).splitOn ',' = first :: rest := by
  induction rest generalizing first with
  | nil =>
    rw [cells, List.flatMap_nil, List.append_nil,
      List.splitOn_eq_singleton (Text.comma_of_isPlain hfirst)]
  | cons w rest ih =>
    obtain ⟨hw, hrest⟩ := List.forall_mem_cons.mp hrest
    have hcells : cells first (w :: rest) = first ++ ',' :: cells w rest := by simp [cells]
    rw [hcells, List.splitOn_append_cons_self_of_not_mem (Text.comma_of_isPlain hfirst),
      ih hw hrest]

theorem newline_not_mem_cells {first : List Char} {rest : List (List Char)}
    (hfirst : Text.isPlain first = true) (hrest : ∀ w ∈ rest, Text.isPlain w = true) :
    '\n' ∉ cells first rest := by
  simp only [cells, List.mem_append, List.mem_flatMap, List.mem_cons, not_or, not_exists, not_and]
  exact ⟨Text.newline_of_isPlain hfirst,
    fun w hw => ⟨by decide, Text.newline_of_isPlain (hrest w hw)⟩⟩

/-- The cells of the lines of a text. -/
def grid (cs : List Char) : List (List (List Char)) := (cs.splitOn '\n').map (·.splitOn ',')

/-- A line is taken apart on its own. -/
theorem grid_append {line : List Char} (hline : '\n' ∉ line) (cs : List Char) :
    grid (line ++ '\n' :: cs) = line.splitOn ',' :: grid cs := by
  rw [grid, List.splitOn_append_cons_self_of_not_mem hline, List.map_cons, grid]

theorem grid_line {first : List Char} {rest : List (List Char)}
    (hfirst : Text.isPlain first = true) (hrest : ∀ w ∈ rest, Text.isPlain w = true)
    (cs : List Char) : grid (cells first rest ++ '\n' :: cs) = (first :: rest) :: grid cs := by
  rw [grid_append (newline_not_mem_cells hfirst hrest), splitOn_cells hfirst hrest]

theorem grid_blank (cs : List Char) : grid ('\n' :: cs) = [[]] :: grid cs :=
  @grid_line [] [] rfl (by simp) cs

/-! ## The reader -/

/-- One record of a table. -/
structure Row where
  tags : List (String × String)
  name : String
  nanos : Int
  /-- The columns of the measurement with their values, as texts. -/
  fields : List (String × String)
deriving DecidableEq, Repr

end Table

/-- What a reader makes of a table. -/
structure Table where
  tagKeys : List String
  columns : Schema
  rows : List Table.Row

namespace Table

/-- The columns of measurements, up to the blank line, and what comes after it. -/
def readColumns? : List (List (List Char)) → Option (Schema × List (List (List Char)))
  | [[]] :: rest => some ([], rest)
  | (name :: fields) :: rest =>
    (readColumns? rest).map fun (columns, rest) =>
      ((String.ofList name, fields.map String.ofList) :: columns, rest)
  | _ => none

/-- A key and a value, with an equals sign between them. -/
def readTag (cs : List Char) : String × String :=
  (String.ofList (cs.takeWhile (· != '=')), String.ofList ((cs.dropWhile (· != '=')).drop 1))

/-- A tags row, which has to have the given keys. -/
def readTags? (keys : List String) : List (List Char) → Option (List (String × String))
  | word :: pairs =>
    let tags := pairs.map readTag
    if word = "tags".toList ∧ tags.map (·.1) = keys then some tags else none
  | [] => none

/-- A field row, which has to have as many values as its measurement has columns. -/
def readFields? (columns : Schema) (tags : List (String × String)) :
    List (List Char) → Option Row
  | name :: nanos :: values =>
    match columns.lookup (String.ofList name), Text.Integer.read Text.Integer.signed nanos with
    | some keys, .ok nanos =>
      if values.length = keys.length then
        some ⟨tags, String.ofList name, nanos, keys.zip (values.map String.ofList)⟩
      else none
    | _, _ => none
  | _ => none

/-- Records, two lines each, up to the end of the last line. -/
def readRows? (keys : List String) (columns : Schema) :
    List (List (List Char)) → Option (List Row)
  | [[[]]] => some []
  | tags :: fields :: rest => do
    let tags ← readTags? keys tags
    let row ← readFields? columns tags fields
    let rows ← readRows? keys columns rest
    return row :: rows
  | _ => none

/-- Reads a text as a table. -/
def read? (cs : List Char) : Option Table :=
  match grid cs with
  | (word :: keys) :: rest =>
    if word = "tags".toList then do
      let tagKeys := keys.map String.ofList
      let (columns, rest) ← readColumns? rest
      let rows ← readRows? tagKeys columns rest
      return ⟨tagKeys, columns, rows⟩
    else none
  | _ => none

/-! ## The way back -/

/-- The record of a point. -/
def Row.ofPoint (p : Point) : Row where
  tags := p.tags.toList
  name := p.name
  nanos := p.nanos
  fields := p.fields.toList.map fun field => (field.1, field.2.text)

/-- The point fits under a preamble: it has its tag keys, and the fields of one of its measurements,
and all its words are plain. -/
structure Fits (keys : List String) (columns : Schema) (p : Point) : Prop where
  keys : p.tags.toList.map (·.1) = keys
  column : columns.lookup p.name = some (p.fields.toList.map (·.1))
  name : Text.isPlain p.name.toList = true
  tags : ∀ tag ∈ p.tags.toList, Text.isPlain tag.1.toList = true ∧ '=' ∉ tag.1.toList
    ∧ Text.isPlain tag.2.toList = true
  values : ∀ field ∈ p.fields.toList, Text.isPlain field.2.text.toList = true

/-- The text of a tag. -/
def tagWord (tag : String × String) : List Char := tag.1.toList ++ '=' :: tag.2.toList

theorem readTag_tagWord {tag : String × String} (h : '=' ∉ tag.1.toList) :
    readTag (tagWord tag) = tag := by
  have hkey : ∀ c ∈ tag.1.toList, (c != '=') = true := by
    simpa using fun c hc => ne_of_mem_of_not_mem hc h
  have htake : (tagWord tag).takeWhile (· != '=') = tag.1.toList := by
    rw [tagWord, List.takeWhile_append_of_pos hkey]
    simp
  have hdrop : (tagWord tag).dropWhile (· != '=') = '=' :: tag.2.toList := by
    rw [tagWord, List.dropWhile_append_of_pos hkey]
    simp
  rw [readTag, htake, hdrop]
  simp

theorem tagsChars_eq (tags : List (String × String)) (cs : List Char) :
    TagRow.tagsChars tags ++ cs = cells "tags".toList (tags.map tagWord) ++ '\n' :: cs := by
  simp [TagRow.tagsChars, cells, tagWord, List.flatMap_map]

theorem fieldsChars_eq (p : Point) (cs : List Char) :
    TagRow.fieldsChars p ++ cs = cells p.name.toList ((Int.repr p.nanos).toList ::
      p.fields.toList.map fun f => f.2.text.toList) ++ '\n' :: cs := by
  simp [TagRow.fieldsChars, cells, List.flatMap_map]

theorem line_eq (first : String) (rest : List String) (cs : List Char) :
    Schema.line first rest ++ cs =
      cells first.toList (rest.map String.toList) ++ '\n' :: cs := by
  simp [Schema.line, cells, List.flatMap_map]

theorem readTags?_tags {keys : List String} {columns : Schema} {p : Point}
    (h : Fits keys columns p) :
    readTags? keys ("tags".toList :: p.tags.toList.map tagWord) = some p.tags.toList := by
  have htags : (p.tags.toList.map tagWord).map readTag = p.tags.toList := by
    calc (p.tags.toList.map tagWord).map readTag
        = p.tags.toList.map (readTag ∘ tagWord) := List.map_map
      _ = p.tags.toList.map id :=
        List.map_congr_left fun tag htag => readTag_tagWord (h.tags tag htag).2.1
      _ = p.tags.toList := List.map_id _
  simp only [readTags?, htags, h.keys, and_self, if_true]

theorem isPlain_tagWord {tag : String × String} (hkey : Text.isPlain tag.1.toList = true)
    (hvalue : Text.isPlain tag.2.toList = true) : Text.isPlain (tagWord tag) = true :=
  Text.isPlain_append.mpr ⟨hkey, Text.isPlain_cons.mpr ⟨by decide, hvalue⟩⟩

theorem read_nanos (p : Point) :
    Text.Integer.read Text.Integer.signed (Int.repr p.nanos).toList = .ok p.nanos :=
  Text.Integer.read_repr p.time.unixNanos_mem.1 p.time.unixNanos_mem.2

theorem readFields?_fields {keys : List String} {columns : Schema} {p : Point}
    (h : Fits keys columns p) :
    readFields? columns p.tags.toList (p.name.toList :: (Int.repr p.nanos).toList ::
      p.fields.toList.map fun f => f.2.text.toList) = some (Row.ofPoint p) := by
  simp only [readFields?, String.ofList_toList, h.column, read_nanos, List.length_map, if_true]
  simp [Row.ofPoint, List.map_map, List.zip_map']

/-- The two lines of a point that fits, taken apart. -/
theorem grid_chars {keys : List String} {columns : Schema} {p : Point} (h : Fits keys columns p)
    (cs : List Char) :
    grid (TagRow.chars p ++ cs) = ("tags".toList :: p.tags.toList.map tagWord) ::
      (p.name.toList :: (Int.repr p.nanos).toList ::
        p.fields.toList.map fun f => f.2.text.toList) :: grid cs := by
  have htags : ∀ w ∈ p.tags.toList.map tagWord, Text.isPlain w = true := by
    intro w hw
    obtain ⟨tag, htag, rfl⟩ := List.mem_map.mp hw
    obtain ⟨hkey, -, hvalue⟩ := h.tags tag htag
    exact isPlain_tagWord hkey hvalue
  have hfields : ∀ w ∈ (Int.repr p.nanos).toList ::
      p.fields.toList.map (fun f => f.2.text.toList), Text.isPlain w = true := by
    refine List.forall_mem_cons.mpr ⟨Text.isPlain_intRepr _, fun w hw => ?_⟩
    obtain ⟨field, hfield, rfl⟩ := List.mem_map.mp hw
    exact h.values field hfield
  rw [TagRow.chars, List.append_assoc, tagsChars_eq, grid_line (by decide) htags, fieldsChars_eq,
    grid_line h.name hfields]

/-- The records of points that fit are read back, one after the other. -/
theorem readRows?_chars {keys : List String} {columns : Schema} {points : List Point}
    (h : ∀ p ∈ points, Fits keys columns p) :
    readRows? keys columns (grid (points.flatMap TagRow.chars)) =
      some (points.map Row.ofPoint) := by
  induction points with
  | nil => rfl
  | cons p rest ih =>
    obtain ⟨hp, hrest⟩ := List.forall_mem_cons.mp h
    rw [List.flatMap_cons, grid_chars hp, readRows?]
    · simp only [readTags?_tags hp, readFields?_fields hp, ih hrest, bind, Option.bind, pure,
        List.map_cons]

/-- The lines of measurements are read back up to the blank line. -/
theorem readColumns?_lines {columns : Schema}
    (h : ∀ entry ∈ columns, entry.1 ≠ "" ∧ Text.isPlain entry.1.toList = true
      ∧ ∀ key ∈ entry.2, Text.isPlain key.toList = true) (cs : List Char) :
    readColumns? (grid (columns.flatMap (fun entry => Schema.line entry.1 entry.2) ++ '\n' :: cs)) =
      some (columns, grid cs) := by
  induction columns with
  | nil => rw [List.flatMap_nil, List.nil_append, grid_blank]; rfl
  | cons entry rest ih =>
    obtain ⟨⟨hne, hname, hkeys⟩, hrest⟩ := List.forall_mem_cons.mp h
    have hwords : ∀ w ∈ entry.2.map String.toList, Text.isPlain w = true := by
      intro w hw
      obtain ⟨key, hkey, rfl⟩ := List.mem_map.mp hw
      exact hkeys key hkey
    rw [List.flatMap_cons, List.append_assoc, line_eq, grid_line hname hwords, readColumns?]
    · rw [ih hrest]
      simp [List.map_map]
    · intro hnil
      exact absurd (String.toList_eq_nil_iff.mp hnil) hne

/-- What is written is read back. -/
theorem read?_chars {s : Schema} (hs : ∀ entry ∈ s, entry.1 ≠ ""
      ∧ Text.isPlain entry.1.toList = true ∧ ∀ key ∈ entry.2, Text.isPlain key.toList = true)
    {points : List Point} (hpoints : ∀ p ∈ points, Fits HostTags.keys s.sorted p) :
    read? (s.preambleChars ++ points.flatMap TagRow.chars) =
      some ⟨HostTags.keys, s.sorted, points.map Row.ofPoint⟩ := by
  have hsorted : ∀ entry ∈ s.sorted, entry.1 ≠ ""
      ∧ Text.isPlain entry.1.toList = true ∧ ∀ key ∈ entry.2, Text.isPlain key.toList = true :=
    fun entry hentry => hs entry (List.mem_mergeSort.mp hentry)
  have hkeys : ∀ w ∈ HostTags.keys.map String.toList, Text.isPlain w = true := by decide
  rw [read?, Schema.preambleChars, List.append_assoc, List.append_assoc, line_eq,
    grid_line (by decide) hkeys]
  simp only [List.singleton_append, if_true, readColumns?_lines hsorted]
  have hmap : (HostTags.keys.map String.toList).map String.ofList = HostTags.keys := by
    rw [List.map_map]
    exact (List.map_congr_left fun key _ => String.ofList_toList).trans (List.map_id _)
  simp only [bind, Option.bind, hmap, readRows?_chars hpoints, pure]

end Table

end SeriesLoad
