import SeriesLoad.Point

/-!
# Points that are filled and emptied

A point is changed by edits, and by resets between them. It holds what the edits since the last
reset have put into it (`Point.holds_run`), as if there had been nothing before.

`PointColumns` is a buffer in which the keys of tags and their values, and those of fields, stand in
four columns. A lookup finds the first place of a key in one column and reads the other column at
this place, so that it fails if that column is shorter. **No sequence of edits and resets makes it
fail: the columns stay aligned, show the pairs of the point in their order and find the first of
them with a key** (`columns_follow_calls`). A buffer is the columns of the point at every time
(`PointColumns.run_eq`), because it is so at first and every call keeps it.
-/

namespace SeriesLoad

/-! ## Edits of a point -/

/-- What a step may do to a point. -/
inductive PointEdit where
  | setName (name : String)
  | setTime (t : Instant)
  | addTag (key value : String)
  | addField (key : String) (value : FieldValue)

namespace PointEdit

/-- Makes the edit. -/
def apply (p : Point) : PointEdit → Point
  | setName name => p.setName name
  | setTime t => p.setTimestamp t
  | addTag key value => p.addTag key value
  | addField key value => p.addField key value

/-- The name that is set. -/
@[simp] def name? : PointEdit → Option String
  | setName name => some name
  | _ => none

/-- The time that is set. -/
@[simp] def time? : PointEdit → Option Instant
  | setTime t => some t
  | _ => none

/-- The tag that is added. -/
@[simp] def tag? : PointEdit → Option (String × String)
  | addTag key value => some (key, value)
  | _ => none

/-- The field that is added. -/
@[simp] def field? : PointEdit → Option (String × FieldValue)
  | addField key value => some (key, value)
  | _ => none

end PointEdit

namespace Point

/-- Makes edits, in order. -/
def edit (p : Point) (edits : List PointEdit) : Point := edits.foldl PointEdit.apply p

theorem edit_append (p : Point) (edits more : List PointEdit) :
    p.edit (edits ++ more) = (p.edit edits).edit more := List.foldl_append ..

/-- Of names and times the last one counts; tags and fields are added one behind the other. -/
theorem edit_eq (p : Point) (edits : List PointEdit) :
    p.edit edits =
      { name := (edits.filterMap PointEdit.name?).getLastD p.name
        timestamp := (edits.filterMap PointEdit.time?).getLast?.or p.timestamp
        tags := p.tags ++ (edits.filterMap PointEdit.tag?).toArray
        fields := p.fields ++ (edits.filterMap PointEdit.field?).toArray } := by
  induction edits generalizing p with
  | nil => simp [edit]
  | cons e rest ih =>
    have hrest : p.edit (e :: rest) = (e.apply p).edit rest := rfl
    rw [hrest, ih]
    simp only [List.filterMap_cons]
    cases e with
    | setName name => simp [PointEdit.apply, setName, List.getLast?_cons]
    | setTime t =>
      cases hlast : (rest.filterMap PointEdit.time?).getLast? <;>
        simp [PointEdit.apply, setTimestamp, List.getLast?_cons, hlast]
    | addTag key value => simp [PointEdit.apply, addTag]
    | addField key value => simp [PointEdit.apply, addField]

/-- In a point there is what the edits put into it, and nothing else. -/
structure Holds (p : Point) (edits : List PointEdit) : Prop where
  name : p.name = (edits.filterMap PointEdit.name?).getLastD ""
  timestamp : p.timestamp = (edits.filterMap PointEdit.time?).getLast?
  tags : p.tags.toList = edits.filterMap PointEdit.tag?
  fields : p.fields.toList = edits.filterMap PointEdit.field?

theorem holds_edit (edits : List PointEdit) : (Point.empty.edit edits).Holds edits := by
  rw [edit_eq]
  constructor <;> simp [Point.empty]

end Point

/-! ## Edits and resets -/

/-- A change to a buffer. -/
inductive PointCall where
  | edit (e : PointEdit)
  | reset

/-- The edits since the last reset, with the given ones before all calls. -/
def PointCall.sinceReset (edits : List PointEdit) : List PointCall → List PointEdit
  | [] => edits
  | edit e :: rest => sinceReset (edits ++ [e]) rest
  | reset :: rest => sinceReset [] rest

namespace Point

/-- Makes the call. -/
def call (p : Point) : PointCall → Point
  | .edit e => e.apply p
  | .reset => p.reset

/-- Makes calls, in order. -/
def run (p : Point) (calls : List PointCall) : Point := calls.foldl call p

theorem run_edit (edits : List PointEdit) (calls : List PointCall) :
    (empty.edit edits).run calls = empty.edit (PointCall.sinceReset edits calls) := by
  induction calls generalizing edits with
  | nil => rfl
  | cons c rest ih =>
    cases c with
    | edit e =>
      have hstep : (empty.edit edits).call (.edit e) = empty.edit (edits ++ [e]) := by
        rw [edit_append]
        rfl
      rw [run, List.foldl_cons, hstep]
      exact ih _
    | reset => exact ih []

/-- A point holds the edits since the last reset. -/
theorem holds_run (calls : List PointCall) :
    (empty.run calls).Holds (PointCall.sinceReset [] calls) := by
  have hrun : empty.run calls = empty.edit (PointCall.sinceReset [] calls) := run_edit [] calls
  rw [hrun]
  exact holds_edit _

/-- What was before a reset makes no difference. -/
theorem run_reset (p : Point) (calls more : List PointCall) :
    p.run (calls ++ .reset :: more) = empty.run more := by
  rw [run, List.foldl_append, List.foldl_cons]
  rfl

theorem isEmpty_iff {p : Point} : p.isEmpty = true ↔ p = empty := by
  cases p
  simp [isEmpty, empty, and_assoc]

/-- The values of an empty point are none, so it agrees with another one just if that is empty. -/
theorem agrees_empty (p : Point) : p.agrees empty = p.isEmpty := by
  rw [Bool.eq_iff_iff, isEmpty_iff]
  cases p
  simp only [agrees, empty, Bool.and_eq_true, beq_iff_eq, mk.injEq, and_assoc]
  refine and_congr_right fun _ => and_congr_right fun _ => and_congr_right fun _ => ?_
  constructor
  · exact fun h => Array.eq_empty_of_size_eq_zero h.1
  · rintro rfl
    simp

end Point

/-! ## Pairs with a key -/

/-- The value stands in the first pair that has the key. -/
def IsFirstValue {α : Type} (pairs : List (String × α)) (key : String) (value : α) : Prop :=
  ∃ before after, pairs = before ++ (key, value) :: after ∧ key ∉ before.map (·.1)

section Pairs

variable {α : Type} {pairs : List (String × α)} {key : String}

theorem find?_key_eq_some_iff {value : α} :
    (pairs.find? fun pair => pair.1 == key).map (·.2) = some value
      ↔ IsFirstValue pairs key value := by
  simp only [Option.map_eq_some_iff, List.find?_eq_some_iff_append, IsFirstValue, beq_iff_eq,
    List.mem_map, not_exists, not_and]
  constructor
  · rintro ⟨⟨_, _⟩, ⟨rfl, before, after, hpairs, hbefore⟩, rfl⟩
    exact ⟨before, after, hpairs, fun pair hpair hkey => by simpa [hkey] using hbefore pair hpair⟩
  · rintro ⟨before, after, hpairs, hbefore⟩
    exact ⟨(key, value), ⟨rfl, before, after, hpairs, fun pair hpair => by
      simpa using hbefore pair hpair⟩, rfl⟩

theorem find?_key_eq_none_iff :
    (pairs.find? fun pair => pair.1 == key).map (·.2) = none ↔ key ∉ pairs.map (·.1) := by
  simp only [Option.map_eq_none_iff, List.find?_eq_none, beq_iff_eq, List.mem_map, not_exists,
    not_and]

end Pairs

/-! ## Columns -/

/-- A lookup that ends behind the values of its column. -/
structure OutOfColumn where
  place : Nat
deriving DecidableEq, Repr

/-- A buffer with the keys and the values of its pairs in columns of their own. -/
structure PointColumns where
  name : String := ""
  timestamp : Option Instant := none
  tagKeys : Array String := #[]
  tagValues : Array String := #[]
  fieldKeys : Array String := #[]
  fieldValues : Array FieldValue := #[]
deriving DecidableEq

namespace PointColumns

/-- The buffer with nothing in it. -/
def new : PointColumns where

/-- Makes the edit. -/
def apply (c : PointColumns) : PointEdit → PointColumns
  | .setName name => { c with name }
  | .setTime t => { c with timestamp := some t }
  | .addTag key value =>
    { c with tagKeys := c.tagKeys.push key, tagValues := c.tagValues.push value }
  | .addField key value =>
    { c with fieldKeys := c.fieldKeys.push key, fieldValues := c.fieldValues.push value }

/-- Clears every column. -/
def reset (c : PointColumns) : PointColumns :=
  { c with
    name := "", timestamp := none
    tagKeys := #[], tagValues := #[], fieldKeys := #[], fieldValues := #[] }

/-- Makes the call. -/
def call (c : PointColumns) : PointCall → PointColumns
  | .edit e => c.apply e
  | .reset => c.reset

/-- Makes calls, in order. -/
def run (c : PointColumns) (calls : List PointCall) : PointColumns := calls.foldl call c

/-- The tags, as far as both columns reach. -/
def tags (c : PointColumns) : List (String × String) := c.tagKeys.toList.zip c.tagValues.toList

/-- The fields, as far as both columns reach. -/
def fields (c : PointColumns) : List (String × FieldValue) :=
  c.fieldKeys.toList.zip c.fieldValues.toList

/-- The value at the first place of a key. -/
def lookup {α : Type} (keys : Array String) (values : Array α) (key : String) :
    Except OutOfColumn (Option α) :=
  match keys.findIdx? (· == key) with
  | none => .ok none
  | some place =>
    match values[place]? with
    | some value => .ok (some value)
    | none => .error ⟨place⟩

/-- The value of the first tag with a key. -/
def tag? (c : PointColumns) (key : String) : Except OutOfColumn (Option String) :=
  lookup c.tagKeys c.tagValues key

/-- The value of the first field with a key. -/
def field? (c : PointColumns) (key : String) : Except OutOfColumn (Option FieldValue) :=
  lookup c.fieldKeys c.fieldValues key

/-- Whether there is no name, no time and no key. -/
def isEmpty (c : PointColumns) : Bool :=
  c.name.isEmpty && c.timestamp.isNone && c.tagKeys.isEmpty && c.fieldKeys.isEmpty

/-- Every key has a value beside it. -/
structure Aligned (c : PointColumns) : Prop where
  tags : c.tagKeys.size = c.tagValues.size
  fields : c.fieldKeys.size = c.fieldValues.size

/-- The columns of a point. -/
def ofPoint (p : Point) : PointColumns where
  name := p.name
  timestamp := p.timestamp
  tagKeys := p.tags.map (·.1)
  tagValues := p.tags.map (·.2)
  fieldKeys := p.fields.map (·.1)
  fieldValues := p.fields.map (·.2)

/-- A call does to the columns of a point what it does to the point. -/
theorem call_ofPoint (p : Point) (c : PointCall) : (ofPoint p).call c = ofPoint (p.call c) := by
  cases c with
  | reset => simp [call, reset, ofPoint, Point.call, Point.reset]
  | edit e =>
    cases e <;>
      simp [call, apply, ofPoint, Point.call, PointEdit.apply, Point.setName, Point.setTimestamp,
        Point.addTag, Point.addField]

theorem run_ofPoint (p : Point) (calls : List PointCall) :
    (ofPoint p).run calls = ofPoint (p.run calls) := by
  induction calls generalizing p with
  | nil => rfl
  | cons c rest ih => rw [run, List.foldl_cons, call_ofPoint]; exact ih _

theorem ofPoint_empty : ofPoint .empty = new := by simp [new, ofPoint, Point.empty]

/-- A buffer is the columns of the point that was made by the same calls. -/
theorem run_eq (calls : List PointCall) : new.run calls = ofPoint (Point.empty.run calls) := by
  rw [← ofPoint_empty, run_ofPoint]

/-! ## What the columns of a point show -/

theorem aligned_ofPoint (p : Point) : (ofPoint p).Aligned := ⟨by simp [ofPoint], by simp [ofPoint]⟩

theorem tags_ofPoint (p : Point) : (ofPoint p).tags = p.tags.toList := by
  simp [tags, ofPoint, List.zip_map']

theorem fields_ofPoint (p : Point) : (ofPoint p).fields = p.fields.toList := by
  simp [fields, ofPoint, List.zip_map']

/-- In columns that are made of pairs a lookup finds the first pair with the key. -/
theorem lookup_map {α : Type} (pairs : Array (String × α)) (key : String) :
    lookup (pairs.map (·.1)) (pairs.map (·.2)) key =
      .ok ((pairs.find? fun pair => pair.1 == key).map (·.2)) := by
  rw [lookup, Array.findIdx?_map]
  cases hplace : pairs.findIdx? ((· == key) ∘ (·.1)) with
  | none =>
    have hnone : pairs.find? (fun pair => pair.1 == key) = none :=
      Array.find?_eq_none.mpr fun pair hpair => by
        simpa using Array.findIdx?_eq_none_iff.mp hplace pair hpair
    rw [hnone]
    rfl
  | some place =>
    obtain ⟨hlt, hkey, hbefore⟩ := Array.findIdx?_eq_some_iff_getElem.mp hplace
    have hfirst : pairs.find? (fun pair => pair.1 == key) = some pairs[place] :=
      Array.find?_eq_some_iff_getElem.mpr ⟨hkey, place, hlt, rfl, fun i hi => by
        simpa using hbefore i hi⟩
    rw [hfirst]
    simp [hlt]

theorem isEmpty_ofPoint (p : Point) : (ofPoint p).isEmpty = p.isEmpty := by
  simp [isEmpty, ofPoint, Point.isEmpty, Array.isEmpty, Array.size_map]

theorem ofPoint_eq_new_iff {p : Point} : ofPoint p = new ↔ p = .empty := by
  rw [← ofPoint_empty]
  refine ⟨fun h => ?_, fun h => by rw [h]⟩
  rw [← Point.isEmpty_iff, ← isEmpty_ofPoint, h, isEmpty_ofPoint, Point.isEmpty_iff]

/-- A buffer and a point show the same, and it is what these edits put into a new one. -/
structure Shows (c : PointColumns) (p : Point) (edits : List PointEdit) : Prop where
  aligned : c.Aligned
  name : c.name = (edits.filterMap PointEdit.name?).getLastD "" ∧ p.name = c.name
  timestamp : c.timestamp = (edits.filterMap PointEdit.time?).getLast? ∧ p.timestamp = c.timestamp
  tags : c.tags = edits.filterMap PointEdit.tag? ∧ p.tags.toList = c.tags
  fields : c.fields = edits.filterMap PointEdit.field? ∧ p.fields.toList = c.fields
  tag? : ∀ key, c.tag? key = .ok (p.tag? key)
  tag?_eq_some_iff : ∀ key value, p.tag? key = some value ↔
    IsFirstValue (edits.filterMap PointEdit.tag?) key value
  tag?_eq_none_iff : ∀ key, p.tag? key = none ↔
    key ∉ (edits.filterMap PointEdit.tag?).map (·.1)
  field? : ∀ key, c.field? key = .ok (p.field? key)
  field?_eq_some_iff : ∀ key value, p.field? key = some value ↔
    IsFirstValue (edits.filterMap PointEdit.field?) key value
  field?_eq_none_iff : ∀ key, p.field? key = none ↔
    key ∉ (edits.filterMap PointEdit.field?).map (·.1)
  isEmpty_iff : (c.isEmpty = true ↔ c = .new) ∧ (p.isEmpty = true ↔ p = .empty)
  agrees_empty : p.agrees .empty = c.isEmpty

theorem shows_ofPoint {p : Point} {edits : List PointEdit} (h : p.Holds edits) :
    (ofPoint p).Shows p edits where
  aligned := aligned_ofPoint p
  name := ⟨h.name, rfl⟩
  timestamp := ⟨h.timestamp, rfl⟩
  tags := ⟨(tags_ofPoint p).trans h.tags, (tags_ofPoint p).symm⟩
  fields := ⟨(fields_ofPoint p).trans h.fields, (fields_ofPoint p).symm⟩
  tag? key := lookup_map p.tags key
  tag?_eq_some_iff key value := by
    rw [Point.tag?, ← Array.find?_toList, h.tags, find?_key_eq_some_iff]
  tag?_eq_none_iff key := by
    rw [Point.tag?, ← Array.find?_toList, h.tags, find?_key_eq_none_iff]
  field? key := lookup_map p.fields key
  field?_eq_some_iff key value := by
    rw [Point.field?, ← Array.find?_toList, h.fields, find?_key_eq_some_iff]
  field?_eq_none_iff key := by
    rw [Point.field?, ← Array.find?_toList, h.fields, find?_key_eq_none_iff]
  isEmpty_iff := by
    rw [isEmpty_ofPoint, ofPoint_eq_new_iff]
    exact ⟨Point.isEmpty_iff, Point.isEmpty_iff⟩
  agrees_empty := by rw [Point.agrees_empty, isEmpty_ofPoint]

/-- Whatever the calls were, the columns of a buffer are aligned, so that no lookup fails, and show
just what the edits since the last reset have put there: the pairs in the order of the edits, and by
a key the first of them. It is empty just if it equals a new one. With a reset nothing is left of
the calls before it. All this is so for the point as well. -/
theorem columns_follow_calls (calls : List PointCall) :
    (new.run calls).Shows (Point.empty.run calls) (PointCall.sinceReset [] calls)
      ∧ ∀ more, new.run (calls ++ .reset :: more) = new.run more
        ∧ Point.empty.run (calls ++ .reset :: more) = Point.empty.run more := by
  constructor
  · rw [run_eq]
    exact shows_ofPoint (Point.holds_run calls)
  · intro more
    rw [run_eq, run_eq, Point.run_reset]
    exact ⟨rfl, rfl⟩

end PointColumns

end SeriesLoad
