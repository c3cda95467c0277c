import SeriesLoad.Value
import SeriesLoad.Time.Instant

/-!
# Points

A `Point` is one sample of a series: a measurement name, a timestamp, tags and fields. Tags and
fields keep the order in which they were added, and a key may occur more than once; a lookup finds
the first pair with its key. `Point.reset` empties a point, so that one buffer can hold many
samples one after the other.
-/

namespace SeriesLoad

/-- One sample of a series. -/
structure Point where
  name : String := ""
  timestamp : Option Instant := none
  tags : Array (String × String) := #[]
  fields : Array (String × FieldValue) := #[]
deriving DecidableEq

namespace Point

/-- The point with nothing in it. -/
def empty : Point where

/-- Removes everything from a point. -/
def reset (p : Point) : Point :=
  { p with name := "", timestamp := none, tags := #[], fields := #[] }

/-- Names the measurement. -/
def setName (p : Point) (name : String) : Point := { p with name }

/-- Sets the time of the sample. -/
def setTimestamp (p : Point) (t : Instant) : Point := { p with timestamp := some t }

/-- Adds a tag behind those already there. -/
def addTag (p : Point) (key value : String) : Point := { p with tags := p.tags.push (key, value) }

/-- Adds a field behind those already there. -/
def addField (p : Point) (key : String) (value : FieldValue) : Point :=
  { p with fields := p.fields.push (key, value) }

/-- The time of the sample, the start of 1970 if none was set. -/
def time (p : Point) : Instant := p.timestamp.getD .epoch

/-- The time of the sample in nanoseconds since 1970. -/
def nanos (p : Point) : Int := p.time.unixNanos

/-- The value of the first tag with a key. -/
def tag? (p : Point) (key : String) : Option String :=
  (p.tags.find? fun pair => pair.1 == key).map (·.2)

/-- The value of the first field with a key. -/
def field? (p : Point) (key : String) : Option FieldValue :=
  (p.fields.find? fun pair => pair.1 == key).map (·.2)

/-- Whether there is no name, time, tag or field. -/
def isEmpty (p : Point) : Bool :=
  p.name.isEmpty && p.timestamp.isNone && p.tags.isEmpty && p.fields.isEmpty

/-- Equality up to numeric equality of the field values. -/
def agrees (p q : Point) : Bool :=
  p.name == q.name && p.timestamp == q.timestamp && p.tags == q.tags
    && p.fields.size == q.fields.size
    && (p.fields.zip q.fields).all fun (a, b) => a.1 == b.1 && a.2.agrees b.2

/-! ## What each operation does to a point -/

theorem reset_eq_empty (p : Point) : p.reset = empty := rfl

@[simp] theorem toList_tags_addTag (p : Point) (k v : String) :
    (p.addTag k v).tags.toList = p.tags.toList ++ [(k, v)] := by simp [addTag]

@[simp] theorem toList_fields_addField (p : Point) (k : String) (v : FieldValue) :
    (p.addField k v).fields.toList = p.fields.toList ++ [(k, v)] := by simp [addField]

end Point

end SeriesLoad
