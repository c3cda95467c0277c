import SeriesLoad.Powers

/-!
# Faults

A `Fault` ends a run at once. Nothing that was asked for can be answered: a calculation has left
the range of its numbers, a count is larger than any memory, or a setting that callers check
beforehand makes no sense.
-/

namespace SeriesLoad

/-- Why a computation cannot go on. -/
inductive Fault where
  /-- An instant is outside the range of instants. -/
  | instantRange
  /-- A span is outside the range of spans. -/
  | spanRange
  /-- A count is outside the range of counts. -/
  | countRange
  /-- More things are to be held at once than memory can have. -/
  | noRoom
  /-- There is nothing to draw from: a range is empty or has no finite width. -/
  | emptyRange
  /-- All numbers of a range are to be drawn, of one that is too wide to be listed. -/
  | fullSample
  /-- The records are to be dealt to no groups at all. -/
  | noGroups
deriving DecidableEq, Repr

/-- The words for a fault. -/
def Fault.message : Fault → String
  | .instantRange => "an instant is out of range"
  | .spanRange => "a span of time is out of range"
  | .countRange => "a count is out of range"
  | .noRoom => "there is no room for so much"
  | .emptyRange => "there is nothing to draw from"
  | .fullSample => "the whole of so wide a range cannot be drawn"
  | .noGroups => "there are no groups"

/-- How many things can be held at once: memory has less than `2 ^ 63` bytes, and `2 ^ 9` of them
are enough for one thing. -/
def roomLimit : Nat := 2 ^ 54

/-- Makes sure that so many things can be held at once. -/
def requireRoom (count : Nat) : Except Fault Unit :=
  if count ≤ roomLimit then .ok () else .error .noRoom

end SeriesLoad
