import SeriesLoad.Host

/-!
# Schemas

A `Schema` lists the fields of each measurement. `Schema.preamble` writes it ahead of the records
of a format that does not repeat field names: the tag keys, a line for each measurement in the order
of the names, and an empty line.
-/

namespace SeriesLoad

/-- The fields of measurements, by measurement. -/
abbrev Schema := List (String × List String)

namespace Schema

/-- Sets the fields of a measurement. -/
def insert (name : String) (keys : List String) : Schema → Schema
  | [] => [(name, keys)]
  | (n, ks) :: rest => if n = name then (name, keys) :: rest else (n, ks) :: insert name keys rest

/-- The schema with the given entries, of which a later one replaces an earlier one. -/
def ofEntries (entries : List (String × List String)) : Schema :=
  entries.foldl (fun s entry => s.insert entry.1 entry.2) []

/-- The measurements in the order of their names. -/
def sorted (s : Schema) : Schema := s.mergeSort fun a b => decide (a.1 ≤ b.1)

/-- A line that starts with a word and goes on with others, commas between them. -/
def line (first : String) (rest : List String) : List Char :=
  first.toList ++ rest.flatMap (fun word => ',' :: word.toList) ++ ['\n']

/-- The characters of the preamble. -/
def preambleChars (s : Schema) : List Char :=
  line "tags" HostTags.keys ++ s.sorted.flatMap (fun entry => line entry.1 entry.2) ++ ['\n']

/-- The text ahead of the records. -/
def preamble (s : Schema) : String := String.ofList s.preambleChars

end Schema

/-- The fields that a host reports. -/
def Host.schema (h : Host) : Schema :=
  Schema.ofEntries (h.measurements.map fun m => (m.name, m.keys))

end SeriesLoad
