/-!
# Bulk-load formats

The formats that points can be written in, and the engines that queries can be phrased for, with
their names.
-/

namespace SeriesLoad

/-- A bulk-load format, and the engine that loads it. -/
inductive Format where
  | cassandra
  | influx
  | mongo
  | timescaledb
deriving DecidableEq, Repr

namespace Format

/-- All formats, by name. -/
def all : List Format := [.cassandra, .influx, .mongo, .timescaledb]

/-- The name of a format. -/
def name : Format → String
  | .cassandra => "cassandra"
  | .influx => "influx"
  | .mongo => "mongo"
  | .timescaledb => "timescaledb"

/-- The format of a name. -/
def ofName? (s : String) : Option Format := all.find? fun f => f.name == s

/-- Whether the columns have to be listed before the first record. -/
def needsPreamble : Format → Bool
  | .timescaledb => true
  | _ => false

/-- What is said of a name that no format has. -/
def unknownMessage (s : String) : String :=
  "invalid format specifier: " ++ s ++ " (valid choices: "
    ++ String.intercalate ", " (all.map name) ++ ")"

end Format

end SeriesLoad
