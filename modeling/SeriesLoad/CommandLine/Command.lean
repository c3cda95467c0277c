import SeriesLoad.CommandLine.Flag
import SeriesLoad.DataJob
import SeriesLoad.QueryJob
import SeriesLoad.Text.Terminal

/-!
# Commands

The program has two commands, one for each kind of job; their flags are the settings of the job.
`Command.read` takes the arguments of the program.
-/

namespace SeriesLoad.CommandLine

/-- What the program is for. -/
def purpose : String := "Generate time-series benchmark data and queries for several databases"

/-- A data job as it is asked for. -/
structure DataRequest where
  settings : DataSettings := {}
  /-- Where a memory profile is to be written. -/
  profile : Option String := none

/-- The flags of a data job. -/
def dataFlags : List (Flag DataRequest) :=
  [.text "format" fun v r => { r with settings.format := v },
   .text "use-case" fun v r => { r with settings.model := v },
   .long "initial-scale-var" fun n r => { r with settings.initial := n },
   .long "scale-var" fun n r => { r with settings.hosts := n },
   .text "timestamp-start" fun v r => { r with settings.start := v },
   .text "timestamp-end" fun v r => { r with settings.stop := v },
   .signed "seed" fun n r => { r with settings.seed := n },
   .text "log-interval" fun v r => { r with settings.interval := v },
   .short "interleaved-generation-group-id" fun n r => { r with settings.group := n },
   .short "interleaved-generation-groups" fun n r => { r with settings.groups := n },
   .path "profile-file" fun v r => { r with profile := some v }]

/-- The flags of a query job. -/
def queryFlags : List (Flag QuerySettings) :=
  [.text "format" fun v s => { s with format := v },
   .text "query-type" fun v s => { s with queryType := v },
   .long "scale-var" fun n s => { s with hosts := n },
   .long "queries" fun n s => { s with count := n },
   .signed "seed" fun n s => { s with seed := n },
   .text "db-name" fun v s => { s with database := v },
   .text "timestamp-start" fun v s => { s with start := v },
   .text "timestamp-end" fun v s => { s with stop := v }]

/-- What the program is asked to do. -/
inductive Command where
  | help
  | data (r : DataRequest)
  | queries (s : QuerySettings)

namespace Command

/-- The name of the command for data jobs. -/
def dataName : String := "generate-data"

/-- The name of the command for query jobs. -/
def queriesName : String := "generate-queries"

/-- The name of the command for help. -/
def helpName : String := "help"

/-- The names of all commands. -/
def names : List String := [dataName, queriesName, helpName]

/-- A request for help on at most one command. -/
def readHelp : List String → Except UsageError Command
  | [] => .ok .help
  | name :: rest =>
    if !names.contains name then .error (.unknownCommand name)
    else
      match rest with
      | [] => .ok .help
      | extra :: _ => .error (.unknownCommand extra)

/-- Reads the arguments of the program. -/
def read : List String → Except UsageError Command
  | [] => .error .noCommand
  | name :: rest =>
    match Word.ofArgument name with
    | .stop =>
      match rest with
      | [] => .error .noCommand
      | first :: _ =>
        .error (if names.contains first then .unexpected first else .unknownCommand first)
    | .long "help" none => .ok .help
    | .long "help" (some value) => .error (.unneededValue "help" value)
    | .long flag _ => .error (.unexpected ("--" ++ flag))
    | .short 'h' _ => .ok .help
    | .short c _ => .error (.unexpected (String.ofList ['-', c]))
    | .plain =>
      if name == dataName then
        (Flags.read dataFlags rest { settings := {} }).map fun r => (r.map data).getD help
      else if name == queriesName then
        (Flags.read queryFlags rest { settings := {} }).map fun s => (s.map queries).getD help
      else if name == helpName then readHelp rest
      else .error (.unknownCommand name)

end Command

/-! ## Texts -/

/-- What stands for the value of a flag. -/
def placeholder (flag : String) : String :=
  String.ofList ('<' :: (flag.toList.map fun c => if c = '-' then '_' else c.toUpper) ++ ['>'])

/-- A flag with its value. -/
def usageOf (flag : String) : String :=
  if flag == "help" then "--help" else "--" ++ flag ++ " " ++ placeholder flag

/-- The words for a bad value. -/
def ValueError.message : ValueError → String
  | .empty => "a value is required"
  | .integer fault => fault.message
  | .outside n range =>
    Int.repr n ++ " is not in " ++ Int.repr range.min ++ "..=" ++ Int.repr range.max

/-- The words for an error, with arguments as a terminal shows them. Without a command the program
says what it is for. -/
def UsageError.message : UsageError → String
  | .unexpected argument =>
    "error: unexpected argument '" ++ Text.Terminal.visible argument ++ "' found"
  | .missingValue flag =>
    "error: a value is required for '" ++ usageOf flag ++ "' but none was supplied"
  | .unneededValue flag value =>
    "error: unexpected value '" ++ Text.Terminal.visible value ++ "' for '" ++ usageOf flag
      ++ "' found; no more were expected"
  | .repeated flag =>
    "error: the argument '" ++ usageOf flag ++ "' cannot be used multiple times"
  | .badValue flag value e =>
    "error: invalid value '" ++ Text.Terminal.visible value ++ "' for '" ++ usageOf flag ++ "': "
      ++ e.message
  | .unknownCommand name => "error: unrecognized subcommand '" ++ Text.Terminal.visible name ++ "'"
  | .noCommand => purpose

/-- The lines about a command and its flags. -/
def commandHelp {σ : Type} (name : String) (flags : List (Flag σ)) : String :=
  "\n  " ++ name ++ "\n" ++ String.join (flags.map fun f => "    " ++ usageOf f.name ++ "\n")

/-- The text of help. -/
def help : String :=
  purpose ++ "\n\nCommands:\n" ++ commandHelp Command.dataName dataFlags
    ++ commandHelp Command.queriesName queryFlags

end SeriesLoad.CommandLine
