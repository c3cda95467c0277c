import SeriesLoad.CommandLine.Command

/-!
# Invocations

`CommandLine.invoke` carries out the arguments of the program. The one thing that it does on the way
is to make the file for a memory profile, which has to be there before any output. All else is in
the `Outcome`: the output, the exit code, what is reported, and whether a profile is to be written.
-/

namespace SeriesLoad.CommandLine

/-- What comes of an invocation. -/
structure Outcome where
  exitCode : Nat := 0
  output : ByteArray := .empty
  /-- What is reported of a failure, empty if there is none. -/
  report : String := ""
  /-- The path of the profile file, if one was made. -/
  profile : Option String := none
  /-- Whether the profile is to be written. -/
  isProfiled : Bool := false

/-- The outcome of arguments that are not understood. -/
def Outcome.usage (e : UsageError) : Outcome where
  exitCode := 2
  report := e.message

/-- The outcome of a failure. -/
def Outcome.failure (message : String) : Outcome where
  exitCode := 1
  report := "Error: " ++ message

/-- The outcome of a fault. Its report starts on a line of its own. -/
def Outcome.fault (f : Fault) : Outcome where
  exitCode := 1
  report := "\nError: the task stopped: " ++ f.message

/-- The outcome of a failed run. -/
def Outcome.ofRunError : RunError → Outcome
  | .fault f => .fault f
  | .write e => .failure ("Failed to write generated data: " ++ e.message)

/-- The outcome of a failed query job. -/
def Outcome.ofQueryJobError : QueryJobError → Outcome
  | .fault f => .fault f
  | e => .failure e.chain

/-- Carries out a data job whose profile file is made. -/
def runData (job : DataJob) (profile : Option String) : Outcome :=
  match job.generateBuffered (fun _ => false) {} with
  | .error f => { Outcome.fault f with profile }
  | .ok ended =>
    let output := ended.output.received
    match ended.result with
    | .ok _ => { output, profile, isProfiled := profile.isSome }
    | .error e => { Outcome.ofRunError e with output, profile }

/-- Carries out a query job. -/
def runQueries (job : QueryJob) : Outcome :=
  let (sink, result) := job.generate ({} : Sink)
  match result with
  | .ok _ => { output := sink.received }
  | .error e => { Outcome.ofQueryJobError e with output := sink.received }

variable {m : Type → Type} [Monad m]

/-- Carries out a data job. `createFile` makes an empty file or tells why it cannot. -/
def performData (createFile : String → m (Except String Unit)) (clock : UInt64)
    (r : DataRequest) : m Outcome :=
  match DataJob.ofSettings clock r.settings with
  | .error e => return .failure e.chain
  | .ok job =>
    match r.profile with
    | none => return runData job none
    | some path => do
      match ← createFile path with
      | .error cause =>
        return .failure
          ("could not create memory profile " ++ Text.Quoted.quote path ++ ": " ++ cause)
      | .ok () => return runData job (some path)

/-- Carries out the arguments of the program. -/
def invoke (createFile : String → m (Except String Unit)) (clock : UInt64) (args : List String) :
    m Outcome :=
  match Command.read args with
  | .error e => return .usage e
  | .ok .help => return { output := help.toUTF8 }
  | .ok (.data r) => performData createFile clock r
  | .ok (.queries s) =>
    match QueryJob.ofSettings clock s with
    | .error e => return .failure e.chain
    | .ok job => return runQueries job

end SeriesLoad.CommandLine
