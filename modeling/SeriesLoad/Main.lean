import SeriesLoad.CommandLine.Invocation
import SeriesLoad.Profile.KernelTable

/-!
# The program

Carries out an invocation: standard output takes the data, standard error what is reported.
-/

namespace SeriesLoad.Main

/-- The words for an error of the operating system. -/
def errorText : IO.Error → String
  | .noFileOrDirectory _ code details => details ++ " (os error " ++ Nat.repr code.toNat ++ ")"
  | .permissionDenied _ code details => details ++ " (os error " ++ Nat.repr code.toNat ++ ")"
  | .inappropriateType _ code details => details ++ " (os error " ++ Nat.repr code.toNat ++ ")"
  | .invalidArgument _ code details => details ++ " (os error " ++ Nat.repr code.toNat ++ ")"
  | e => toString e

/-- Makes an empty file. -/
def createFile (path : String) : IO (Except String Unit) := do
  try
    IO.FS.writeFile path ""
    return .ok ()
  catch e => return .error (errorText e)

/-- A seed from the clock: the nanoseconds of the running second. -/
def clockSeed : IO UInt64 := do
  return UInt64.ofNat ((← IO.monoNanosNow) % nanosPerSecond)

/-- Writes a profile of the running process. -/
def writeProfile (path : String) : IO (Except String Unit) := do
  try
    let tables : Profile.KernelTables := {
      status := ← IO.FS.readFile "/proc/self/status"
      memory := ← IO.FS.readFile "/proc/meminfo"
      counts := ← IO.FS.readFile "/proc/stat"
      uptime := ← IO.FS.readFile "/proc/uptime" }
    match tables.snapshot? with
    | none => return .error "the tables of the kernel are incomplete"
    | some s =>
      IO.FS.writeFile path (({} : Profile.ProfileFile).write s).1.text
      return .ok ()
  catch e => return .error (errorText e)

end SeriesLoad.Main

open SeriesLoad in
/-- The program. -/
def main (args : List String) : IO UInt32 := do
  let outcome ← CommandLine.invoke Main.createFile (← Main.clockSeed) args
  let out ← IO.getStdout
  out.write outcome.output
  out.flush
  if !outcome.report.isEmpty then IO.eprintln outcome.report
  match outcome.isProfiled, outcome.profile with
  | true, some path =>
    match ← Main.writeProfile path with
    | .ok () => return 0
    | .error cause =>
      IO.eprintln ("Error: could not write memory profile: " ++ cause)
      return 1
  | _, _ => return UInt32.ofNat outcome.exitCode
