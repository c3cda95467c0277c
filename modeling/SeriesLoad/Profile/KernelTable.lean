import SeriesLoad.Profile

/-!
# Snapshots from the tables of the kernel

The kernel shows the state of a process and of the machine in tables of text, a name and a number on
each line. `KernelTables.snapshot?` takes a snapshot from them.
-/

namespace SeriesLoad.Profile

/-- The tables that a snapshot is taken from. -/
structure KernelTables where
  /-- The state of the process. -/
  status : String
  /-- The memory of the machine. -/
  memory : String
  /-- Counts since the machine was started, and when that was. -/
  counts : String
  /-- The seconds since the machine was started, with two digits after the point. -/
  uptime : String

namespace KernelTables

/-- The first number in a text. -/
def firstNumber? (cs : List Char) : Option Nat :=
  match (cs.dropWhile fun c => !c.isDigit).takeWhile Char.isDigit with
  | [] => none
  | ds => some (Text.ofDigits 0 ds)

/-- The number on the line that starts with a name. -/
def entry? (name table : String) : Option Nat := do
  let line ← (table.splitOn "\n").find? fun line => name.toList.isPrefixOf line.toList
  firstNumber? (line.toList.drop name.length)

/-- The instant that the tables were read at. -/
def readAt? (t : KernelTables) : Option Instant := do
  let started ← entry? "btime" t.counts
  let hundredths ← firstNumber? (t.uptime.toList.takeWhile (· != ' ') |>.filter (· != '.'))
  Instant.ofNanos? (started * nanosPerSecond + hundredths * 10000000)

/-- A snapshot, if the tables have what it takes. -/
def snapshot? (t : KernelTables) : Option Snapshot := do
  return {
    process := ← entry? "Pid:" t.status
    resident := (← entry? "VmRSS:" t.status) * 1024
    addressed := (← entry? "VmSize:" t.status) * 1024
    total := (← entry? "MemTotal:" t.memory) * 1024
    takenAt := ← t.readAt? }

end KernelTables

end SeriesLoad.Profile
