import SeriesLoad.Random.ChaCha
import SeriesLoad.Settings

/-!
# Data jobs

A `DataJob` writes the records of a simulated population, or one group's share of them, in one
format. `DataJob.ofSettings` checks its settings: the groups first, then the format, the host model,
the two ends of time and the interval.

`generate` writes the preamble where the format has one, and then runs the simulation.
`generateBuffered` does the same through a buffer in front of the sink, which gets what it can of
the output even if the job fails. Both give a fault, and write nothing, if the simulation has too
many steps to be counted.
-/

namespace SeriesLoad

/-- The settings of a data job, as they are given. -/
structure DataSettings where
  format : String := ""
  model : String := ""
  /-- Hosts online in the first epoch; zero asks for all of them. -/
  initial : Nat := 0
  hosts : Nat := 1
  start : String := Settings.defaultStart
  stop : String := Settings.defaultStop
  seed : Int64 := 0
  interval : String := "10s"
  group : Nat := 0
  groups : Nat := 1
deriving DecidableEq, Repr

/-- A job that writes records. -/
structure DataJob where
  format : Format
  population : Population
  seed : UInt64
  interval : Span
  share : Share

namespace DataJob

/-- The job with checked settings. The clock stands in for a seed of zero. -/
def ofSettings (clock : UInt64) (s : DataSettings) : Except SettingError DataJob := do
  let share ← Settings.share s.group s.groups
  let format ← Settings.format s.format
  let model ← Settings.model s.model
  let start ← Settings.instant s.start
  let stop ← Settings.instant s.stop
  let interval ← Settings.interval s.interval
  let initial := if s.initial = 0 then s.hosts else s.initial
  return {
    format
    population := { model, start, stop, initial, hosts := s.hosts }
    seed := Settings.seed clock s.seed
    interval
    share }

/-- The simulation of the job's population. -/
def simulation (j : DataJob) : Except Fault (Simulation ChaCha) :=
  Simulation.init j.population j.population.model.passes j.interval (ChaCha.ofSeed j.seed)

variable {ω : Type} [Output ω]

/-- Writes the output of a job. `stop` tells from what was done whether to stop. -/
def generate (j : DataJob) (stop : RunStats → Bool) (output : ω) :
    Except Fault (RunEnd (Simulation ChaCha) ω) := do
  let s ← j.simulation
  if j.format.needsPreamble then
    match Output.write output s.schema.preamble.toUTF8 with
    | (output, false) => return ⟨s, output, .error (.write .sinkFull)⟩
    | (output, true) => return run Simulation.source j.format j.share stop s output
  else return run Simulation.source j.format j.share stop s output

/-- Writes the output of a job through a buffer. What the buffer holds at the end is handed to the
sink, however the job ended. -/
def generateBuffered (j : DataJob) (stop : RunStats → Bool) (sink : Sink) :
    Except Fault (RunEnd (Simulation ChaCha) Sink) := do
  let ended ← j.generate stop ({ sink } : Buffer)
  let (buffer, isWhole) := ended.output.flush
  let result := match ended.result with
    | .error e => .error e
    | .ok stats => if isWhole then .ok stats else .error (.write .sinkFull)
  return ⟨ended.source, buffer.sink, result⟩

end DataJob

end SeriesLoad
