import SeriesLoad.Encoding
import SeriesLoad.Simulation

/-!
# Runs

A run steps a source of points until it is finished or told to stop, deals the points that are to
be written to groups in turn, and writes the records of its own group. So groups that run apart from
each other agree on whose turn it is, as long as their sources agree.

The source fills one point after the other into the same buffer, which is emptied after each step.
-/

namespace SeriesLoad

/-- What makes points, step by step. -/
structure Source (σ : Type) where
  /-- The number of steps still to be made. -/
  remaining : σ → Nat
  /-- Makes a step: adds to the point in the buffer, and tells whether it is to be written. -/
  next : σ → Point → Except Fault (σ × Bool × Point)

/-- A simulation as a source. -/
def Simulation.source {γ : Type} [Words γ] : Source (Simulation γ) where
  remaining := Simulation.remaining
  next := Simulation.next

/-- What a run has done so far. -/
structure RunStats where
  /-- Steps of the source. -/
  points : Nat := 0
  /-- Points that were to be written by some group. -/
  records : Nat := 0
  /-- Records that this run wrote. -/
  written : Nat := 0
  /-- Bytes of those records. -/
  bytes : Nat := 0
  /-- Whether the run was stopped before its source was finished. -/
  interrupted : Bool := false
deriving DecidableEq, Repr

/-- Which share of the records a run writes. -/
structure Share where
  group : Nat
  groups : Nat
deriving DecidableEq, Repr

/-- Why a run ended early. -/
inductive RunError where
  | fault (f : Fault)
  | write (e : WriteError)
deriving DecidableEq, Repr

/-- The state of a run between two steps. -/
structure RunState (σ ω : Type) where
  source : σ
  output : ω
  buffer : Point := .empty
  /-- The group whose turn it is. -/
  turn : Nat := 0
  stats : RunStats := {}

/-- How a run ended: where it left its source and output, and what it did or why it failed. -/
structure RunEnd (σ ω : Type) where
  source : σ
  output : ω
  result : Except RunError RunStats

namespace RunState

variable {σ ω : Type} [Output ω]

/-- The end of a run in this state. -/
def finish (s : RunState σ ω) : RunEnd σ ω := ⟨s.source, s.output, .ok s.stats⟩

/-- The end of a run that failed in this state. -/
def fail (s : RunState σ ω) (e : RunError) : RunEnd σ ω := ⟨s.source, s.output, .error e⟩

/-- Writes the buffer if it is the turn of the group. -/
def writeTurn (f : Format) (group : Nat) (s : RunState σ ω) :
    RunState σ ω × Except WriteError Unit :=
  if s.turn = group then
    match f.write s.buffer s.output with
    | (output, .error e) => ({ s with output }, .error e)
    | (output, .ok size) =>
      let stats := { s.stats with written := s.stats.written + 1, bytes := s.stats.bytes + size }
      ({ s with output, stats }, .ok ())
  else (s, .ok ())

/-- Counts a record and passes the turn on. -/
def passTurn (groups : Nat) (s : RunState σ ω) : Except Fault (RunState σ ω) :=
  let s := { s with buffer := s.buffer.reset, stats.records := s.stats.records + 1 }
  if groups = 0 then .error .noGroups else .ok { s with turn := (s.turn + 1) % groups }

/-- Makes one step, up to the emptied buffer. -/
def step (src : Source σ) (f : Format) (share : Share) (s : RunState σ ω) :
    Except (RunEnd σ ω) (RunState σ ω) :=
  match src.next s.source s.buffer with
  | .error e => .error (s.fail (.fault e))
  | .ok (source, isWritten, buffer) =>
    let s := { s with source, buffer, stats.points := s.stats.points + 1 }
    if isWritten then
      match s.writeTurn f share.group with
      | (s, .error e) => .error (s.fail (.write e))
      | (s, .ok ()) =>
        match s.passTurn share.groups with
        | .error e => .error (s.fail (.fault e))
        | .ok s => .ok s
    else .ok { s with buffer := s.buffer.reset }

/-- Makes at most so many steps. Whether to stop is asked before each of them. -/
def loop (src : Source σ) (f : Format) (share : Share) (stop : RunStats → Bool) :
    Nat → RunState σ ω → RunEnd σ ω
  | 0, s => s.finish
  | steps + 1, s =>
    if src.remaining s.source = 0 then s.finish
    else if stop s.stats then { s with stats.interrupted := true }.finish
    else
      match s.step src f share with
      | .error e => e
      | .ok s => loop src f share stop steps s

end RunState

/-- Runs a source to its end. `stop` tells from what was done whether to stop. -/
def run {σ ω : Type} [Output ω] (src : Source σ) (f : Format) (share : Share)
    (stop : RunStats → Bool) (source : σ) (output : ω) : RunEnd σ ω :=
  RunState.loop src f share stop (src.remaining source) { source, output }

/-! ## Scripts -/

/-- Points to be played back, each with whether it is to be written. -/
abbrev Script := List (Point × Bool)

/-- Adds all that is in one point to another. Name and time are kept where the first has none. -/
def Point.append (p q : Point) : Point where
  name := if q.name.isEmpty then p.name else q.name
  timestamp := q.timestamp.or p.timestamp
  tags := p.tags ++ q.tags
  fields := p.fields ++ q.fields

/-- A script as a source. -/
def Script.source : Source Script where
  remaining := List.length
  next script p := match script with
    | [] => .ok ([], false, p)
    | (q, isWritten) :: rest => .ok (rest, isWritten, p.append q)

end SeriesLoad
