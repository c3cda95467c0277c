import SeriesLoad.Schema

/-!
# Simulating a population of hosts

Time runs in epochs of one sampling interval. In an epoch there is a pass over all hosts for each
measurement, and each step of a pass makes one point; between epochs every host ticks. The number
of hosts that are online grows evenly from the first epoch to the last. Points of hosts that are not
online yet are made all the same, so that the random numbers of a host do not depend on it, but they
are not to be written.

`Simulation.next` makes one step. How many steps there are is fixed at the start. Counts are kept in
64 bits, and a calculation that leaves them is a fault, as are more hosts than there is room for.
-/

namespace SeriesLoad

/-- A population of hosts over time. -/
structure Population where
  model : HostModel
  start : Instant
  stop : Instant
  /-- Hosts online in the first epoch. -/
  initial : Nat
  /-- Hosts online in the last epoch. -/
  hosts : Nat

/-- The number of whole intervals between two instants, both in milliseconds. -/
def epochCount (start stop : Instant) (interval : Span) : Nat :=
  let window := (stop.since start).wholeMillis
  let step := interval.wholeMillis
  if step ≤ 0 ∨ window ≤ 0 then 0 else (window / step).toNat

/-- A number as a count, which has 64 bits. -/
def countOf (n : Nat) : Except Fault Nat :=
  if n < 2 ^ 64 then .ok n else .error .countRange

/-- The state of a simulation. -/
structure Simulation (γ : Type) where
  hosts : Array Host
  /-- Passes in an epoch. -/
  passes : Nat
  interval : Span
  /-- Hosts online in the first epoch, at most all of them. -/
  initial : Nat
  /-- Epochs in all. -/
  epochs : Nat
  /-- Steps in all. -/
  budget : Nat
  words : γ
  /-- The host that is next in the pass. -/
  host : Nat := 0
  pass : Nat := 0
  epoch : Nat := 0
  /-- Hosts online in this epoch. -/
  online : Nat
  /-- Points made so far. -/
  made : Nat := 0

namespace Simulation

variable {γ : Type} [Words γ]

/-- New hosts, in the order of their indices. -/
def drawHosts (model : HostModel) (start : Instant) : Nat → Nat → Draw γ (List Host)
  | 0, _ => return []
  | more + 1, index => do
    let h ← model.draw index start
    let rest ← drawHosts model start more (index + 1)
    return h :: rest

/-- The simulation of a population at its first step. -/
def init (p : Population) (passes : Nat) (interval : Span) (words : γ) :
    Except Fault (Simulation γ) := do
  requireRoom p.hosts
  let epochs := epochCount p.start p.stop interval
  let budget ← countOf (epochs * p.hosts * passes)
  let (hosts, words) := (drawHosts p.model p.start p.hosts 0).run words
  let initial := min p.initial p.hosts
  return {
    hosts := hosts.toArray
    passes
    interval
    initial
    epochs
    budget
    words
    online := initial }

/-- The number of steps still to be made. -/
def remaining (s : Simulation γ) : Nat := s.budget - s.made

/-- Whether all steps are made. -/
def finished (s : Simulation γ) : Bool := s.budget ≤ s.made

/-- Ticks hosts, in order. -/
def tickHosts (d : Span) : List Host → γ → Except Fault (List Host × γ)
  | [], words => .ok ([], words)
  | h :: rest, words => do
    let (h, words) ← h.tick d words
    let (rest, words) ← tickHosts d rest words
    .ok (h :: rest, words)

/-- The number of hosts online in an epoch. -/
def onlineIn (hosts initial epochs epoch : Nat) : Except Fault Nat :=
  if epochs ≤ 1 then .ok hosts
  else do
    let grown := (← countOf ((hosts - initial) * epoch)) / (epochs - 1)
    return min (← countOf (initial + grown)) hosts

/-- Ticks every host and goes on to the next epoch. -/
def nextEpoch (s : Simulation γ) : Except Fault (Simulation γ) := do
  let (hosts, words) ← tickHosts s.interval s.hosts.toList s.words
  let epoch := s.epoch + 1
  let online ← onlineIn s.hosts.size s.initial s.epochs epoch
  .ok { s with hosts := hosts.toArray, words, epoch, online }

/-- Goes on to the next pass if the current one is over, and to the next epoch after the last
pass. -/
def settle (s : Simulation γ) : Except Fault (Simulation γ) :=
  if s.host = s.hosts.size then
    let s := { s with host := 0, pass := s.pass + 1 }
    if s.pass = s.passes then nextEpoch { s with pass := 0 } else .ok s
  else .ok s

/-- Puts the current host's measurement for this pass into a point, and tells whether the point is
to be written. -/
def emit (s : Simulation γ) (p : Point) : Simulation γ × Bool × Point :=
  match s.hosts[s.host]? with
  | none => (s, false, p)
  | some h =>
    ({ s with made := s.made + 1, host := s.host + 1 }, decide (s.host < s.online),
      h.fill s.pass p)

/-- Makes one step. -/
def next (s : Simulation γ) (p : Point) : Except Fault (Simulation γ × Bool × Point) := do
  return (← s.settle).emit p

/-- The fields that the hosts report. All hosts report the same ones. -/
def schema (s : Simulation γ) : Schema :=
  match s.hosts[0]? with
  | some h => h.schema
  | none => []

end Simulation

end SeriesLoad
