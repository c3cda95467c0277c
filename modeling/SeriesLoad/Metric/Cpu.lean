import SeriesLoad.Metric.Measurement

/-!
# The processor measurement

Ten shares of processor time in percent, each of which starts anywhere and walks by normal steps.
-/

namespace SeriesLoad.Metric.Cpu

/-- The name of the measurement. -/
def name : String := "cpu"

/-- The names of its fields. -/
def keys : List String :=
  ["usage_user", "usage_system", "usage_idle", "usage_nice", "usage_iowait", "usage_irq",
   "usage_softirq", "usage_steal", "usage_guest", "usage_guest_nice"]

variable {γ : Type} [Words γ]

/-- Percents. -/
def percent : Bounds := .hundred

/-- A share of processor time. -/
def share (key : String) : Draw γ Metric := do
  let start ← Draw.unit
  return .float key (.walk (.normal 0.0 1.0) percent (start * 100.0))

/-- Shares with the given names. -/
def shares : List String → Draw γ (List Metric)
  | [] => return []
  | key :: rest => do
    let m ← share key
    let rest ← shares rest
    return m :: rest

/-- All ten shares. -/
def full (start : Instant) : Draw γ Measurement := do
  return ⟨name, start, ← shares keys⟩

/-- The first share alone. -/
def single (start : Instant) : Draw γ Measurement := do
  return ⟨name, start, ← shares (keys.take 1)⟩

end SeriesLoad.Metric.Cpu
