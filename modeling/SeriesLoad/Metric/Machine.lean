import SeriesLoad.Metric.Measurement

/-!
# Measurements of the operating system

Disk traffic, disk space, the kernel, memory and the network of a machine.
-/

namespace SeriesLoad.Metric.Machine

variable {γ : Type} [Words γ]

/-- A count that rises by normal steps. -/
def counter (key : String) (mean deviation : Float) : Metric :=
  .int key (.monotonic (.normal mean deviation) 0.0)

/-- A count that rises by uniform steps. -/
def uniformCounter (key : String) (high : Float) : Metric :=
  .int key (.monotonic (.uniform 0.0 high) 0.0)

/-- Percents. -/
def percent : Bounds := .hundred

/-- Disk traffic. -/
def diskTraffic (start : Instant) : Measurement where
  name := "diskio"
  time := start
  metrics :=
    [counter "reads" 50.0 1.0, counter "writes" 50.0 1.0, counter "read_bytes" 100.0 1.0,
     counter "write_bytes" 100.0 1.0, counter "read_time" 5.0 1.0, counter "write_time" 5.0 1.0,
     counter "io_time" 5.0 1.0]

/-- The bytes of a disk: 500 GiB. -/
def diskSize : Float := 536870912000.0

/-- Disk space in bytes. -/
def diskSpace : Bounds := .upTo diskSize

/-- The number of index nodes of a disk. -/
def nodeCount : Float := 32000000.0

/-- Index nodes. -/
def nodes : Bounds := .upTo nodeCount

/-- Steps of disk space: 50 MiB. -/
def diskStep : Step := .normal 0.0 52428800.0

/-- Disk space and index nodes. -/
def disk (start : Instant) : Draw γ Measurement := do
  let used := (← Draw.unit) * diskSize
  let nodesUsed := (← Draw.unit) * nodeCount
  return {
    name := "disk"
    time := start
    metrics :=
      [.int "total" (.constant diskSize),
       .int "free" (.walk diskStep diskSpace (diskSize - used)),
       .int "used" (.walk diskStep diskSpace used),
       .float "used_percent" (.walk (.normal 0.0 1.0) percent (used / diskSize * 100.0)),
       .int "inodes_total" (.constant nodeCount),
       .int "inodes_free" (.walk (.normal 0.0 100.0) nodes (nodeCount - nodesUsed)),
       .int "inodes_used" (.walk (.normal 0.0 100.0) nodes nodesUsed)] }

/-- The kernel, which was started up to a week before the first sample. -/
def kernel (start : Instant) : Draw γ Measurement := do
  let boot := Float.ofInt start.secs - (← Draw.between 0.0 604800.0)
  return {
    name := "kernel"
    time := start
    metrics :=
      [.int "boot_time" (.constant boot.floor),
       counter "interrupts" 5.0 1.0,
       counter "context_switches" 5.0 1.0,
       uniformCounter "processes_forked" 100.0,
       uniformCounter "disk_pages_in" 100.0,
       uniformCounter "disk_pages_out" 100.0] }

/-- The sizes of memory that machines come with: 8, 12 and 16 GiB. -/
def memorySizes : Bounds × List Bounds :=
  (.eightGiB, [.upTo 12884901888.0, .upTo 17179869184.0])

/-- A part of memory, which starts anywhere. -/
def memoryPart (size : Bounds) (key : String) : Draw γ Metric := do
  let start ← Draw.unit
  return .int key (.walk (.normal 0.0 (size.high / 64.0)) size (start * size.high))

/-- A percentage that starts in the middle. -/
def middlePercent (key : String) : Metric := .float key (.walk (.normal 0.0 1.0) percent 50.0)

/-- Memory. -/
def memory (start : Instant) : Draw γ Measurement := do
  let size ← Draw.choose memorySizes.1 memorySizes.2
  let available ← memoryPart size "available"
  let used ← memoryPart size "used"
  let free ← memoryPart size "free"
  let cached ← memoryPart size "cached"
  let buffered ← memoryPart size "buffered"
  return {
    name := "mem"
    time := start
    metrics :=
      [.int "total" (.constant size.high), available, used, free, cached, buffered,
       middlePercent "used_percent", middlePercent "available_percent",
       middlePercent "buffered_percent"] }

/-- The network. -/
def network (start : Instant) : Measurement where
  name := "net"
  time := start
  metrics :=
    [counter "bytes_sent" 0.0 1024.0, counter "bytes_recv" 0.0 1024.0,
     counter "packets_sent" 0.0 32.0, counter "packets_recv" 0.0 32.0,
     counter "err_in" 0.0 1.0, counter "err_out" 0.0 1.0,
     counter "drop_in" 0.0 1.0, counter "drop_out" 0.0 1.0]

end SeriesLoad.Metric.Machine
