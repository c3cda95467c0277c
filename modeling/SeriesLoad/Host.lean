import SeriesLoad.Metric.Cpu
import SeriesLoad.Metric.Service
import SeriesLoad.Metric.Machine

/-!
# Hosts

A `Host` is a simulated machine: ten tags that never change, and the measurements it reports. A
`HostModel` says which measurements a new host has; they are drawn before its tags.
-/

namespace SeriesLoad

/-- The tags of a host. -/
structure HostTags where
  hostname : String
  region : String
  datacenter : String
  rack : String
  os : String
  arch : String
  team : String
  service : String
  serviceVersion : String
  serviceEnvironment : String
deriving DecidableEq, Repr

namespace HostTags

/-- The keys of the tags. -/
def keys : List String :=
  ["hostname", "region", "datacenter", "rack", "os", "arch", "team", "service",
   "service_version", "service_environment"]

/-- The values of the tags. -/
def values (t : HostTags) : List String :=
  [t.hostname, t.region, t.datacenter, t.rack, t.os, t.arch, t.team, t.service,
   t.serviceVersion, t.serviceEnvironment]

/-- The tags with their keys. -/
def toList (t : HostTags) : List (String × String) := keys.zip t.values

/-- A cloud region, its first datacenter and the others. -/
structure Region where
  name : String
  first : String
  others : List String

/-- The region that stands first. -/
def firstRegion : Region :=
  ⟨"us-east-1", "us-east-1a", ["us-east-1b", "us-east-1c", "us-east-1e"]⟩

/-- The other regions. -/
def otherRegions : List Region :=
  [⟨"us-west-1", "us-west-1a", ["us-west-1b"]⟩,
   ⟨"us-west-2", "us-west-2a", ["us-west-2b", "us-west-2c"]⟩,
   ⟨"eu-west-1", "eu-west-1a", ["eu-west-1b", "eu-west-1c"]⟩,
   ⟨"eu-central-1", "eu-central-1a", ["eu-central-1b"]⟩,
   ⟨"ap-southeast-1", "ap-southeast-1a", ["ap-southeast-1b"]⟩,
   ⟨"ap-southeast-2", "ap-southeast-2a", ["ap-southeast-2b"]⟩,
   ⟨"ap-northeast-1", "ap-northeast-1a", ["ap-northeast-1c"]⟩,
   ⟨"sa-east-1", "sa-east-1a", ["sa-east-1b", "sa-east-1c"]⟩]

/-- The name of the host with an index. -/
def nameOf (index : Nat) : String := "host_" ++ Nat.repr index

/-- Tags for the host with an index; all but the name are drawn. -/
def draw {γ : Type} [Words γ] (index : Nat) : Draw γ HostTags := do
  let place ← Draw.below .long (otherRegions.length + 1)
  let region := (firstRegion :: otherRegions).getD place firstRegion
  let datacenter ← Draw.choose region.first region.others
  let rack ← Draw.below .short 100
  let os ← Draw.choose "Ubuntu16.10" ["Ubuntu16.04LTS", "Ubuntu15.10"]
  let arch ← Draw.choose "x64" ["x86"]
  let team ← Draw.choose "SF" ["NYC", "LON", "CHI"]
  let service ← Draw.below .short 20
  let version ← Draw.below .short 2
  let environment ← Draw.choose "production" ["staging", "test"]
  return {
    hostname := nameOf index
    region := region.name
    datacenter
    rack := Nat.repr rack
    os
    arch
    team
    service := Nat.repr service
    serviceVersion := Nat.repr version
    serviceEnvironment := environment }

end HostTags

/-- A simulated machine. -/
structure Host where
  tags : HostTags
  measurements : List Measurement

namespace Host

variable {γ : Type} [Words γ]

/-- Ticks measurements, in order. -/
def tickAll (d : Span) : List Measurement → γ → Except Fault (List Measurement × γ)
  | [], words => .ok ([], words)
  | m :: rest, words => do
    let (m, words) ← m.tick d words
    let (rest, words) ← tickAll d rest words
    .ok (m :: rest, words)

/-- Ticks every measurement of the host. -/
def tick (h : Host) (d : Span) (words : γ) : Except Fault (Host × γ) := do
  let (measurements, words) ← tickAll d h.measurements words
  .ok ({ h with measurements }, words)

/-- Puts the tags of the host into a point, then one of its measurements, if it has it. -/
def fill (h : Host) (index : Nat) (p : Point) : Point :=
  let p := h.tags.toList.foldl (fun p tag => p.addTag tag.1 tag.2) p
  match h.measurements[index]? with
  | some m => m.fill p
  | none => p

end Host

/-- Which measurements a host reports. -/
inductive HostModel where
  /-- The full set. -/
  | devops
  /-- The processor alone. -/
  | cpuOnly
  /-- One share of processor time. -/
  | cpuSingle
deriving DecidableEq, Repr

namespace HostModel

/-- All models. -/
def all : List HostModel := [.devops, .cpuOnly, .cpuSingle]

/-- The name of a model. -/
def name : HostModel → String
  | .devops => "devops"
  | .cpuOnly => "cpu-only"
  | .cpuSingle => "cpu-single"

/-- The model of a name. -/
def ofName? (s : String) : Option HostModel := all.find? fun m => m.name == s

/-- How many measurements a host of the full model reports. -/
def fullCount : Nat := 9

/-- How many measurements a host of a model reports, and so the passes in an epoch. -/
def passes : HostModel → Nat
  | .devops => fullCount
  | _ => 1

variable {γ : Type} [Words γ]

/-- The measurements of a new host. -/
def measurements (model : HostModel) (start : Instant) : Draw γ (List Measurement) :=
  match model with
  | .cpuOnly => do return [← Metric.Cpu.full start]
  | .cpuSingle => do return [← Metric.Cpu.single start]
  | .devops => do
    let cpu ← Metric.Cpu.full start
    let disk ← Metric.Machine.disk start
    let kernel ← Metric.Machine.kernel start
    let memory ← Metric.Machine.memory start
    let store ← Metric.Service.keyValueStore start
    return [cpu, Metric.Machine.diskTraffic start, disk, kernel, memory,
      Metric.Machine.network start, Metric.Service.webServer start,
      Metric.Service.relational start, store]

/-- A new host. -/
def draw (model : HostModel) (index : Nat) (start : Instant) : Draw γ Host := do
  let measurements ← model.measurements start
  let tags ← HostTags.draw index
  return ⟨tags, measurements⟩

end HostModel

end SeriesLoad
