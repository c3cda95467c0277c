/-!
# Sinks of bounded capacity

A `Sink` takes bytes until it is full. Of a write that does not fit it takes the front part, and
the write fails; so what it holds is always a beginning of all that was written to it. A `Buffer`
gathers writes in front of a sink.
-/

namespace SeriesLoad

/-- Where output goes. -/
structure Sink where
  /-- How many bytes are accepted in all; no limit if `none`. -/
  capacity : Option Nat := none
  received : ByteArray := .empty

namespace Sink

/-- What a full sink says of itself. -/
def fullMessage : String := "disk full"

/-- How many of a number of further bytes are accepted. -/
def room (s : Sink) (n : Nat) : Nat :=
  match s.capacity with
  | none => n
  | some c => min n (c - s.received.size)

/-- Writes bytes, and tells whether all of them were accepted. -/
def write (s : Sink) (bs : ByteArray) : Sink × Bool :=
  let n := s.room bs.size
  if n = bs.size then ({ s with received := s.received ++ bs }, true)
  else ({ s with received := s.received ++ bs.extract 0 n }, false)

end Sink

/-- What takes output. -/
class Output (ω : Type) where
  /-- Takes bytes, and tells whether it took them all. -/
  write : ω → ByteArray → ω × Bool

instance : Output Sink := ⟨Sink.write⟩

/-! ## Buffers -/

/-- A sink with a buffer in front. -/
structure Buffer where
  sink : Sink
  pending : ByteArray := .empty
  /-- The size of the buffer. -/
  limit : Nat := 4194304

namespace Buffer

/-- Hands the pending bytes to the sink. -/
def flush (b : Buffer) : Buffer × Bool :=
  let (sink, isWhole) := b.sink.write b.pending
  ({ b with sink, pending := .empty }, isWhole)

/-- Puts bytes into the buffer, which is flushed first if they do not fit. Bytes as large as the
buffer go straight to the sink. -/
def write (b : Buffer) (bs : ByteArray) : Buffer × Bool :=
  let (b, isWhole) := if b.limit < b.pending.size + bs.size then b.flush else (b, true)
  if !isWhole then (b, false)
  else if b.limit ≤ bs.size then
    let (sink, isWhole) := b.sink.write bs
    ({ b with sink }, isWhole)
  else ({ b with pending := b.pending ++ bs }, true)

instance : Output Buffer := ⟨Buffer.write⟩

end Buffer

end SeriesLoad
