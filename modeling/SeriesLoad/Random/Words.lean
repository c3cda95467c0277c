/-!
# Streams of random words

A type with an instance of `Words` yields 32-bit words one after the other. `Draw` is a computation
that takes words from such a stream; all drawing is written for any stream, so what is proved of it
holds whatever the words are.

**A loop that is cut.** Drawing by rejection repeats an attempt for as long as it is refused. Such a
loop has no bound, and there are streams on which it never ends. `Draw.retry` is the loop cut after
`tries` attempts: if all of them are refused it makes a last draw instead, which the loop without a
bound does not have. On a stream that refuses fewer attempts in a row the two are the same.
-/

namespace SeriesLoad

/-- A stream of 32-bit words. -/
class Words (γ : Type) where
  /-- The next word, and the stream after it. -/
  next : γ → UInt32 × γ

/-- A computation that takes words from a stream. -/
abbrev Draw (γ α : Type) := StateM γ α

namespace Draw

variable {γ : Type} [Words γ]

/-- One word. -/
def word32 : Draw γ UInt32 := fun s => Words.next s

/-- Two words as one number, the first of them its low half. -/
def word64 : Draw γ UInt64 := do
  let low ← word32
  let high ← word32
  return high.toUInt64 <<< 32 ||| low.toUInt64

/-- How often an attempt is made before a loop is cut. -/
def tries : Nat := 1000

/-- Repeats an attempt until it is not refused, but only so many times; then makes the last draw. -/
def retry {α : Type} (attempt : Draw γ (Option α)) (last : Draw γ α) : Nat → Draw γ α
  | 0 => last
  | more + 1 => do
    match ← attempt with
    | some a => return a
    | none => retry attempt last more

end Draw

end SeriesLoad
