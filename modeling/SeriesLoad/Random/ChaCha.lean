import SeriesLoad.Random.Words

/-!
# The ChaCha word stream

A 256-bit key fixes a stream of blocks of 16 words. Block `n` is the initial state for the counter
`n`, mixed by twelve rounds and added to itself. `ChaCha` is a position in such a stream, with the
block it is in at hand; `ChaCha.ofSeed` stretches a 64-bit seed to a key.
-/

namespace SeriesLoad

/-- A position in the word stream of a key. -/
structure ChaCha where
  /-- The eight words of the key. -/
  key : Array UInt32
  /-- The number of the next block. -/
  counter : UInt64
  /-- The current block. -/
  block : Array UInt32
  /-- The place of the next word in the block. -/
  index : Nat

namespace ChaCha

/-- The word at a place, zero beyond the end. -/
def wordAt (xs : Array UInt32) (i : Nat) : UInt32 := xs.getD i 0

/-- Turns a word to the left. -/
def rotateLeft (x n : UInt32) : UInt32 := x <<< n ||| x >>> (32 - n)

/-- Mixes four words. -/
def quarterRound (a b c d : UInt32) : UInt32 × UInt32 × UInt32 × UInt32 :=
  let a := a + b
  let d := rotateLeft (d ^^^ a) 16
  let c := c + d
  let b := rotateLeft (b ^^^ c) 12
  let a := a + b
  let d := rotateLeft (d ^^^ a) 8
  let c := c + d
  let b := rotateLeft (b ^^^ c) 7
  (a, b, c, d)

/-- Mixes the words at four places. -/
def mix (xs : Array UInt32) (i j k l : Nat) : Array UInt32 :=
  let (a, b, c, d) := quarterRound (wordAt xs i) (wordAt xs j) (wordAt xs k) (wordAt xs l)
  (((xs.setIfInBounds i a).setIfInBounds j b).setIfInBounds k c).setIfInBounds l d

/-- Two rounds: the columns, then the diagonals. -/
def doubleRound (xs : Array UInt32) : Array UInt32 :=
  let xs := mix xs 0 4 8 12
  let xs := mix xs 1 5 9 13
  let xs := mix xs 2 6 10 14
  let xs := mix xs 3 7 11 15
  let xs := mix xs 0 5 10 15
  let xs := mix xs 1 6 11 12
  let xs := mix xs 2 7 8 13
  mix xs 3 4 9 14

/-- The state before mixing: four constants, the key, the counter, and two zero words. -/
def initialState (key : Array UInt32) (counter : UInt64) : Array UInt32 :=
  (#[0x61707865, 0x3320646e, 0x79622d32, 0x6b206574] : Array UInt32)
    ++ key ++ #[counter.toUInt32, (counter >>> 32).toUInt32, 0, 0]

/-- A block of the stream. -/
def blockAt (key : Array UInt32) (counter : UInt64) : Array UInt32 :=
  let start := initialState key counter
  let mixed := (List.range 6).foldl (fun xs _ => doubleRound xs) start
  Array.zipWith (· + ·) mixed start

/-- The start of the stream of a key. -/
def ofKey (key : Array UInt32) : ChaCha where
  key
  counter := 1
  block := blockAt key 0
  index := 0

/-- One step of the generator that stretches seeds. -/
def stretch (s : UInt64) : UInt64 := s * 6364136223846793005 + 11634580027462260723

/-- The word that a state of the stretching generator gives. -/
def stretchedWord (s : UInt64) : UInt32 :=
  let x := (((s >>> 18) ^^^ s) >>> 27).toUInt32
  let turn := (s >>> 59).toUInt32
  if turn == 0 then x else x >>> turn ||| x <<< (32 - turn)

/-- So many words stretched from a seed. -/
def stretchedKey : Nat → UInt64 → List UInt32
  | 0, _ => []
  | n + 1, s => stretchedWord (stretch s) :: stretchedKey n (stretch s)

/-- The start of the stream of a seed. -/
def ofSeed (seed : UInt64) : ChaCha := ofKey (stretchedKey 8 seed).toArray

/-- The next word, and the position after it. -/
def next (s : ChaCha) : UInt32 × ChaCha :=
  if s.index < 16 then (wordAt s.block s.index, { s with index := s.index + 1 })
  else
    let block := blockAt s.key s.counter
    (wordAt block 0, { s with block, counter := s.counter + 1, index := 1 })

instance : Words ChaCha := ⟨next⟩

end ChaCha

end SeriesLoad
