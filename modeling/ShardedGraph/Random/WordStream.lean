import ShardedGraph.Number.Binary

/-!
# Word streams

All chance comes from a stream of 64-bit words. A draw takes whole words from the
stream, one after the other, and the stream counts the words that were taken.

**Indices.** An index below `n` is the upper half of `n` times the lower half of a word.
When the lower half of that product is so large that a carry from further bits could
change the index, one more word decides the carry. Ranges that end beyond 32 bits take
whole words instead, and products of twice their length.

**Fractions.** A fraction is the top 24 bits of the lower half of a word, or the top 53
bits of a word, behind a binary point; it is at least zero and below one.
-/

set_option autoImplicit false

namespace ShardedGraph

open Number

/-- A stream of words, and how many of them were taken. -/
structure WordStream where
  word : Nat → UInt64
  used : Nat

/-- A computation that draws words. -/
abbrev Draw (α : Type) : Type := StateM WordStream α

namespace WordStream

/-! ## Streams -/

/-- The word that a mixed counter gives. -/
def mix (counter : UInt64) : UInt64 :=
  let first := (counter ^^^ (counter >>> 30)) * 0xBF58476D1CE4E5B9
  let second := (first ^^^ (first >>> 27)) * 0x94D049BB133111EB
  second ^^^ (second >>> 31)

/-- What a counter grows by from word to word. -/
def counterStep : UInt64 := 0x9E3779B97F4A7C15

/-- The stream of the mixed values of a counter that starts at a seed. -/
def ofSeed (seed : UInt64) : WordStream :=
  ⟨fun index => mix (seed + UInt64.ofNat (index + 1) * counterStep), 0⟩

/-- The given words, followed by another stream. -/
def prepend (words : Array UInt64) (rest : WordStream) : WordStream :=
  ⟨fun index => (words[index]?).getD (rest.word (index - words.size)), 0⟩

/-- The given words over and over. -/
def cycle (words : Array UInt64) : WordStream :=
  ⟨fun index => (words[index % words.size]?).getD 0, 0⟩

/-- Takes a word. -/
def next : Draw UInt64 := fun stream =>
  (stream.word stream.used, { stream with used := stream.used + 1 })

/-! ## Draws -/

/-- The lower half of a word. -/
def lowHalf (word : UInt64) : Nat := word.toNat % UInt32.size

/-- Draws an index below `n` from the lowest parts of words, of which there are `size`. -/
def indexFrom (size n : Nat) : Draw Nat := do
  let product := (← next).toNat % size * n
  let index := product / size
  let rest := product % size
  if size - n < rest then
    let carry := (← next).toNat % size * n / size
    return if size ≤ rest + carry then index + 1 else index
  else
    return index

/-- How many parts of words there are for ranges that end at `last`: halves as long as 32 bits are
enough, and whole words for more. -/
def partsFor (last : Nat) : Nat := if last < UInt32.size then UInt32.size else UInt64.size

/-- Draws an index at least `first` and below `last`. -/
def between (first last : Nat) : Draw Nat := do
  return first + (← indexFrom (partsFor last) (last - first))

/-- Draws an index below `n`. -/
def below (n : Nat) : Draw Nat := indexFrom (partsFor n) n

/-- Draws a 32-bit fraction. -/
def single : Draw Single := do return .ofDyadic (lowHalf (← next) >>> 8) 24

/-- Draws a 64-bit fraction. -/
def double : Draw Double := do return .ofDyadic ((← next).toNat >>> 11) 53

end WordStream

end ShardedGraph
