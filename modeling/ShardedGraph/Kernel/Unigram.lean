import ShardedGraph.Kernel.Weights
import ShardedGraph.Number.Power
import ShardedGraph.Random.WordStream

/-!
# Unigram tables

A unigram table holds every index with a positive frequency in a number of slots, and a
draw picks a slot with equal chances. The number of slots grows with the power three
quarters of the frequency, so frequent indices are dampened, and it is at least one, so
rare indices stay drawable. Indices with large frequencies come first; equal frequencies
keep their order.

There are ten slots for every entry before rounding, and never more than `slotLimit`. An
entry for which no slot is left is not placed and cannot be drawn; a table counts the entries
that it places.
-/

set_option autoImplicit false

namespace ShardedGraph.Kernel

open Number

/-- An index with a positive frequency. -/
structure UnigramEntry where
  index : Nat
  frequency : Single
  /-- The power three quarters of the frequency. -/
  weight : Double
  deriving DecidableEq, Repr

/-- The slots of a unigram table over `size` indices. -/
structure UnigramTable where
  size : Nat
  slots : List Nat
  /-- The indices that were given slots, in the order of their slots. -/
  placed : List Nat
  deriving DecidableEq, Repr

namespace UnigramTable

/-- How many slots a table has at most. -/
def slotLimit : Nat := 1000000000

/-- How many slots there are for an entry on average, before rounding. -/
def slotsPerEntry : Nat := 10

/-- The indices with positive frequencies, in order. -/
def entries (frequencies : List Single) : List UnigramEntry :=
  frequencies.zipIdx.filterMap fun (frequency, index) =>
    if 0 < frequency then some ⟨index, frequency, frequency.widen.powThreeQuarters⟩ else none

/-- The entries from the largest frequency to the smallest. -/
def ranked (entries : List UnigramEntry) : List UnigramEntry :=
  entries.mergeSort fun x y => decide (y.frequency.magnitude ≤ x.frequency.magnitude)

/-- How many slots an entry gets: its share of `slots`, rounded, at least one. -/
def slotsOf (sum : Double) (slots : Nat) (entry : UnigramEntry) : Nat :=
  max 1 (entry.weight / sum * .ofNat slots).roundToNat

/-- The slots of entries, as far as there is room. -/
def layOut (count : UnigramEntry → Nat) (room : Nat) : List UnigramEntry → List Nat
  | [] => []
  | entry :: entries =>
      let taken := min (count entry) room
      List.replicate taken entry.index ++ layOut count (room - taken) entries

/-- The indices of the entries that get slots before there is no room left. -/
def place (count : UnigramEntry → Nat) (room : Nat) : List UnigramEntry → List Nat
  | [] => []
  | entry :: entries =>
      if room = 0 then []
      else entry.index :: place count (room - min (count entry) room) entries

/-- Builds a table over frequencies, at least one of which must be positive. -/
def build (frequencies : List Single) : Except Error UnigramTable := do
  checkWeights .unigram frequencies
  let entries := entries frequencies
  if entries.isEmpty then throw (.noMass .unigram)
  checkSize .unigram frequencies.length
  let sum := entries.foldl (fun sum entry => sum + entry.weight) (0 : Double)
  let count := slotsOf sum (min (slotsPerEntry * entries.length) slotLimit)
  let order := ranked entries
  return ⟨frequencies.length, layOut count slotLimit order, place count slotLimit order⟩

/-- Draws an index. -/
def draw (table : UnigramTable) : Draw Nat := do
  let slot ← WordStream.below table.slots.length
  return table.slots.getD slot 0

/-- Whether an index was given slots. -/
def isReachable (table : UnigramTable) (index : Nat) : Bool := table.placed.contains index

/-- How many indices were given slots. -/
def support (table : UnigramTable) : Nat := table.placed.length

end UnigramTable

end ShardedGraph.Kernel
