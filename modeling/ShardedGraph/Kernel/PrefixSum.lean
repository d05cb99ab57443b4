import ShardedGraph.Kernel.Weights
import ShardedGraph.Random.Attempt

/-!
# Prefix sums

The sums of the first weights divide the total into one interval for every index. A draw
picks a point of the total, or of the part between two indices, and answers the index
whose interval holds the point: the first one whose sum lies strictly above it. An index
without weight has an empty interval and is not picked.

The sums and the search are stated for any numbers, so that they can be run with exact
fractions.
-/

set_option autoImplicit false

namespace ShardedGraph.Kernel

open Number

section Search

variable {α : Type} [Zero α] [Add α] [Sub α] [Mul α] [LT α] [DecidableLT α]

/-- The sums of the first weights, after `before`. -/
def sumsAfter (before : α) : List α → List α
  | [] => []
  | weight :: weights => (before + weight) :: sumsAfter (before + weight) weights

/-- The sums of the first one, two, three and so on weights. -/
def prefixSums (weights : List α) : List α := sumsAfter 0 weights

/-- The sum of all weights before an index. -/
def sumBefore (sums : List α) (index : Nat) : α :=
  if index = 0 then 0 else sums.getD (index - 1) 0

/-- The first index of a range whose sum lies strictly above a point; the last index of
the range when there is none. -/
def firstAbove (sums : List α) (first last : Nat) (point : α) : Nat :=
  min (first + ((sums.drop first).take (last - first)).findIdx fun sum => decide (point < sum))
    (last - 1)

/-- The point of a range at which a fraction of its weight lies. -/
def pointOf (sums : List α) (first last : Nat) (fraction : α) : α :=
  sumBefore sums first + fraction * (sumBefore sums last - sumBefore sums first)

/-- The index of a range whose interval holds the given fraction of the range's weight. -/
def pick (sums : List α) (first last : Nat) (fraction : α) : Nat :=
  firstAbove sums first last (pointOf sums first last fraction)

end Search

/-- The sums of weights as 64-bit numbers. -/
structure PrefixSums where
  sums : List Double
  deriving DecidableEq, Repr

namespace PrefixSums

/-- Builds the sums of weights, at least one of which must be positive. -/
def build (weights : List Single) : Except Error PrefixSums := do
  checkWeights .prefixSum weights
  let sums := prefixSums (weights.map Single.widen)
  if 0 < sumBefore sums sums.length then return ⟨sums⟩ else throw (.noMass .prefixSum)

/-- The number of indices. -/
def size (table : PrefixSums) : Nat := table.sums.length

/-- Draws an index of a range. -/
def drawBetween (table : PrefixSums) (first last : Nat) : Attempt Nat := do
  checkRange table.size first last
  if sumBefore table.sums first < sumBefore table.sums last then
    return pick table.sums first last (← WordStream.double)
  else throw (.noMassInRange first last)

/-- Draws an index. -/
def draw (table : PrefixSums) : Draw Nat := do
  match ← (table.drawBetween 0 table.size).run with
  | .ok index => return index
  | .error _ => return table.size - 1

/-- Whether an index has an interval that is not empty. -/
def isReachable (table : PrefixSums) (index : Nat) : Bool :=
  decide (index < table.size)
    && decide (sumBefore table.sums index < sumBefore table.sums (index + 1))

/-- How many indices have an interval that is not empty. -/
def support (table : PrefixSums) : Nat := countBelow table.size table.isReachable

end PrefixSums

end ShardedGraph.Kernel
