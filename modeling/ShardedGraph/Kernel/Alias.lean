import ShardedGraph.Kernel.Weights
import ShardedGraph.Random.WordStream

/-!
# Alias tables

An alias table has one bucket for every index. A draw picks a bucket with equal chances
and then either keeps its index or takes its alias, so one index and one fraction decide.

**Construction.** The weights are scaled so that the buckets hold one each on average.
A bucket that holds less than one is finished by an alias that holds at least one and
gives away what the bucket lacks; the alias then counts as what it has left. This ends
when all buckets left hold less than one, or all hold at least one: then each of them
holds exactly one but for rounding, and is set to one.

The construction and the choice are stated for any numbers, so that they can be run with exact
fractions.
-/

set_option autoImplicit false

namespace ShardedGraph.Kernel

open Number

/-! ## Construction -/

section Construction

variable {α : Type} [Zero α] [One α] [Add α] [Sub α] [Mul α] [Div α] [NatCast α]
variable [LT α] [DecidableLT α]

/-- For each bucket, how much of it keeps its own index, and which index has the rest. -/
structure Buckets (α : Type) where
  keep : List α
  rest : List Nat
  deriving DecidableEq, Repr

/-- The sum of a list, from the left. -/
def total (weights : List α) : α := weights.foldl (· + ·) 0

/-- The weights, scaled to one on average. -/
def scaled (weights : List α) : List α :=
  let size : α := weights.length
  let sum := total weights
  weights.map fun weight => weight * size / sum

/-- Sets the buckets at the given indices to one. -/
def fill (keep : List α) (indices : List Nat) : List α :=
  indices.foldl (fun keep index => keep.set index 1) keep

/-- Pairs small buckets with large ones, the last of each first. -/
def pair (buckets : Buckets α) : List Nat → List Nat → Buckets α
  | small :: smaller, large :: larger =>
      let left := buckets.keep.getD large 0 + (buckets.keep.getD small 0 - 1)
      let next : Buckets α := ⟨buckets.keep.set large left, buckets.rest.set small large⟩
      if left < 1 then pair next (large :: smaller) larger
      else pair next smaller (large :: larger)
  | smaller, larger => { buckets with keep := fill buckets.keep (smaller ++ larger) }
termination_by smaller larger => smaller.length + larger.length

/-- The buckets of a list of weights. -/
def Buckets.ofWeights (weights : List α) : Buckets α :=
  let keep := scaled weights
  let indices := List.range weights.length
  let isSmall := fun index => decide (keep.getD index 0 < 1)
  pair ⟨keep, indices⟩ (indices.filter isSmall).reverse
    (indices.filter fun index => !isSmall index).reverse

/-- The index that a bucket gives for a fraction: its own one when the fraction lies below its
share, and its alias otherwise. -/
def Buckets.pick (buckets : Buckets α) (bucket : Nat) (fraction : α) : Nat :=
  if fraction < buckets.keep.getD bucket 0 then bucket else buckets.rest.getD bucket 0

end Construction

/-! ## Tables -/

/-- A table of buckets whose shares are compared with 32-bit fractions. -/
abbrev AliasTable : Type := Buckets Single

namespace AliasTable

/-- Builds a table over weights, at least one of which must be positive. -/
def build (weights : List Single) : Except Error AliasTable := do
  checkWeights .aliased weights
  checkSize .aliased weights.length
  let wide := weights.map Single.widen
  if 0 < total wide then
    let buckets := Buckets.ofWeights wide
    return ⟨buckets.keep.map Double.narrow, buckets.rest⟩
  else throw (.noMass .aliased)

/-- The number of indices. -/
def size (table : AliasTable) : Nat := table.keep.length

/-- Draws an index. -/
def draw (table : AliasTable) : Draw Nat := do
  let bucket ← WordStream.below table.size
  let fraction ← WordStream.single
  return table.pick bucket fraction

/-- Whether an index is kept by its bucket or is the alias of an unfinished one. -/
def isReachable (table : AliasTable) (index : Nat) : Bool :=
  decide (0 < table.keep.getD index 0)
    || (table.keep.zip table.rest).any fun (keep, rest) => rest == index && decide (keep < 1)

/-- How many indices are kept or given away. -/
def support (table : AliasTable) : Nat := countBelow table.size table.isReachable

end AliasTable

end ShardedGraph.Kernel
