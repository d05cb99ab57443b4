import ShardedGraph.Kernel.Alias
import ShardedGraph.Kernel.PrefixSum
import ShardedGraph.Kernel.Unigram

/-!
# Kernels

A kernel draws an index with given weights. It is built once and does not change. What
it can draw is said by `Kernel.isReachable`, and how many indices that are by
`Kernel.support`. Uniform kernels and prefix sums also draw from a range of indices.
-/

set_option autoImplicit false

namespace ShardedGraph

open Number

/-- A way to draw an index, ready to draw. -/
inductive Kernel where
  /-- Equal chances for this many indices. -/
  | uniform (size : Nat)
  | aliased (table : Kernel.AliasTable)
  | unigram (table : Kernel.UnigramTable)
  | prefixSum (table : Kernel.PrefixSums)
  deriving DecidableEq, Repr

namespace Kernel

/-- Builds a kernel of the given kind over weights. -/
def build (kind : KernelKind) (weights : List Single) : Except Error Kernel :=
  match kind with
  | .uniform => do
      checkWeights .uniform weights
      return uniform weights.length
  | .aliased => aliased <$> AliasTable.build weights
  | .unigram => unigram <$> UnigramTable.build weights
  | .prefixSum => prefixSum <$> PrefixSums.build weights

/-- The kind of a kernel. -/
def kind : Kernel → KernelKind
  | uniform _ => .uniform
  | aliased _ => .aliased
  | unigram _ => .unigram
  | prefixSum _ => .prefixSum

/-- The number of indices that a kernel was built over. -/
def size : Kernel → Nat
  | uniform size => size
  | aliased table => table.size
  | unigram table => table.size
  | prefixSum table => table.size

/-- Draws an index. -/
def draw : Kernel → Draw Nat
  | uniform size => WordStream.below size
  | aliased table => table.draw
  | unigram table => table.draw
  | prefixSum table => table.draw

/-- Draws an index at least `first` and below `last`. -/
def drawBetween (kernel : Kernel) (first last : Nat) : Attempt Nat :=
  match kernel with
  | uniform size => do
      checkRange size first last
      WordStream.between first last
  | prefixSum table => table.drawBetween first last
  | aliased _ => throw (.rangeUnsupported .aliased)
  | unigram _ => throw (.rangeUnsupported .unigram)

/-- Whether a draw can give an index. -/
def isReachable (kernel : Kernel) (index : Nat) : Bool :=
  match kernel with
  | uniform size => decide (index < size)
  | aliased table => table.isReachable index
  | unigram table => table.isReachable index
  | prefixSum table => table.isReachable index

/-- How many indices a draw can give. -/
def support : Kernel → Nat
  | uniform size => size
  | aliased table => table.support
  | unigram table => table.support
  | prefixSum table => table.support

end Kernel

end ShardedGraph
