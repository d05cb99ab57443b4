/-!
# Kinds of kernels and of hot-node rules

A kernel is a way to draw an index with given weights; a hot-node rule is a way to
choose the nodes that clients keep at hand. Both are named in configurations, and
both have a number. Only two kernels can draw from a part of their indices.
-/

set_option autoImplicit false

namespace ShardedGraph

/-- The ways to draw an index with given weights. -/
inductive KernelKind where
  | uniform
  | aliased
  | unigram
  | prefixSum
  deriving DecidableEq, Repr, Inhabited

namespace KernelKind

/-- The name of a kernel in configurations and messages. -/
def name : KernelKind → String
  | uniform => "uniform"
  | aliased => "alias"
  | unigram => "unigram"
  | prefixSum => "partial_sum"

/-- Whether a kernel can draw from a part of its indices. -/
def supportsRange : KernelKind → Bool
  | uniform | prefixSum => true
  | aliased | unigram => false

/-- The kernels, by number. -/
def all : List KernelKind := [uniform, aliased, unigram, prefixSum]

/-- The kernel with the given number. -/
def ofCode? (code : Int) : Option KernelKind :=
  if code < 0 then none else all[code.toNat]?

/-- The kernel with the given name. -/
def ofName? (name : String) : Option KernelKind := all.find? fun kind => kind.name == name

end KernelKind

/-- The ways to choose hot nodes. -/
inductive HotRule where
  /-- Each node by chance. -/
  | random
  /-- The nodes with the most neighbors. -/
  | degree
  /-- The nodes with many references for their neighbors. -/
  | importance
  deriving DecidableEq, Repr, Inhabited

namespace HotRule

/-- The name of a rule in configurations. -/
def name : HotRule → String
  | random => "random"
  | degree => "degree"
  | importance => "importance"

/-- The rules, by number. -/
def all : List HotRule := [random, degree, importance]

/-- The rule with the given number. -/
def ofCode? (code : Int) : Option HotRule :=
  if code < 0 then none else all[code.toNat]?

/-- The rule with the given name. -/
def ofName? (name : String) : Option HotRule := all.find? fun rule => rule.name == name

end HotRule

end ShardedGraph
