import ShardedGraph.Number.Binary

/-!
# Nodes, namespaces and weighted lists

A node is a 64-bit identifier. Its top 12 bits are the namespace that the node
belongs to, its other 52 bits a sequence number inside that namespace, so ordering
nodes by identifier groups them by namespace.

**Absent features.** A lookup that finds no feature answers the single pair
`(0, 0.0)`, never an empty list, so an answer that says "absent" differs from an
answer that was never given.
-/

set_option autoImplicit false

namespace ShardedGraph

open Number

/-- A 64-bit node identifier. -/
abbrev NodeId : Type := UInt64

/-- The number of a namespace. -/
abbrev NamespaceId : Type := UInt16

/-- The weighted neighbors of a node. -/
abbrev Context : Type := List (NodeId × Single)

/-- The valued attributes of a node. -/
abbrev Feature : Type := List (UInt64 × Single)

/-- How many nodes a list has room for: its octets, eight for each node, are counted in 63 bits. -/
def listLimit : Nat := (Nat.pow 2 63 - 1) / 8

/-- How many namespaces the top bits of a node can name. -/
def namespaceLimit : Nat := 4096

/-- The namespace in the top bits of a node. -/
def namespaceOf (node : NodeId) : NamespaceId := (node >>> 52).toUInt16

/-- The node of a namespace and a sequence number; bits that do not fit are dropped. -/
def makeNode (ns : NamespaceId) (sequence : UInt64) : NodeId :=
  (ns.toUInt64 <<< 52) ||| (sequence &&& 0xFFFFFFFFFFFFF)

/-- The feature that is answered for a node without one. -/
def absentFeature : Feature := [(0, 0)]

/-- Whether a feature says that the node has none; a zero of either sign counts. -/
def isAbsentFeature : Feature → Bool
  | [(key, value)] => key == 0 && value.isZero
  | _ => false

/-- A feature that was found, or the absent one. -/
def featureOrAbsent (found : Option Feature) : Feature := found.getD absentFeature

end ShardedGraph
