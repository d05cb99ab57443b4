import ShardedGraph.Kernel
import ShardedGraph.Source

/-!
# Neighbor tables

A neighbor of a node is drawn from its context. Uniform tables draw from the context
itself. Tables of the other kinds keep a kernel for every node with a context, whose
weights are the weights of the neighbors divided by their sum; they need contexts that
are not empty and weights that are positive.
-/

set_option autoImplicit false

namespace ShardedGraph

open Number

/-- The ways to draw a neighbor of each node of a source. -/
structure NeighborTables where
  source : Source
  kind : KernelKind
  /-- The kernels of the nodes; none for uniform tables. -/
  tables : NodeMap Kernel

namespace NeighborTables

/-! ## Building -/

/-- The kernel of a node. -/
def buildTable (source : Source) (kind : KernelKind) (node : NodeId) : Except Error Kernel :=
  match source.context? node with
  | none => .error (.noContext node)
  | some [] => .error (.emptyContext node)
  | some context =>
      match context.find? fun entry => !decide (0 < entry.2) with
      | some bad => .error (.badEdge node bad.1 bad.2)
      | none =>
          let weights := context.map Prod.snd
          let sum := weights.foldl (· + ·) 0
          Kernel.build kind (weights.map fun weight => weight / sum)

/-- Adds the kernel of a node. -/
def addTable (source : Source) (kind : KernelKind) (tables : NodeMap Kernel) (node : NodeId) :
    Except Error (NodeMap Kernel) := do
  return tables.insert node (← buildTable source kind node)

/-- Builds the tables of a source. -/
def build (source : Source) (kind : KernelKind) : Except Error NeighborTables :=
  match kind with
  | .uniform => .ok ⟨source, .uniform, ∅⟩
  | kind => do
      let tables ← (← source.keys).foldlM (addTable source kind) ∅
      return ⟨source, kind, tables⟩

/-! ## Queries -/

/-- The neighbors of a node that a draw can give, in the order of the context. -/
def drawable? (tables : NeighborTables) (node : NodeId) : Option (List NodeId) := do
  let context ← tables.source.context? node
  if tables.kind = .uniform then return context.map Prod.fst
  else
    let kernel ← tables.tables[node]?
    return (context.zipIdx.filter fun (_, index) => kernel.isReachable index).map
      fun (entry, _) => entry.1

/-- How many neighbors of a node a draw can give. -/
def support (tables : NeighborTables) (node : NodeId) : Nat :=
  if tables.kind = .uniform then ((tables.source.context? node).map List.length).getD 0
  else (tables.tables[node]?.map Kernel.support).getD 0

/-! ## Draws -/

/-- Draws a neighbor; a node without neighbors gives none. -/
def draw (tables : NeighborTables) (node : NodeId) : Draw (Option NodeId) :=
  match tables.source.context? node with
  | none | some [] => return none
  | some context =>
      if tables.kind = .uniform then do
        let index ← WordStream.below context.length
        return (context[index]?).map Prod.fst
      else
        match tables.tables[node]? with
        | none => return none
        | some kernel => do
            let index ← kernel.draw
            return (context[index]?).map Prod.fst

/-- Draws a neighbor at an index at least `first` and below `last`. -/
def drawBetween (tables : NeighborTables) (node : NodeId) (first last : Nat) :
    Attempt (Option NodeId) := do
  match tables.source.context? node with
  | none => return none
  | some context =>
      if last ≤ first ∨ context.length < last then
        throw (.badContextRange first last node context.length)
      if tables.kind = .uniform then
        let index ← WordStream.between first last
        return (context[index]?).map Prod.fst
      else
        match tables.tables[node]? with
        | none => return none
        | some kernel =>
            let index ← kernel.drawBetween first last
            return (context[index]?).map Prod.fst

end NeighborTables

end ShardedGraph
