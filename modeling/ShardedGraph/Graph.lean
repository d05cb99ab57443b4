import ShardedGraph.Namespace

/-!
# Graphs

A graph holds the weighted neighbors and the features of nodes. It is built from a list
of insertions and does not change afterwards.

**Contexts.** All neighbors that are inserted for a node belong to one context. A built
context is ascending by neighbor, so neighbors of one namespace stand together, and names
every neighbor once, with its weights added in the order of insertion. A feature that is
inserted again replaces the one before.

**Statistics.** A node occurs once for having a context and once for every context that
names it. For each namespace slot the graph lists the nodes that occur, ascending, with
their numbers of occurrences. The contexts that name a node are also counted on their own, in
32 bits: past what these can hold the count begins again at zero.
-/

set_option autoImplicit false

namespace ShardedGraph

open Number

/-! ## Insertions -/

/-- What may be said about a graph before it is built. -/
inductive Insertion where
  /-- More neighbors of a node. -/
  | context (node : NodeId) (neighbors : Context)
  | nodeFeature (node : NodeId) (feature : Feature)
  | neighborFeature (node : NodeId) (feature : Feature)
  deriving DecidableEq, Repr

namespace Insertion

/-- The node that an insertion is about. -/
def node : Insertion → NodeId
  | context node _ | nodeFeature node _ | neighborFeature node _ => node

end Insertion

/-- Values of nodes. -/
abbrev NodeMap (α : Type) : Type := Std.ExtTreeMap NodeId α

/-- What insertions have said so far. -/
structure Draft where
  contexts : NodeMap Context
  nodeFeatures : NodeMap Feature
  neighborFeatures : NodeMap Feature

namespace Draft

/-- Nothing said. -/
def empty : Draft := ⟨∅, ∅, ∅⟩

/-- Takes one insertion. -/
def insert (draft : Draft) : Insertion → Draft
  | .context node neighbors =>
      { draft with
        contexts := draft.contexts.alter node fun before => some (before.getD [] ++ neighbors) }
  | .nodeFeature node feature =>
      { draft with nodeFeatures := draft.nodeFeatures.insert node feature }
  | .neighborFeature node feature =>
      { draft with neighborFeatures := draft.neighborFeatures.insert node feature }

/-- Takes insertions in order. -/
def ofInsertions (insertions : List Insertion) : Draft := insertions.foldl insert empty

end Draft

/-! ## Built contexts -/

/-- Adds the weights of equal neighbors that stand next to each other. -/
def mergeEqual : Context → Context
  | [] => []
  | [entry] => [entry]
  | first :: second :: rest =>
      if first.1 = second.1 then mergeEqual ((first.1, first.2 + second.2) :: rest)
      else first :: mergeEqual (second :: rest)
termination_by context => context.length

/-- A context in ascending order, every neighbor once. -/
def normalize (context : Context) : Context :=
  mergeEqual (context.mergeSort fun x y => decide (x.1 ≤ y.1))

/-! ## Graphs -/

/-- A built graph. -/
structure Graph where
  namespaces : NamespaceTable
  contexts : NodeMap Context
  nodeFeatures : NodeMap Feature
  neighborFeatures : NodeMap Feature
  /-- How many contexts name a node, in 32 bits, for the nodes that some context names. -/
  references : NodeMap UInt32
  /-- For each slot, the nodes that occur, with their numbers of occurrences. -/
  pools : List (List (NodeId × Nat))

namespace Graph

section Counts

variable {α : Type} [OfNat α 0] [OfNat α 1] [Add α]

/-- Counts one more of a node. -/
def countOne (counts : NodeMap α) (node : NodeId) : NodeMap α :=
  counts.alter node fun before => some (before.getD 0 + 1)

/-- How many contexts name each node. -/
def countReferences (contexts : NodeMap Context) : NodeMap α :=
  contexts.values.foldl (fun counts context => (context.map Prod.fst).foldl countOne counts) ∅

end Counts

/-- How often each node occurs. -/
def countOccurrences (contexts : NodeMap Context) : NodeMap Nat :=
  contexts.keys.foldl countOne (countReferences contexts)

/-- The counted nodes of each slot. -/
def poolsOf (slots : Nat) (counts : NodeMap Nat) : List (List (NodeId × Nat)) :=
  let entries := counts.toList
  (List.range slots).map fun slot =>
    entries.filter fun entry => (namespaceOf entry.1).toNat == slot

/-- Refuses nodes whose namespaces have no names: keys with their neighbors, by key. -/
def checkNamespaces (namespaces : NamespaceTable) (contexts : NodeMap Context) :
    Except Error Unit :=
  let nodes := contexts.toList.flatMap fun (node, context) => node :: context.map Prod.fst
  match nodes.find? fun node => !namespaces.contains (namespaceOf node) with
  | some node => .error (.unknownNamespace node)
  | none => .ok ()

/-- Builds the graph that a draft describes. -/
def ofDraft (namespaces : NamespaceTable) (draft : Draft) : Except Error Graph := do
  checkNamespaces namespaces draft.contexts
  let contexts := draft.contexts.map fun _ context => normalize context
  return {
    namespaces
    contexts
    nodeFeatures := draft.nodeFeatures
    neighborFeatures := draft.neighborFeatures
    references := countReferences contexts
    pools := poolsOf namespaces.slots (countOccurrences contexts) }

/-- Builds a graph from insertions. -/
def build (namespaces : NamespaceTable) (insertions : List Insertion) : Except Error Graph :=
  ofDraft namespaces (Draft.ofInsertions insertions)

/-! ## Queries -/

/-- The nodes that have a context, ascending. -/
def keys (graph : Graph) : List NodeId := graph.contexts.keys

/-- The context of a node. -/
def context? (graph : Graph) (node : NodeId) : Option Context := graph.contexts[node]?

def nodeFeature? (graph : Graph) (node : NodeId) : Option Feature := graph.nodeFeatures[node]?

def neighborFeature? (graph : Graph) (node : NodeId) : Option Feature :=
  graph.neighborFeatures[node]?

/-- How many neighbors a node has. -/
def outDegree (graph : Graph) (node : NodeId) : Nat :=
  ((graph.context? node).map List.length).getD 0

/-- How many contexts name a node, as counted in 32 bits. -/
def inDegree (graph : Graph) (node : NodeId) : Nat := (graph.references[node]?.getD 0).toNat

/-- The number of namespace slots. -/
def slots (graph : Graph) : Nat := graph.pools.length

/-- The nodes of each slot, ascending. -/
def nodes (graph : Graph) : List (List NodeId) := graph.pools.map fun pool => pool.map Prod.fst

/-- The numbers of occurrences of the nodes of each slot. -/
def frequencies (graph : Graph) : List (List Single) :=
  graph.pools.map fun pool => pool.map fun entry => .ofNat entry.2

/-- The total of a pool. The total of no node is a negative zero, so it differs from a
total of zeros. -/
def poolTotal (pool : List (NodeId × Nat)) : Double :=
  if pool.isEmpty then .zero true else .ofNat (pool.foldl (fun total entry => total + entry.2) 0)

/-- The total of the occurrences of each slot. -/
def totals (graph : Graph) : List Double := graph.pools.map poolTotal

end Graph

end ShardedGraph
