import ShardedGraph.Graph

/-!
# Sources of samples

A source is what samples are drawn from: for each namespace slot a list of nodes with a
parallel list of frequencies, and possibly contexts. A graph is a source. A frequency
table is a source without contexts, for drawing negative nodes only.

Every source that is made here lists a node at most once, in the slot of its namespace.
-/

set_option autoImplicit false

namespace ShardedGraph

open Number

/-- What samples are drawn from. -/
structure Source where
  namespaces : NamespaceTable
  /-- The nodes of each slot. -/
  nodes : List (List NodeId)
  /-- The frequencies of the nodes of each slot. -/
  frequencies : List (List Single)
  /-- The nodes that have a context, if the source knows contexts at all. -/
  keys : Except Error (List NodeId)
  context? : NodeId → Option Context

/-- The number of namespace slots of a source. -/
def Source.slots (source : Source) : Nat := source.nodes.length

/-- A graph as a source. -/
def Graph.source (graph : Graph) : Source where
  namespaces := graph.namespaces
  nodes := graph.nodes
  frequencies := graph.frequencies
  keys := .ok graph.keys
  context? := graph.context?

/-! ## Frequency tables -/

/-- Frequencies of nodes, without contexts. -/
structure FrequencyTable where
  namespaces : NamespaceTable
  nodes : List (List NodeId)
  frequencies : List (List Single)

namespace FrequencyTable

/-- Refuses a slot whose nodes belong elsewhere or repeat. -/
def checkNodes (slot : Nat) : List NodeId → List NodeId → Except Error Unit
  | _, [] => .ok ()
  | seen, node :: nodes =>
      if (namespaceOf node).toNat ≠ slot then .error (.misplacedNode node slot)
      else if seen.contains node then .error (.repeatedNode node)
      else checkNodes slot (node :: seen) nodes

/-- Refuses a slot whose lists differ in length or whose nodes do not fit it. -/
def checkSlot (entry : (List NodeId × List Single) × Nat) : Except Error Unit :=
  let ((nodes, frequencies), slot) := entry
  if nodes.length ≠ frequencies.length then
    .error (.tableLengths slot nodes.length frequencies.length)
  else checkNodes slot [] nodes

/-- The table of the given lists, one of each for every slot. -/
def ofLists (namespaces : NamespaceTable) (nodes : List (List NodeId))
    (frequencies : List (List Single)) : Except Error FrequencyTable := do
  if nodes.length ≠ namespaces.slots ∨ frequencies.length ≠ nodes.length then
    throw (.tableSlots namespaces.slots nodes.length frequencies.length)
  (nodes.zip frequencies).zipIdx.forM checkSlot
  return ⟨namespaces, nodes, frequencies⟩

/-- Adds a frequency to a node of a configured namespace. -/
def addCount (namespaces : NamespaceTable) (counts : NodeMap Single) (entry : NodeId × Single) :
    Except Error (NodeMap Single) :=
  if namespaces.contains (namespaceOf entry.1) then
    .ok (counts.alter entry.1 fun before => some (before.getD 0 + entry.2))
  else .error (.uncountedNamespace entry.1)

/-- The table of the given frequencies; those of one node are added in order. -/
def ofCounts (namespaces : NamespaceTable) (counts : List (NodeId × Single)) :
    Except Error FrequencyTable := do
  let entries := (← counts.foldlM (addCount namespaces) ∅).toList
  let slots := (List.range namespaces.slots).map fun slot =>
    entries.filter fun entry => (namespaceOf entry.1).toNat == slot
  ofLists namespaces (slots.map fun slot => slot.map Prod.fst)
    (slots.map fun slot => slot.map Prod.snd)

/-- A frequency table as a source. -/
def source (table : FrequencyTable) : Source where
  namespaces := table.namespaces
  nodes := table.nodes
  frequencies := table.frequencies
  keys := .error .noKeys
  context? := fun _ => none

end FrequencyTable

end ShardedGraph
