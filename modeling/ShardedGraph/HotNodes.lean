import ShardedGraph.Graph
import ShardedGraph.Random.WordStream
import ShardedGraph.Slices

/-!
# Hot nodes

Clients keep the answers about hot nodes. Which nodes with a context are hot is decided
by a rule and a threshold; the threshold zero makes no node hot.

**Chance** keeps each node with the threshold as its probability, in ascending order.
**Degree** keeps the threshold's share of the nodes, those with the most neighbors, equal
ones ascending. **Importance** keeps the nodes, ascending, whose references exceed their
neighbors by more than the threshold as a factor, one being added on both sides.

Rules that look at one node at a time are applied by several workers, each to a slice of
the nodes, and what they keep is joined in order.
-/

set_option autoImplicit false

namespace ShardedGraph.HotNodes

open Number

/-- Keeps each node with the given probability. -/
def keepByChance (probability : Double) : List NodeId → Draw (List NodeId)
  | [] => return []
  | node :: nodes => do
      let fraction ← WordStream.double
      let kept ← keepByChance probability nodes
      return if fraction < probability then node :: kept else kept

/-- The nodes with a context, from the most neighbors to the fewest. -/
def byDegree (graph : Graph) : List NodeId :=
  graph.keys.mergeSort fun x y => decide (graph.outDegree y ≤ graph.outDegree x)

/-- The references of a node over its neighbors, one being added to both. -/
def importance (graph : Graph) (node : NodeId) : Double :=
  (.ofNat (graph.inDegree node) + 1) / (.ofNat (graph.outDegree node) + 1)

/-- The largest number of nodes that a rule can ask for. -/
def countLimit : Nat := UInt64.size - 1

/-- Keeps the nodes of each slice with the given probability. -/
def keepSlices (probability : Double) (slices : List (List NodeId)) : Draw (List NodeId) := do
  return (← slices.mapM (keepByChance probability)).flatten

/-- Selects the hot nodes of a graph. -/
def select (graph : Graph) (rule : HotRule) (threshold : Double) (workers : Nat)
    (stream : WordStream) : Except Error (List NodeId) :=
  if ¬ 0 ≤ threshold then .error (.badHotThreshold threshold)
  else if threshold.isZero then .ok []
  else
    let share := .ofNat graph.keys.length * threshold
    match rule with
    | .random =>
        if share < 1 then .error (.nothingHot .random threshold graph.keys.length)
        else .ok (keepSlices threshold (slicesFor workers graph.keys) stream).1
    | .degree =>
        let count := share.floorToNat countLimit
        if count < 1 then .error (.nothingHot .degree threshold graph.keys.length)
        else .ok ((byDegree graph).take count)
    | .importance =>
        .ok ((slicesFor workers graph.keys).flatMap fun slice =>
          slice.filter fun node => threshold < importance graph node)

end ShardedGraph.HotNodes
