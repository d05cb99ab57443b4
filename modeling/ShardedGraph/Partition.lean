import ShardedGraph.Config
import ShardedGraph.Graph.Load
import ShardedGraph.HotNodes
import ShardedGraph.Negative.Sample
import ShardedGraph.Neighbor.Sample
import ShardedGraph.Walk

/-!
# Partitions

A partition is the part of a graph that one shard holds, with everything it draws from,
built once. It answers every request (`Partition.answer`). A partition that holds the
whole graph answers the same questions for a client in the same process.

A shard sees only its slice of a batch, so it answers nodes without contexts or neighbors
with empty lists. Whoever sees the whole batch decides whether it found anything.
-/

set_option autoImplicit false

namespace ShardedGraph

/-- The key of the totals of a shard. -/
def totalsKey : String := "__RPC_NAME_NODE_FREQ__"

/-- The key of the page size of a shard. -/
def pageSizeKey : String := "__RPC_NAME_MAX_NODE_PER_RPC__"

/-- Refuses contexts that are all empty although nodes were asked for. -/
def requireContexts (contexts : List Context) : Except Error Unit :=
  if contexts ≠ [] ∧ contexts.all List.isEmpty then .error (.noContexts contexts.length)
  else .ok ()

/-- A part of a graph, ready to answer. -/
structure Partition where
  graph : Graph
  negatives : NegativePools
  neighbors : NeighborTables
  walker : Walker
  hotNodes : List NodeId
  pageSize : UInt64

namespace Partition

/-! ## Building -/

/-- Builds everything that a configuration asks for over a graph. -/
def build (graph : Graph) (config : Config) (stream : WordStream) : Except Error Partition := do
  config.check
  let negatives ← NegativePools.build graph.source config.negativeKernel
  let neighbors ← NeighborTables.build graph.source config.neighborKernel
  let walker ← if config.pathWalks then Walker.withPaths neighbors else .ok (.free neighbors)
  let hotNodes ← HotNodes.select graph config.hotRule config.hotThreshold
    (config.workers?.getD 1) stream
  return { graph, negatives, neighbors, walker, hotNodes, pageSize := config.pageSize }

/-- Loads the graph that a configuration describes and builds everything over it. -/
def load (folder : Folder) (config : Config) (stream : WordStream) :
    Except Error Partition := do
  config.check
  build (← Graph.load folder config) config stream

/-! ## Answers -/

variable (partition : Partition)

/-- The totals of all slots as text. -/
def totalsText : String := ",".intercalate (partition.graph.totals.map Number.Binary.text)

/-- The value of a key. -/
def metaValue (key : String) : Except Error String :=
  if key = totalsKey then .ok partition.totalsText
  else if key = pageSizeKey then .ok (toString partition.pageSize)
  else .error (.unknownMetaKey key)

/-- The features of nodes. -/
def nodeFeatures (nodes : List NodeId) : List Feature :=
  nodes.map fun node => featureOrAbsent (partition.graph.nodeFeature? node)

/-- The features of nodes as neighbors. -/
def neighborFeatures (nodes : List NodeId) : List Feature :=
  nodes.map fun node => featureOrAbsent (partition.graph.neighborFeature? node)

/-- The contexts of nodes, whether or not they are empty. -/
def contextsPartial (nodes : List NodeId) : List Context :=
  nodes.map fun node => (partition.graph.context? node).getD []

/-- The contexts of nodes, at least one of which must not be empty. -/
def contexts (nodes : List NodeId) : Except Error (List Context) := do
  let found := partition.contextsPartial nodes
  requireContexts found
  return found

/-- A page of the hot nodes. -/
def hotPage (cursor count : Nat) : Except Error (List NodeId) :=
  if partition.hotNodes.length < cursor then
    .error (.cursorPastEnd cursor partition.hotNodes.length)
  else .ok ((partition.hotNodes.drop cursor).take count)

/-- Walks that are given by a request. -/
def walks (query : WalkQuery) : Attempt (List (List NodeId)) :=
  partition.walker.traverse query.starts (query.lengths.map UInt64.toNat)
    (query.offsets.map UInt64.toNat) query.path

/-- Answers a request. -/
def answer : Request → Attempt Reply
  | .metaValue key => do return .metaValue (← partition.metaValue key)
  | .sharedNegatives query => do
      return .negatives
        (← partition.negatives.sample .shared query.count.toNat query.nodes query.excluded)
  | .independentNegatives query => do
      return .negatives
        (← partition.negatives.sample .independent query.count.toNat query.nodes query.excluded)
  | .neighbors query => do
      return .neighbors (← partition.neighbors.samplePartial query.count.toInt query.nodes)
  | .walks query => do return .walks (← partition.walks query)
  | .features nodes =>
      return .features (partition.nodeFeatures nodes) (partition.neighborFeatures nodes)
  | .nodeFeatures nodes => return .nodeFeatures (partition.nodeFeatures nodes)
  | .neighborFeatures nodes => return .neighborFeatures (partition.neighborFeatures nodes)
  | .contexts nodes => return .contexts (partition.contextsPartial nodes)
  | .hotNodes query => do
      return .hotNodes (← partition.hotPage query.cursor.toNat query.count.toNat)

end Partition

end ShardedGraph
