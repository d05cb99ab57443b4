import ShardedGraph.Cluster.Connect
import ShardedGraph.Cluster.Pools
import ShardedGraph.Http

/-!
# Clients

A client answers questions about a graph, either from the whole graph in its own process
or from a cluster. The questions and the form of the answers are the same for both.
-/

set_option autoImplicit false

namespace ShardedGraph

/-- A client of a graph. -/
inductive Client (σ : Type) where
  | whole (partition : Partition)
  | split (cluster : Cluster σ)

namespace Exchange

variable {σ α : Type}

/-- Does something that depends on the client's own chance alone. -/
def aside (attempt : Attempt α) : Exchange σ α := ExceptT.mk (onStream attempt.run)

end Exchange

/-! ## Paths in a partition -/

/-- The path of a start and the hops after it; a hop that was wanted must be there. -/
def pathFrom (start : NodeId) (wanted : UInt64) (hops : List NodeId) :
    Except Error (List NodeId) :=
  if 0 < wanted ∧ hops = [] then .error (.isolatedStart start) else .ok (start :: hops)

/-- How many hops a path of the given length has. -/
def hopsWanted (length : UInt64) : UInt64 := if length = 0 then 0 else length - 1

/-- Paths from every start, each of at most the given number of nodes. -/
def Partition.paths (partition : Partition) (starts : List NodeId) (lengths : List UInt64)
    (path : List NamespaceId) : Attempt (List (List NodeId)) := do
  let wanted := lengths.map hopsWanted
  let hops ← partition.walks { starts, lengths := wanted, offsets := [], path }
  let paths ← ((starts.zip wanted).zip hops).mapM fun ((start, wanted), hops) =>
    pathFrom start wanted hops
  return paths

namespace Client

variable {σ : Type}

/-! ## Making clients -/

/-- The client that loads the whole graph of a configuration. -/
def load (folder : Folder) (config : Config) (stream : WordStream) :
    Except Error (Client σ) :=
  .whole <$> Partition.load folder config stream

/-- The client of a graph that is already there. -/
def ofGraph (graph : Graph) (config : Config) (stream : WordStream) :
    Except Error (Client σ) :=
  .whole <$> Partition.build graph config stream

/-- The client of the shards of a transport. -/
def ofTransport (transport : Transport σ) (config : Config) : Exchange σ (Client σ) := do
  return .split (← Cluster.connect transport config)

/-- The transport over a network to the shards that a configuration lists. -/
def listedTransport (network : Http.Network σ) (config : Config) :
    Except Error (Transport σ) :=
  let addresses := config.shardAddresses
  if addresses.length = config.shardCount.toNat then Http.connect network addresses
  else .error (.addressCount addresses.length config.shardCount.toNat)

/-- The client of the shards that a configuration lists. -/
def connect (network : Http.Network σ) (config : Config) : Exchange σ (Client σ) := do
  let transport ← listedTransport network config
  ofTransport transport config

/-! ## Questions -/

/-- Whether the graph is split among shards. -/
def isSplit : Client σ → Bool
  | whole _ => false
  | split _ => true

/-- The number of namespace slots. -/
def slots : Client σ → Nat
  | whole partition => partition.graph.slots
  | split cluster => cluster.slots

/-- Negative nodes for every namespace that the query nodes touch. -/
def sharedNegatives (client : Client σ) (query : NegativeQuery) :
    Exchange σ (List (List NodeId)) :=
  match client with
  | whole partition => Exchange.aside
      (partition.negatives.sample .shared query.count.toNat query.nodes query.excluded)
  | split cluster => cluster.sharedNegatives query

/-- Negative nodes for every query node. -/
def independentNegatives (client : Client σ) (query : NegativeQuery) :
    Exchange σ (List (List NodeId)) :=
  match client with
  | whole partition => Exchange.aside
      (partition.negatives.sample .independent query.count.toNat query.nodes query.excluded)
  | split cluster => cluster.independentNegatives query

/-- Neighbors of every query node. -/
def neighbors (client : Client σ) (query : NeighborQuery) : Exchange σ (List (List NodeId)) :=
  match client with
  | whole partition =>
      Exchange.aside (partition.neighbors.sample query.count.toInt query.nodes)
  | split cluster => cluster.neighbors query

/-- Paths from every start, each of at most the given number of nodes. -/
def walk (client : Client σ) (starts : List NodeId) (lengths : List UInt64)
    (path : List NamespaceId) : Exchange σ (List (List NodeId)) :=
  match client with
  | whole partition => Exchange.aside (partition.paths starts lengths path)
  | split cluster => cluster.walk starts lengths path

/-- Both features of every node. -/
def features (client : Client σ) (nodes : List NodeId) :
    Exchange σ (List Feature × List Feature) :=
  match client with
  | whole partition => return (partition.nodeFeatures nodes, partition.neighborFeatures nodes)
  | split cluster => cluster.features nodes

/-- The features of nodes. -/
def nodeFeatures (client : Client σ) (nodes : List NodeId) : Exchange σ (List Feature) :=
  match client with
  | whole partition => return partition.nodeFeatures nodes
  | split cluster => cluster.nodeFeatures nodes

/-- The features of nodes as neighbors. -/
def neighborFeatures (client : Client σ) (nodes : List NodeId) : Exchange σ (List Feature) :=
  match client with
  | whole partition => return partition.neighborFeatures nodes
  | split cluster => cluster.neighborFeatures nodes

/-- The contexts of nodes, at least one of which must not be empty. -/
def contexts (client : Client σ) (nodes : List NodeId) : Exchange σ (List Context) :=
  match client with
  | whole partition => do return ← partition.contexts nodes
  | split cluster => cluster.contexts nodes

/-- The value of a key at every shard; a whole graph counts as one shard. -/
def metaValues (client : Client σ) (key : String) : Exchange σ (List String) :=
  match client with
  | whole partition => do return [← partition.metaValue key]
  | split cluster => cluster.metaValues key

end Client

end ShardedGraph
