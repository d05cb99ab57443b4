import ShardedGraph.Cluster.Lookup
import ShardedGraph.Cluster.Paths
import ShardedGraph.Cluster.Scan
import ShardedGraph.Kernel.Alias
import ShardedGraph.Partition

/-!
# Clusters

A cluster is what a client knows of a graph that is split among shards: how to call them,
what they agreed on when the client connected, how the nodes of each namespace are spread
over them, and a cache of hot nodes.

Questions about single nodes are routed to the owners of the nodes. An answer for a batch
is refused here, where the whole batch is seen, when nothing at all was found
(`Cluster.neighbors`, `Cluster.contexts`).
-/

set_option autoImplicit false

namespace ShardedGraph

/-- A client's side of a graph that is split among shards. -/
structure Cluster (σ : Type) where
  link : Link σ
  /-- How many nodes one request carries at most. -/
  pageSize : Nat
  /-- The number of namespace slots. -/
  slots : Nat
  /-- For each slot, how its nodes are spread over the shards, if it has any. -/
  shares : List (Option Kernel.AliasTable)
  cache : Cache

namespace Cluster

variable {σ : Type}

/-- The number of shards. -/
def shards (cluster : Cluster σ) : Nat := cluster.link.transport.shards

/-- The value of a key at every shard. -/
def metaValues (cluster : Cluster σ) (key : String) : Exchange σ (List String) :=
  cluster.link.broadcast Reply.metaValue? (.metaValue key)

/-! ## Draws -/

/-- Negative nodes for every query node, drawn by its owner. -/
def independentNegatives (cluster : Cluster σ) (query : NegativeQuery) :
    Exchange σ (List (List NodeId)) :=
  cluster.link.lookup (fun _ => none)
    (fun nodes => .independentNegatives { query with nodes }) Reply.pools? query.nodes

/-- Neighbors of every query node, drawn by its owner. -/
def neighbors (cluster : Cluster σ) (query : NeighborQuery) :
    Exchange σ (List (List NodeId)) := do
  let lists ← cluster.link.lookup (fun _ => none)
    (fun nodes => .neighbors { query with nodes }) Reply.neighbors? query.nodes
  requireNeighbors query.count.toInt lists
  return lists

/-- Paths from every start, each of at most the given number of nodes. -/
def walk (cluster : Cluster σ) (starts : List NodeId) (lengths : List UInt64)
    (path : List NamespaceId) : Exchange σ (List (List NodeId)) :=
  cluster.link.walk starts lengths path

/-! ## Lookups -/

/-- Both features of every node. -/
def features (cluster : Cluster σ) (nodes : List NodeId) :
    Exchange σ (List Feature × List Feature) :=
  cluster.link.lookupFeatures cluster.cache nodes

/-- The features of nodes. -/
def nodeFeatures (cluster : Cluster σ) (nodes : List NodeId) : Exchange σ (List Feature) :=
  cluster.link.lookup cluster.cache.nodeFeature? .nodeFeatures Reply.nodeFeatures? nodes

/-- The features of nodes as neighbors. -/
def neighborFeatures (cluster : Cluster σ) (nodes : List NodeId) : Exchange σ (List Feature) :=
  cluster.link.lookup cluster.cache.neighborFeature? .neighborFeatures Reply.neighborFeatures?
    nodes

/-- The contexts of nodes, at least one of which must not be empty. -/
def contexts (cluster : Cluster σ) (nodes : List NodeId) : Exchange σ (List Context) := do
  let found ← cluster.link.lookup cluster.cache.context? .contexts Reply.contexts? nodes
  requireContexts found
  return found

/-- The hot nodes of all shards. -/
def scanHotNodes (cluster : Cluster σ) : Exchange σ (List NodeId) :=
  cluster.link.scanHotNodes cluster.pageSize

end Cluster

end ShardedGraph
