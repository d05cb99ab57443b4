import ShardedGraph.Graph

/-!
# Caches

A client keeps what the shards know of the hot nodes. A node that is put into the cache
always brings its two features. Its context is kept only when it is not empty, so that a
node without neighbors goes on being asked for.
-/

set_option autoImplicit false

namespace ShardedGraph

/-- What a client knows of hot nodes. -/
structure Cache where
  contexts : NodeMap Context
  nodeFeatures : NodeMap Feature
  neighborFeatures : NodeMap Feature

namespace Cache

/-- Nothing known. -/
def empty : Cache := ⟨∅, ∅, ∅⟩

/-- What the shards answer for a node. -/
structure Entry where
  node : NodeId
  context : Context
  nodeFeature : Feature
  neighborFeature : Feature
  deriving DecidableEq, Repr

/-- Puts an entry into a cache. -/
def insert (cache : Cache) (entry : Entry) : Cache where
  contexts :=
    if entry.context.isEmpty then cache.contexts
    else cache.contexts.insert entry.node entry.context
  nodeFeatures := cache.nodeFeatures.insert entry.node entry.nodeFeature
  neighborFeatures := cache.neighborFeatures.insert entry.node entry.neighborFeature

/-- Puts entries into a cache, in order. -/
def insertAll (cache : Cache) (entries : List Entry) : Cache := entries.foldl insert cache

def context? (cache : Cache) (node : NodeId) : Option Context := cache.contexts[node]?

def nodeFeature? (cache : Cache) (node : NodeId) : Option Feature := cache.nodeFeatures[node]?

def neighborFeature? (cache : Cache) (node : NodeId) : Option Feature :=
  cache.neighborFeatures[node]?

/-- Both features of a node, when both are known. -/
def features? (cache : Cache) (node : NodeId) : Option (Feature × Feature) :=
  match cache.nodeFeature? node, cache.neighborFeature? node with
  | some ofNode, some ofNeighbor => some (ofNode, ofNeighbor)
  | _, _ => none

/-- How many nodes a cache knows. -/
def size (cache : Cache) : Nat := max cache.nodeFeatures.size cache.contexts.size

/-- Whether a cache knows nothing. -/
def isEmpty (cache : Cache) : Bool :=
  cache.contexts.isEmpty && cache.nodeFeatures.isEmpty && cache.neighborFeatures.isEmpty

end Cache

end ShardedGraph
