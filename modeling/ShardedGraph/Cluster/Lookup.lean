import ShardedGraph.Cluster.Cache
import ShardedGraph.Routing
import ShardedGraph.Transport

/-!
# Routed lookups

A lookup asks something about every node of a list. Nodes that the client knows are
answered at once; each other node is asked of the shard that owns it. Every shard gets at
most one request, with its nodes in the order of the list, and its answers are written
back to the places that its nodes came from.

**Failure.** When a call fails, the lookup fails with the error of the lowest such shard.
Otherwise it fails with the lowest shard whose reply does not have one entry for each node
that it was asked for.
-/

set_option autoImplicit false

namespace ShardedGraph

/-! ## Known and unknown nodes -/

section Known

variable {α : Type}

/-- What is known about each node; an unknown one has a default entry for the time being. -/
def knownEntries [Inhabited α] (known : NodeId → Option α) (nodes : List NodeId) : List α :=
  nodes.map fun node => (known node).getD default

/-- The batch of the nodes about which nothing is known. -/
def unknownNodes (known : NodeId → Option α) (shards : Nat) (nodes : List NodeId) :
    Except Error (Batch NodeId) := do
  let unknown := nodes.zipIdx.filter fun entry => (known entry.1).isNone
  let parcels ← unknown.mapM fun (node, position) => do
    return ⟨← shardOf shards node, position, node⟩
  return ⟨shards, parcels⟩

end Known

/-! ## Answers of all shards -/

section Answers

variable {α β : Type}

/-- Writes the answers of all shards to the positions of their slices. -/
def gatherAll (positions : List (List Nat)) (answers : List (Option (List α)))
    (out : List α) : Except Error (List α) :=
  eachAnswer positions answers out fun shard positions values out =>
    let (result, out) := gather shard positions values out
    result.map fun _ => out

/-- Writes pairs of answers to the positions of their slices, the first ones first. -/
def gatherBoth (positions : List (List Nat)) (answers : List (Option (List α × List β)))
    (out : List α × List β) : Except Error (List α × List β) :=
  eachAnswer positions answers out fun shard positions values out => do
    let (first, ofFirst) := gather shard positions values.1 out.1
    first
    let (second, ofSecond) := gather shard positions values.2 out.2
    second
    return (ofFirst, ofSecond)

end Answers

/-! ## Lookups -/

namespace Link

variable {σ α : Type}

/-- Looks something up for every node. A batch of known nodes issues no call. -/
def lookup [Inhabited α] (link : Link σ) (known : NodeId → Option α)
    (make : List NodeId → Request) (take : Reply → Option (List α)) (nodes : List NodeId) :
    Exchange σ (List α) := do
  let out := knownEntries known nodes
  let batch ← unknownNodes known link.transport.shards nodes
  if batch.isEmpty then
    return out
  else
    let answers ← link.fanOut take (batch.requests make)
    let entries ← gatherAll batch.positions answers out
    return entries

/-- Looks both features of every node up. A node is known when both its features are. -/
def lookupFeatures (link : Link σ) (cache : Cache) (nodes : List NodeId) :
    Exchange σ (List Feature × List Feature) := do
  let ofNodes := knownEntries (fun node => (cache.features? node).map Prod.fst) nodes
  let ofNeighbors := knownEntries (fun node => (cache.features? node).map Prod.snd) nodes
  let batch ← unknownNodes cache.features? link.transport.shards nodes
  if batch.isEmpty then
    return (ofNodes, ofNeighbors)
  else
    let answers ← link.fanOut Reply.features? (batch.requests Request.features)
    let entries ← gatherBoth batch.positions answers (ofNodes, ofNeighbors)
    return entries

end Link

end ShardedGraph
