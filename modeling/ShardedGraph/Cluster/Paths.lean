import ShardedGraph.Routing
import ShardedGraph.Transport

/-!
# Paths across shards

A path starts at a node and grows by the hops that shards draw, until it has its length or
a shard finds no way on. Every round asks, for each path that still grows, the owner of its
last node for all hops that are missing, and says how many hops were taken before, so that
a path along namespaces goes on where it was.

**Progress.** A path that grows has fewer nodes than its length. A round either adds at
least one node to it or ends it, so the number of rounds is bounded by the missing hops
(`Trail.roundLimit`) whatever the shards answer.
-/

set_option autoImplicit false

namespace ShardedGraph

/-! ## Trails -/

/-- A path while it is being walked. -/
structure Trail where
  start : NodeId
  /-- The nodes after the start. -/
  hops : List NodeId
  /-- How many nodes the path should have. -/
  length : Nat
  isGrowing : Bool
  deriving DecidableEq, Repr

namespace Trail

/-- The path from a start before its first hop. -/
def ofStart (start : NodeId) (length : UInt64) : Trail :=
  ⟨start, [], length.toNat, decide (1 < length.toNat)⟩

/-- All nodes of a path. -/
def nodes (trail : Trail) : List NodeId := trail.start :: trail.hops

/-- The node that a path goes on from. -/
def last (trail : Trail) : NodeId := trail.hops.getLastD trail.start

/-- How many hops are missing. -/
def missing (trail : Trail) : Nat := trail.length - trail.nodes.length

/-- Takes hops that a shard has drawn. No hop ends a path, and is an error at its start. -/
def extend (trail : Trail) (hops : List NodeId) : Except Error Trail :=
  if hops = [] then
    if trail.hops = [] then .error (.isolatedStart trail.start)
    else .ok { trail with isGrowing := false }
  else
    let longer := { trail with hops := trail.hops ++ hops }
    if trail.length ≤ longer.nodes.length then
      .ok { longer with hops := longer.hops.take (trail.length - 1), isGrowing := false }
    else .ok longer

/-- After how many rounds no path grows. -/
def roundLimit (trails : List Trail) : Nat :=
  (trails.map Trail.missing).foldl max 0

/-- The growing paths, each on its way to the owner of its last node. -/
def growing (shards : Nat) (trails : List Trail) : Except Error (Batch Trail) := do
  let growing := trails.zipIdx.filter fun entry => entry.1.isGrowing
  let parcels ← growing.mapM fun (trail, position) => do
    return ⟨← shardOf shards trail.last, position, trail⟩
  return ⟨shards, parcels⟩

/-- The request for the missing hops of paths. -/
def request (path : List NamespaceId) (trails : List Trail) : Request :=
  .walks {
    starts := trails.map Trail.last
    lengths := trails.map fun trail => UInt64.ofNat trail.missing
    offsets := trails.map fun trail => UInt64.ofNat trail.hops.length
    path }

/-- Takes the hops for the path at a position. -/
def extendAt (trails : List Trail) (position : Nat) (hops : List NodeId) :
    Except Error (List Trail) :=
  match trails[position]? with
  | some trail => (trail.extend hops).map fun longer => trails.set position longer
  | none => .ok trails

/-- Takes the hops that a shard has drawn for the paths at some positions. -/
def extendAll (shard : Nat) (positions : List Nat) (hops : List (List NodeId))
    (trails : List Trail) : Except Error (List Trail) :=
  if hops.length = positions.length then
    (positions.zip hops).foldlM (fun trails (position, hops) => extendAt trails position hops) trails
  else .error (.walkCount shard hops.length positions.length)

end Trail

/-! ## Rounds -/

namespace Link

variable {σ : Type}

/-- Asks once for the missing hops of all paths that grow. -/
def growOnce (link : Link σ) (path : List NamespaceId) (trails : List Trail) :
    Exchange σ (List Trail) := do
  let batch ← Trail.growing link.transport.shards trails
  let answers ← link.fanOut Reply.walks? (batch.requests (Trail.request path))
  let trails ← eachAnswer batch.positions answers trails Trail.extendAll
  return trails

/-- Asks until no path grows, and at most the given number of times. -/
def growRounds (link : Link σ) (path : List NamespaceId) :
    Nat → List Trail → Exchange σ (List Trail)
  | 0, trails => return trails
  | limit + 1, trails => do
      if trails.any Trail.isGrowing then
        let longer ← link.growOnce path trails
        link.growRounds path limit longer
      else
        return trails

/-- Walks from every start, with one length for each start. A path holds its start and at
most as many nodes as its length says. -/
def walk (link : Link σ) (starts : List NodeId) (lengths : List UInt64)
    (path : List NamespaceId) : Exchange σ (List (List NodeId)) := do
  if starts.length = lengths.length then
    let trails := List.zipWith Trail.ofStart starts lengths
    let grown ← link.growRounds path (Trail.roundLimit trails) trails
    return grown.map Trail.nodes
  else
    throw (.walkLengths starts.length lengths.length)

end Link

end ShardedGraph
