import ShardedGraph.Neighbor.Tables

/-!
# Random walks

A walk makes a number of hops from a start node, each to a neighbor of the node before,
and ends early at a node without one.

**Paths.** A walk may have to follow a cycle of namespaces: the start has the first one,
and the node after `n` hops has the one at position `n` of the cycle. The next node is
then drawn among the neighbors of the namespace that is due, which stand together in the
context. A walk that continues another one counts the hops taken before as its offset,
so that it goes on in the same phase of the cycle.

**Room.** A walk gets a list with room for all hops that it may take, however early it ends,
and no list has room for more than `listLimit` of them.
-/

set_option autoImplicit false

namespace ShardedGraph

/-! ## Neighbors of one namespace -/

/-- How far a binary search moves in a list that is searched from `base` in steps that
halve `size`: to the last position it finds that satisfies the test. -/
def searchFrom {α : Type} (test : α → Bool) (items : List α) (size base : Nat) : Nat :=
  if 1 < size then
    let half := size / 2
    let middle := base + half
    let moved := if (items[middle]?).any test then middle else base
    searchFrom test items (size - half) moved
  else base
termination_by size
decreasing_by omega

/-- Where a list stops satisfying a test that holds of its first items only. -/
def partitionPoint {α : Type} (test : α → Bool) (items : List α) : Nat :=
  let base := searchFrom test items items.length 0
  if (items[base]?).any test then base + 1 else base

/-- The bounds of the neighbors of one namespace in an ascending context. -/
def namespaceRange (context : Context) (ns : NamespaceId) : Option (Nat × Nat) :=
  let first := partitionPoint (fun entry => decide (namespaceOf entry.1 < ns)) context
  let last := partitionPoint (fun entry => decide (namespaceOf entry.1 ≤ ns)) context
  if first < last then some (first, last) else none

/-! ## Walkers -/

/-- A way to walk over neighbor tables. -/
structure Walker where
  tables : NeighborTables
  /-- Whether walks may follow a cycle of namespaces. -/
  followsPaths : Bool

namespace Walker

/-- A walker for free walks. -/
def free (tables : NeighborTables) : Walker := ⟨tables, false⟩

/-- A walker for all walks; its tables must draw from parts of contexts. -/
def withPaths (tables : NeighborTables) : Except Error Walker :=
  if tables.kind.supportsRange then .ok ⟨tables, true⟩
  else .error (.walksNeedRanges tables.kind)

/-- Draws a neighbor in the given namespace. -/
def stepInto (tables : NeighborTables) (node : NodeId) (ns : NamespaceId) :
    Attempt (Option NodeId) :=
  match tables.source.context? node with
  | none => return none
  | some context =>
      match namespaceRange context ns with
      | none => return none
      | some (first, last) => tables.drawBetween node first last

/-- The namespace that is due after a number of hops; hops are counted in 64 bits. -/
def dueNamespace (path : List NamespaceId) (hops : Nat) : NamespaceId :=
  path.getD (hops % UInt64.size % path.length) 0

/-- Draws the next node of a walk that has taken a number of hops. -/
def step (tables : NeighborTables) (path : List NamespaceId) (hops : Nat) (node : NodeId) :
    Attempt (Option NodeId) :=
  if path.isEmpty then tables.draw node
  else stepInto tables node (dueNamespace path (hops + 1))

/-- The nodes after a start node, given the hops that are left and those taken before. -/
def hopsFrom (tables : NeighborTables) (path : List NamespaceId) :
    Nat → Nat → NodeId → Attempt (List NodeId)
  | 0, _, _ => return []
  | left + 1, taken, node => do
      match ← step tables path taken node with
      | none => return []
      | some next => return next :: (← hopsFrom tables path left (taken + 1) next)

/-- The nodes after a start node, in a list with room for as many as there may be. -/
def walkFrom (tables : NeighborTables) (path : List NamespaceId) (length taken : Nat)
    (start : NodeId) : Attempt (List NodeId) := do
  if listLimit < length then throw (.walkTooLong length)
  hopsFrom tables path length taken start

/-- The nodes after each start node. There is one length for each start, and one offset for
each start unless all offsets are zero. -/
def traverse (walker : Walker) (starts : List NodeId) (lengths offsets : List Nat)
    (path : List NamespaceId) : Attempt (List (List NodeId)) := do
  if starts.length ≠ lengths.length ∨ (offsets ≠ [] ∧ offsets.length ≠ starts.length) then
    throw (.walkSizes starts.length lengths.length offsets.length)
  if path ≠ [] ∧ walker.followsPaths = false then throw .freeWalksOnly
  (starts.zip lengths).zipIdx.mapM fun ((start, length), index) =>
    walkFrom walker.tables path length (offsets.getD index 0) start

end Walker

end ShardedGraph
