import ShardedGraph.Proofs.Hops
import ShardedGraph.Proofs.Splitting

/-!
# Walks in a graph and in its parts

A walk of a given length (`Graph.IsWalk`) is a list of nodes that begins at its start and has at
most as many nodes as its length, each of which may follow the one before at its position. Where
it has fewer nodes, its last node has no way on.

**Parts.** The part of a graph that a shard holds knows the neighbors of owned nodes alone. So
hops in a part are hops in the whole graph, but a walk in a part may end at a node of another
shard that has neighbors. Only that there are no hops at all from an owned node means the same
in the part and in the whole graph (`Graph.Onward`, `Graph.AreHops.onward_of_isPart`).

**Sequences.** Hops that follow a node and hops that follow the last of them, at the position
that comes next, follow the node together (`Graph.follows_append`).
-/

set_option autoImplicit false

namespace ShardedGraph.Graph

variable {graph whole part : Graph} {path : List NamespaceId} {position taken left : Nat}
  {start node next : NodeId} {hops : List NodeId}

/-! ## Graphs that are built -/

/-- The contexts of a built graph are ascending. -/
theorem sorted_of_build {namespaces : NamespaceTable} {insertions : List Insertion}
    (run : build namespaces insertions = .ok graph) : graph.Sorted := by
  intro node context there
  rw [(answers_of_build run node).1, Option.map_eq_some_iff] at there
  obtain ⟨said, _, rfl⟩ := there
  exact ascending_normalize said

/-! ## Hops -/

/-- Hops that follow a node one after the other do so in two pieces, the second of which goes on
from the last node of the first. -/
theorem follows_append {first second : List NodeId} :
    graph.Follows path position node (first ++ second) ↔
      graph.Follows path position node first ∧
        graph.Follows path (position + first.length) (first.getLastD node) second := by
  induction first generalizing position node with
  | nil => simp [Follows]
  | cons next rest ih =>
      rw [List.cons_append, List.length_cons, List.getLastD_cons, Follows, Follows, ih, and_assoc,
        Nat.add_assoc, Nat.add_comm 1]

theorem Follows.take (follows : graph.Follows path position node hops) (count : Nat) :
    graph.Follows path position node (hops.take count) := by
  rw [← List.take_append_drop count hops] at follows
  exact (follows_append.mp follows).1

/-- Any hop may follow the node before it, at its own position. -/
theorem Follows.mayFollow (follows : graph.Follows path position start hops) {index : Nat}
    (here : (start :: hops)[index]? = some node) (there : hops[index]? = some next) :
    graph.MayFollow path (position + index) node next := by
  induction hops generalizing start position index with
  | nil => cases there
  | cons first rest ih =>
      obtain ⟨step, others⟩ := follows
      cases index with
      | zero =>
          cases here
          cases there
          exact step
      | succ index =>
          have later := ih others here there
          rwa [Nat.add_right_comm] at later

/-! ## Walks -/

/-- A walk of a length from a start, along a path or free. -/
structure IsWalk (graph : Graph) (path : List NamespaceId) (start : NodeId) (length : Nat)
    (nodes : List NodeId) : Prop where
  begins : nodes.head? = some start
  bounded : nodes.length ≤ max 1 length
  moves : 1 < length → 2 ≤ nodes.length
  /-- Every node but the first may follow the node before. -/
  follows : ∀ (position : Nat) node next, nodes[position]? = some node →
    nodes[position + 1]? = some next → graph.MayFollow path (position + 1) node next
  /-- A short walk has come to a node without a way on. -/
  maximal : nodes.length < length → ∀ last, nodes.getLast? = some last → ∀ next,
    ¬graph.MayFollow path nodes.length last next

/-- A start and hops from it are a walk. -/
theorem isWalk_cons {length : Nat} (few : hops.length + 1 ≤ max 1 length)
    (moves : 1 < length → hops ≠ []) (follows : graph.Follows path 1 start hops)
    (stuck : hops.length + 1 < length → ∀ next,
      ¬graph.MayFollow path (hops.length + 1) (hops.getLastD start) next) :
    graph.IsWalk path start length (start :: hops) where
  begins := rfl
  bounded := few
  moves long := Nat.succ_le_succ (List.length_pos_iff.mpr (moves long))
  follows position node next here there := by
    have step := follows.mayFollow here there
    rwa [Nat.add_comm] at step
  maximal short last ends next := by
    rw [List.getLast?_cons, Option.some_inj] at ends
    rw [← ends, ← List.getLastD_eq_getLast?]
    exact stuck short next

/-- A start and hops that nothing was taken before are a walk. -/
theorem AreHops.isWalk {length : Nat} (areHops : graph.AreHops path (length - 1) 0 start hops)
    (few : hops.length ≤ length - 1) (moves : 1 < length → hops ≠ []) :
    graph.IsWalk path start length (start :: hops) := by
  refine isWalk_cons (by omega) moves areHops.follows fun short next => ?_
  have stuck := areHops.stuck (by omega) next
  rwa [Nat.zero_add] at stuck

/-! ## Parts -/

section Parts

variable {shards shard : Nat}

theorem MayFollow.of_isPart (isPart : IsPart shards shard whole part)
    (may : part.MayFollow path position node next) :
    whole.MayFollow path position node next := by
  obtain ⟨context, there, among⟩ := may.neighbor
  rw [isPart.context] at there
  split at there
  · exact ⟨⟨context, there, among⟩, may.due⟩
  · cases there

/-- The owner of a node knows every way on from it. -/
theorem MayFollow.in_part (isPart : IsPart shards shard whole part)
    (owned : ownerOf shards node = shard) (may : whole.MayFollow path position node next) :
    part.MayFollow path position node next := by
  obtain ⟨context, there, among⟩ := may.neighbor
  refine ⟨⟨context, ?_, among⟩, may.due⟩
  rw [isPart.context, if_pos owned, there]

theorem Follows.of_isPart (isPart : IsPart shards shard whole part)
    (follows : part.Follows path position node hops) : whole.Follows path position node hops := by
  induction hops generalizing position node with
  | nil => trivial
  | cons next rest ih => exact ⟨follows.1.of_isPart isPart, ih follows.2⟩

/-- Hops that go on from a node after a number of hops; there are none only when the node has no
way on. -/
structure Onward (graph : Graph) (path : List NamespaceId) (taken : Nat) (node : NodeId)
    (hops : List NodeId) : Prop where
  follows : graph.Follows path (taken + 1) node hops
  stuck : hops = [] → ∀ next, ¬graph.MayFollow path (taken + 1) node next

/-- Hops from an owned node that a shard has drawn go on from it in the whole graph. -/
theorem AreHops.onward_of_isPart (isPart : IsPart shards shard whole part)
    (owned : ownerOf shards node = shard) (wanted : 0 < left)
    (areHops : part.AreHops path left taken node hops) : whole.Onward path taken node hops := by
  refine ⟨areHops.follows.of_isPart isPart, ?_⟩
  rintro rfl next may
  exact areHops.stuck wanted next (may.in_part isPart owned)

end Parts

end ShardedGraph.Graph
