import ShardedGraph.Proofs.FanOut

/-!
# Lookups are pointwise

Let every shard answer the nodes that it owns with one entry for each of them, in order
(`Link.AnswersParts`). Then a lookup gives each node what is known about it, or else the
entry of the shard that owns it, at the place of the node (`Link.lookup_eq_ok`). The places of
the known nodes and of the slices of all shards cover the whole list, and each of them is
written with the value that belongs there.

The calls of a lookup do not depend on what the shards answer: a shard is called once, about
the unknown nodes that it owns, in the order of the list, and not at all if there are none
(`Link.lookup_recording`).
-/

set_option autoImplicit false

namespace ShardedGraph

variable {σ α β : Type}

/-- The requests of a lookup: one for each shard that owns unknown nodes. -/
abbrev requestsAbout (known : NodeId → Option α) (make : List NodeId → Request) (shards : Nat)
    (nodes : List NodeId) : List (Option Request) :=
  forOwners (ownerOf shards) (fun node => (known node).isNone) nodes shards fun _ => make

/-- The calls of a lookup: one for each shard that owns unknown nodes, about these nodes. -/
abbrev callsAbout (known : NodeId → Option α) (make : List NodeId → Request) (shards : Nat)
    (nodes : List NodeId) : List (Nat × Request) :=
  callsTo (ownerOf shards) (fun node => (known node).isNone) make shards nodes

namespace Link

/-- Every shard answers the nodes of a list that it owns, or a part of them, with one entry for
each of them, in order. -/
def AnswersParts (link : Link σ) (make : List NodeId → Request) (take : Reply → Option (List α))
    (answer : Nat → NodeId → α) (nodes : List NodeId) : Prop :=
  ∀ shard, shard < link.transport.shards → ∀ part : List NodeId, part.Sublist nodes →
    (∀ node ∈ part, ownerOf link.transport.shards node = shard) → part ≠ [] →
      link.Answers take shard (make part) (part.map (answer shard))

end Link

/-- The entries of a slice are final values of its positions. -/
theorem forall₂_parcelsOf (owner : NodeId → Nat) (keep : NodeId → Bool) {nodes : List NodeId}
    {value : NodeId → α} (answer : NodeId → α) (right : ∀ node, keep node = true → value node = answer node) :
    List.Forall₂ (fun position entry => (nodes.map value)[position]? = some entry)
      ((parcelsOf owner keep nodes).map Parcel.position) ((nodes.filter keep).map answer) := by
  rw [← map_item_parcelsOf owner, List.map_map, List.forall₂_map_left_iff,
    List.forall₂_map_right_iff, List.forall₂_same]
  intro parcel member
  obtain ⟨there, kept, _⟩ := mem_parcelsOf.mp member
  rw [List.getElem?_map, there, Option.map_some, right _ kept]
  rfl

/-- Where something is known, the entries for the time being are final. -/
theorem settled_knownEntries [Inhabited α] {known : NodeId → Option α} {value : NodeId → α}
    {nodes : List NodeId} {position : Nat} {node : NodeId} (there : nodes[position]? = some node)
    (hit : (known node).isNone = false) :
    Settled (nodes.map fun node => (known node).getD (value node)) (knownEntries known nodes)
      position := by
  unfold Settled
  rw [knownEntries, List.getElem?_map, List.getElem?_map, there, Option.map_some, Option.map_some]
  cases found : known node with
  | none => rw [found] at hit; cases hit
  | some entry => rfl

/-- A list is settled when it is settled at the places of its nodes. -/
theorem eq_map_of_settled {value : NodeId → α} {nodes : List NodeId} {out : List α}
    (length : out.length = (nodes.map value).length)
    (settled : ∀ position node, nodes[position]? = some node →
      Settled (nodes.map value) out position) : out = nodes.map value := by
  refine eq_of_settled fun position => ?_
  cases there : nodes[position]? with
  | some node => exact settled position node there
  | none =>
      have outside : (nodes.map value).length ≤ position := by
        rw [List.length_map]
        exact List.getElem?_eq_none_iff.mp there
      rw [Settled, List.getElem?_eq_none outside, List.getElem?_eq_none (length ▸ outside)]

namespace Link

section Lookup

variable [Inhabited α] (link : Link σ) {known : NodeId → Option α}
  {make : List NodeId → Request} {take : Reply → Option (List α)} {answer : Nat → NodeId → α}
  {nodes : List NodeId}

/-- A lookup of nodes that are all known asks nobody. -/
theorem runFrom_lookup_of_known (positive : 0 < link.transport.shards)
    (hits : (nodes.filter fun node => (known node).isNone) = []) (world : World σ) :
    runFrom (link.lookup known make take nodes) world = (.ok (knownEntries known nodes), world) := by
  rw [lookup, unknownNodes_eq known positive, runFrom_bind_of_ok (runFrom_liftM _ world),
    if_pos (by rw [isEmpty_parcelsOf, hits]; rfl), runFrom_pure]

/-- A lookup with unknown nodes is a fan-out, followed by writing the answers back. -/
theorem runFrom_lookup_of_unknown (positive : 0 < link.transport.shards)
    (misses : (nodes.filter fun node => (known node).isNone) ≠ []) (world : World σ) :
    runFrom (link.lookup known make take nodes) world =
      runFrom (do
        let answers ← link.fanOut take (requestsAbout known make link.transport.shards nodes)
        liftM (gatherAll (Batch.mk link.transport.shards
          (parcelsOf (ownerOf link.transport.shards) (fun node => (known node).isNone)
            nodes)).positions answers (knownEntries known nodes))) world := by
  rw [lookup, unknownNodes_eq known positive, runFrom_bind_of_ok (runFrom_liftM _ world),
    if_neg (by rwa [isEmpty_parcelsOf, List.isEmpty_iff]), requests_parcelsOf]

/-- Entries from the owners of all unknown nodes, written back, give the pointwise map. -/
theorem gatherAll_eq_ok {shards : Nat} (positive : 0 < shards) (known : NodeId → Option α)
    (answer : Nat → NodeId → α) (nodes : List NodeId) :
    gatherAll
        (Batch.mk shards
          (parcelsOf (ownerOf shards) (fun node => (known node).isNone) nodes)).positions
        (forOwners (ownerOf shards) (fun node => (known node).isNone) nodes shards
          fun shard part => part.map (answer shard))
        (knownEntries known nodes) =
      .ok (nodes.map fun node => (known node).getD (answer (ownerOf shards node) node)) := by
  obtain ⟨out, run, length, settled⟩ := eachAnswer_settles
    (ownerOf shards) (fun node => (known node).isNone) nodes
    (fun node _ => ownerOf_lt positive node)
    (fun shard part => part.map (answer shard))
    (fun shard positions values out =>
      (gather shard positions values out).1.map fun _ => (gather shard positions values out).2)
    (fun out => out.length =
      (nodes.map fun node => (known node).getD (answer (ownerOf shards node) node)).length)
    (Settled (nodes.map fun node => (known node).getD (answer (ownerOf shards node) node)))
    (by
      intro shard before length
      obtain ⟨written, run, length', settles⟩ := gather_settles shard length
        (forall₂_parcelsOf (ownerOf shards)
          (fun node => (known node).isNone && ownerOf shards node == shard) (answer shard)
          fun node kept => by
            obtain ⟨missing, owned⟩ := Bool.and_eq_true_iff.mp kept
            rw [Option.isNone_iff_eq_none.mp missing, eq_of_beq owned]
            rfl)
      exact ⟨written, by rw [run]; rfl, length', settles⟩)
    (knownEntries known nodes) (by rw [knownEntries, List.length_map, List.length_map])
  refine run.trans (congrArg Except.ok (eq_map_of_settled length fun position node there => ?_))
  refine settled position node there ?_
  cases missing : (known node).isNone with
  | true => exact .inr rfl
  | false => exact .inl (settled_knownEntries there missing)

/-- A lookup gives every node what is known about it or what its owner answers. -/
theorem lookup_eq_ok (positive : 0 < link.transport.shards)
    (answers : link.AnswersParts make take answer nodes) (world : World σ) :
    (runFrom (link.lookup known make take nodes) world).1 =
      .ok (nodes.map fun node =>
        (known node).getD (answer (ownerOf link.transport.shards node) node)) := by
  by_cases hits : (nodes.filter fun node => (known node).isNone) = []
  · rw [link.runFrom_lookup_of_known positive hits]
    refine congrArg Except.ok (List.map_congr_left fun node member => ?_)
    have hit := List.filter_eq_nil_iff.mp hits node member
    cases found : known node with
    | none => rw [found] at hit; exact absurd rfl hit
    | some entry => rfl
  · rw [link.runFrom_lookup_of_unknown positive hits]
    have fetched := link.fanOut_forOwners (ownerOf link.transport.shards)
      (fun node => (known node).isNone) (fun shard part => part.map (answer shard)) answers world
    rw [runFrom_bind_of_ok (Prod.ext fetched rfl), runFrom_liftM]
    exact gatherAll_eq_ok positive known answer nodes

/-- A lookup calls each shard that owns unknown nodes once, about these nodes in order, and
calls nobody else, whatever the shards answer. -/
theorem lookup_recording (positive : 0 < link.transport.shards) (world : World σ)
    (calls : List (Nat × Request)) :
    runFrom (link.recording.lookup known make take nodes) (world.recorded calls) =
      ((runFrom (link.lookup known make take nodes) world).1,
        (runFrom (link.lookup known make take nodes) world).2.recorded
          ((callsAbout known make link.transport.shards nodes).reverse ++ calls)) := by
  by_cases hits : (nodes.filter fun node => (known node).isNone) = []
  · rw [link.runFrom_lookup_of_known positive hits, callsAbout, callsTo_eq_nil _ _ hits]
    exact link.recording.runFrom_lookup_of_known positive hits _
  · rw [link.runFrom_lookup_of_unknown positive hits]
    refine (link.recording.runFrom_lookup_of_unknown positive hits _).trans ?_
    rw [callsAbout, ← callsOf_forOwners]
    exact link.fanOut_bind_recording take (length_forOwners _ _) _ world calls

end Lookup

/-- **A lookup is a pointwise map.** Let every shard answer nodes that it owns with one entry
for each of them, in order. Then the lookup succeeds, whatever is known beforehand, and
lists for every node what is known about it, or else the entry of its owner. On the record,
each shard that owns unknown nodes is called once, about these nodes in the order of the list,
and there are no other calls; when all nodes are known there is no call at all. -/
theorem lookup_pointwise [Inhabited α] (link : Link σ) (known : NodeId → Option α)
    (make : List NodeId → Request) (take : Reply → Option (List α)) (answer : Nat → NodeId → α)
    (nodes : List NodeId) (positive : 0 < link.transport.shards)
    (answers : link.AnswersParts make take answer nodes) (world : World σ)
    (calls : List (Nat × Request)) :
    (∃ later,
      runFrom (link.lookup known make take nodes) world =
        (.ok (nodes.map fun node =>
          (known node).getD (answer (ownerOf link.transport.shards node) node)), later) ∧
      runFrom (link.recording.lookup known make take nodes) (world.recorded calls) =
        (.ok (nodes.map fun node =>
          (known node).getD (answer (ownerOf link.transport.shards node) node)),
          later.recorded ((callsAbout known make link.transport.shards nodes).reverse ++ calls))) ∧
    ((∀ node ∈ nodes, (known node).isSome = true) →
      callsAbout known make link.transport.shards nodes = []) := by
  refine ⟨⟨(runFrom (link.lookup known make take nodes) world).2, ?_, ?_⟩, fun hits => ?_⟩
  · exact Prod.ext (link.lookup_eq_ok positive answers world) rfl
  · rw [link.lookup_recording positive world calls, link.lookup_eq_ok positive answers world]
  · refine callsTo_eq_nil _ _ (List.filter_eq_nil_iff.mpr fun node member missing => ?_)
    have hit := hits node member
    rw [Option.isNone_iff_eq_none.mp missing] at hit
    cases hit

/-- Three shards, each of which answers with its own number as the only key of a feature. -/
def numbering : Link Unit where
  transport := {
    shards := 3
    call := fun shard request => return .now (match request with
      | .nodeFeatures nodes => .ok (.nodeFeatures (nodes.map fun _ => [(UInt64.ofNat shard, 0)]))
      | _ => .error (.unhandled request.operation)) }
  deadline := some 5

theorem lookup_pointwise_numbering :
    (0 < numbering.transport.shards ∧
      numbering.AnswersParts .nodeFeatures Reply.nodeFeatures?
        (fun shard _ => [(UInt64.ofNat shard, 0)]) [4, 9, 1, 4, 5, 9]) ∧
    (∃ later,
      runFrom (numbering.lookup (fun node => if node = 9 then some [] else none) .nodeFeatures
          Reply.nodeFeatures? [4, 9, 1, 4, 5, 9]) ⟨(), .cycle #[]⟩ =
        (.ok [[(1, 0)], [], [(1, 0)], [(1, 0)], [(2, 0)], []], later) ∧
      runFrom (numbering.recording.lookup (fun node => if node = 9 then some [] else none)
          .nodeFeatures Reply.nodeFeatures? [4, 9, 1, 4, 5, 9])
          (World.recorded ⟨(), .cycle #[]⟩ []) =
        (.ok [[(1, 0)], [], [(1, 0)], [(1, 0)], [(2, 0)], []],
          later.recorded [(2, .nodeFeatures [5]), (1, .nodeFeatures [4, 1, 4])])) := by
  have answers : numbering.AnswersParts .nodeFeatures Reply.nodeFeatures?
      (fun shard _ => [(UInt64.ofNat shard, 0)]) [4, 9, 1, 4, 5, 9] := fun _ _ _ _ _ _ _ => rfl
  exact ⟨⟨by decide, answers⟩,
    (lookup_pointwise numbering (fun node => if node = 9 then some [] else none) .nodeFeatures
      Reply.nodeFeatures? (fun shard _ => [(UInt64.ofNat shard, 0)]) [4, 9, 1, 4, 5, 9]
      (by decide) answers ⟨(), .cycle #[]⟩ []).1⟩

end Link

end ShardedGraph
