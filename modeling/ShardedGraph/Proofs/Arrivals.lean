import ShardedGraph.Proofs.Filling

/-!
# Answers in the order of arrival

A batch of nodes cuts the positions of the nodes into slices, one for each shard: a position is in
the slice of the owner of its node, and in no other one, and a slice is ascending and holds the
nodes of its positions (`Batch.Routes`).

Shards may answer in any order. While answers arrive, a list holds at each position the answer for
its node, if the owner of the node has arrived, and otherwise what it held before
(`Batch.answered`). One more arrival leaves such a list (`Batch.gatherArrival_answered`), so every run of
arrivals does (`Batch.gatherArrivals_answered`), and the order is no longer seen in it. When all
shards have arrived, the list holds the answers for all nodes (`Batch.ofNodes_restores`).
-/

set_option autoImplicit false

namespace ShardedGraph

namespace Batch

variable {β : Type}

/-- The items that go to each shard. -/
def items {α : Type} (batch : Batch α) : List (List α) :=
  batch.slices.map fun slice => slice.map Parcel.item

/-- Writes back what a shard answers, which is an answer for every item that goes to it. -/
def gatherArrival {α : Type} (batch : Batch α) (answer : α → β) (out : List β) (shard : Nat) :
    Except Error (List β) :=
  match batch.positions[shard]?, batch.items[shard]? with
  | some positions, some items =>
      let (result, written) := gather shard positions (items.map answer) out
      result.map fun _ => written
  | _, _ => .error (.unknownShard shard batch.shards)

/-- Writes the answers of shards back in the order in which the shards arrive. -/
def gatherArrivals {α : Type} (batch : Batch α) (answer : α → β) (arrivals : List Nat)
    (out : List β) : Except Error (List β) :=
  arrivals.foldlM (batch.gatherArrival answer) out

/-- What a list holds when some shards have arrived: the answers for the nodes that they own, and
what it held before for the others. -/
def answered (shards : Nat) (nodes : List NodeId) (answer : NodeId → β) (out : List β)
    (arrived : List Nat) : List β :=
  List.zipWith (fun node before => if ownerOf shards node ∈ arrived then answer node else before)
    nodes out

/-- A batch takes every node of a list to the shard that owns it. -/
structure Routes (batch : Batch NodeId) (shards : Nat) (nodes : List NodeId) : Prop where
  /-- There are positions and items for every shard. -/
  length_positions : batch.positions.length = shards
  length_items : batch.items.length = shards
  /-- A position goes to the owner of its node, and to no other shard. -/
  owner : ∀ (position : Nat) node, nodes[position]? = some node → ∀ shard : Nat,
    (∃ positions, batch.positions[shard]? = some positions ∧ position ∈ positions) ↔
      shard = ownerOf shards node
  ascending : ∀ positions ∈ batch.positions, positions.Pairwise (· < ·)
  /-- The items of a shard are the nodes at its positions. -/
  items_at : List.Forall₂
    (List.Forall₂ fun item position => nodes[position]? = some item) batch.items batch.positions
  sum_sizes : batch.sizes.sum = nodes.length

/-! ## Routing -/

variable {shards : Nat} {nodes : List NodeId}

/-- The batch in which every node of a list is on its way to its owner. -/
def toOwners (shards : Nat) (nodes : List NodeId) : Batch NodeId :=
  ⟨shards, parcelsOf (ownerOf shards) (fun _ => true) nodes⟩

/-- The parcels of the nodes that a shard owns. -/
def ownedParcels (shards : Nat) (nodes : List NodeId) (shard : Nat) : List (Parcel NodeId) :=
  parcelsOf (ownerOf shards) (fun node => ownerOf shards node == shard) nodes

theorem ofNodes_eq (positive : 0 < shards) (nodes : List NodeId) :
    ofNodes shards nodes = .ok (toOwners shards nodes) := by
  simp only [ofNodes, shardOf_of_pos positive, toOwners, parcelsOf, List.filter_true]
  exact congrArg (· >>= fun parcels => Except.ok (Batch.mk shards parcels)) List.mapM_pure

theorem slices_toOwners :
    (toOwners shards nodes).slices = (List.range shards).map (ownedParcels shards nodes) := by
  refine List.map_congr_left fun shard _ => ?_
  rw [toOwners, slice_parcelsOf]
  simp only [Bool.true_and]
  rfl

theorem getElem?_slices_toOwners {shard : Nat} (inside : shard < shards) :
    (toOwners shards nodes).slices[shard]? = some (ownedParcels shards nodes shard) := by
  rw [slices_toOwners, List.getElem?_map, List.getElem?_range inside, Option.map_some]

theorem getElem?_positions_toOwners {shard : Nat} (inside : shard < shards) :
    (toOwners shards nodes).positions[shard]? =
      some ((ownedParcels shards nodes shard).map Parcel.position) := by
  rw [positions, List.getElem?_map, getElem?_slices_toOwners inside, Option.map_some]

theorem getElem?_items_toOwners {shard : Nat} (inside : shard < shards) :
    (toOwners shards nodes).items[shard]? =
      some ((ownedParcels shards nodes shard).map Parcel.item) := by
  rw [items, List.getElem?_map, getElem?_slices_toOwners inside, Option.map_some]

theorem mem_position_ownedParcels {shard position : Nat} :
    position ∈ (ownedParcels shards nodes shard).map Parcel.position ↔
      ∃ node, nodes[position]? = some node ∧ ownerOf shards node = shard := by
  rw [List.mem_map]
  constructor
  · rintro ⟨parcel, member, rfl⟩
    obtain ⟨there, owned, -⟩ := mem_parcelsOf.mp member
    exact ⟨parcel.item, there, eq_of_beq owned⟩
  · rintro ⟨node, there, rfl⟩
    exact ⟨⟨ownerOf shards node, position, node⟩,
      mem_parcelsOf.mpr ⟨there, beq_self_eq_true _, rfl⟩, rfl⟩

theorem pairwise_position_parcelsOf {α : Type} (owner : α → Nat) (keep : α → Bool)
    (items : List α) :
    ((parcelsOf owner keep items).map Parcel.position).Pairwise (· < ·) := by
  have positions : (parcelsOf owner keep items).map Parcel.position =
      (items.zipIdx.filter fun entry => keep entry.1).map Prod.snd := by
    rw [parcelsOf, List.map_map]
    rfl
  rw [positions]
  refine List.Pairwise.sublist (List.filter_sublist.map Prod.snd) ?_
  rw [List.zipIdx_map_snd]
  exact List.pairwise_lt_range'

/-- The shards own all nodes together. -/
theorem sum_sizes_toOwners (positive : 0 < shards) (nodes : List NodeId) :
    (toOwners shards nodes).sizes.sum = nodes.length := by
  have owned : nodes.filter (fun node => decide (ownerOf shards node < shards)) = nodes :=
    List.filter_eq_self.mpr fun node _ => decide_eq_true (ownerOf_lt positive node)
  have together := (perm_flatMap_filter (ownerOf shards) nodes shards).length_eq
  rw [owned, List.length_flatMap] at together
  rw [sizes, slices_toOwners, List.map_map, ← together]
  refine congrArg List.sum (List.map_congr_left fun shard _ => ?_)
  rw [Function.comp_apply, ownedParcels, ← map_item_parcelsOf (ownerOf shards), List.length_map]

theorem routes_toOwners (positive : 0 < shards) (nodes : List NodeId) :
    (toOwners shards nodes).Routes shards nodes where
  length_positions := by
    rw [positions, slices_toOwners, List.length_map, List.length_map, List.length_range]
  length_items := by
    rw [items, slices_toOwners, List.length_map, List.length_map, List.length_range]
  owner position node there shard := by
    constructor
    · rintro ⟨positions, listed, member⟩
      have inside : shard < shards := by
        have := (List.getElem?_eq_some_iff.mp listed).1
        rwa [Batch.positions, slices_toOwners, List.length_map, List.length_map,
          List.length_range] at this
      rw [getElem?_positions_toOwners inside] at listed
      cases listed
      obtain ⟨found, here, owned⟩ := mem_position_ownedParcels.mp member
      rw [there] at here
      cases here
      exact owned.symm
    · rintro rfl
      exact ⟨_, getElem?_positions_toOwners (ownerOf_lt positive node),
        mem_position_ownedParcels.mpr ⟨node, there, rfl⟩⟩
  ascending positions member := by
    rw [Batch.positions, slices_toOwners, List.map_map] at member
    obtain ⟨shard, -, rfl⟩ := List.mem_map.mp member
    exact pairwise_position_parcelsOf _ _ _
  items_at := by
    rw [items, positions, List.forall₂_map_left_iff, List.forall₂_map_right_iff, List.forall₂_same]
    intro slice member
    rw [slices_toOwners] at member
    obtain ⟨shard, -, rfl⟩ := List.mem_map.mp member
    rw [List.forall₂_map_left_iff, List.forall₂_map_right_iff, List.forall₂_same]
    exact fun parcel among => (mem_parcelsOf.mp among).1
  sum_sizes := sum_sizes_toOwners positive nodes

/-! ## Arrivals -/

section Arrivals

variable {answer : NodeId → β} {out : List β} {arrived : List Nat}

theorem length_answered (length : out.length = nodes.length) :
    (answered shards nodes answer out arrived).length = nodes.length := by
  rw [answered, List.length_zipWith, length, Nat.min_self]

/-- A list holds the answer for a node whose owner has arrived. -/
theorem getElem?_answered_of_mem {position : Nat} {node : NodeId}
    (there : nodes[position]? = some node) (length : out.length = nodes.length)
    (here : ownerOf shards node ∈ arrived) :
    (answered shards nodes answer out arrived)[position]? = some (answer node) := by
  have inside : position < out.length := length ▸ (List.getElem?_eq_some_iff.mp there).1
  rw [answered, List.getElem?_zipWith, there, List.getElem?_eq_getElem inside]
  exact congrArg some (if_pos here)

/-- Nothing is written by an arrival but the answers for the nodes that the shard owns. -/
theorem settled_answered {shard position : Nat}
    (other : ¬∃ node, nodes[position]? = some node ∧ ownerOf shards node = shard) :
    Settled (answered shards nodes answer out (arrived ++ [shard]))
      (answered shards nodes answer out arrived) position := by
  rw [Settled, answered, answered, List.getElem?_zipWith, List.getElem?_zipWith]
  cases there : nodes[position]? with
  | none => rfl
  | some node =>
      have same : ownerOf shards node ∈ arrived ++ [shard] ↔ ownerOf shards node ∈ arrived := by
        rw [List.mem_append, List.mem_singleton, or_iff_left]
        exact fun owned => other ⟨node, there, owned⟩
      cases out[position]? with
      | none => rfl
      | some before => exact congrArg some (if_congr same rfl rfl).symm

/-- **One more arrival.** The answers of a shard are written, and what was written stays. -/
theorem gatherArrival_answered (length : out.length = nodes.length) {shard : Nat}
    (inside : shard < shards) :
    (toOwners shards nodes).gatherArrival answer (answered shards nodes answer out arrived) shard =
      .ok (answered shards nodes answer out (arrived ++ [shard])) := by
  have right : List.Forall₂ (fun position value =>
      (answered shards nodes answer out (arrived ++ [shard]))[position]? = some value)
      ((ownedParcels shards nodes shard).map Parcel.position)
      (((ownedParcels shards nodes shard).map Parcel.item).map answer) := by
    rw [List.map_map, List.forall₂_map_left_iff, List.forall₂_map_right_iff, List.forall₂_same]
    intro parcel member
    obtain ⟨there, owned, -⟩ := mem_parcelsOf.mp member
    refine getElem?_answered_of_mem there length ?_
    exact List.mem_append_right _ (List.mem_singleton.mpr (eq_of_beq owned))
  obtain ⟨written, run, -, settles⟩ := gather_settles shard
    ((length_answered length).trans (length_answered length).symm) right
  have final : written = answered shards nodes answer out (arrived ++ [shard]) := by
    refine eq_of_settled fun position => settles position ?_
    by_cases owned : ∃ node, nodes[position]? = some node ∧ ownerOf shards node = shard
    · exact .inr (mem_position_ownedParcels.mpr owned)
    · exact .inl (settled_answered owned)
  rw [gatherArrival, getElem?_positions_toOwners inside, getElem?_items_toOwners inside]
  dsimp only
  rw [run, final]
  rfl

/-- **Arrivals.** Shards that arrive after others leave the answers of all of them. -/
theorem gatherArrivals_answered (length : out.length = nodes.length) {arrivals : List Nat}
    (inside : ∀ shard ∈ arrivals, shard < shards) :
    (toOwners shards nodes).gatherArrivals answer arrivals
        (answered shards nodes answer out arrived) =
      .ok (answered shards nodes answer out (arrived ++ arrivals)) := by
  induction arrivals generalizing arrived with
  | nil => rw [List.append_nil]; rfl
  | cons shard arrivals ih =>
      obtain ⟨first, others⟩ := List.forall_mem_cons.mp inside
      rw [gatherArrivals, List.foldlM_cons, gatherArrival_answered length first,
        List.append_cons arrived shard arrivals]
      exact ih others

/-- Nothing is written before the first arrival. -/
theorem answered_nil (length : out.length = nodes.length) :
    answered shards nodes answer out [] = out := by
  refine List.ext_getElem ((length_answered length).trans length.symm) fun position _ _ => ?_
  simp [answered]

/-- Nothing is missing after all arrivals. -/
theorem answered_of_all (length : out.length = nodes.length)
    (all : ∀ node, ownerOf shards node ∈ arrived) :
    answered shards nodes answer out arrived = nodes.map answer := by
  refine List.ext_getElem ?_ fun position _ _ => ?_
  · rw [length_answered length, List.length_map]
  · simp [answered, all]

end Arrivals

/-- **Routing and writing back restore a batch.** Over some shards every list of nodes is routed.
Whatever shards answer for a node, and in whatever order all of them arrive, a list of as many
entries as there are nodes holds in the end, at each position, the answer for the node there. -/
theorem ofNodes_restores (positive : 0 < shards) (nodes : List NodeId) :
    ∃ batch, ofNodes shards nodes = .ok batch ∧ batch.Routes shards nodes ∧
      ∀ (β : Type) (answer : NodeId → β) (arrivals : List Nat),
        arrivals.Perm (List.range shards) → ∀ out : List β, out.length = nodes.length →
          batch.gatherArrivals answer arrivals out = .ok (nodes.map answer) := by
  refine ⟨_, ofNodes_eq positive nodes, routes_toOwners positive nodes, ?_⟩
  intro β answer arrivals perm out length
  have inside : ∀ shard ∈ arrivals, shard < shards := fun shard member =>
    List.mem_range.mp (perm.mem_iff.mp member)
  have run : (toOwners shards nodes).gatherArrivals answer arrivals
      (answered shards nodes answer out []) = _ := gatherArrivals_answered length inside
  rw [answered_nil length, List.nil_append] at run
  rw [run, answered_of_all length]
  exact fun node => perm.mem_iff.mpr (List.mem_range.mpr (ownerOf_lt positive node))

/-- Three shards answer the doubles of six nodes, the last shard first. -/
theorem ofNodes_restores_backwards :
    0 < 3 ∧ [2, 0, 1].Perm (List.range 3) ∧ [0, 0, 0, 0, 0, 0].length = [5, 2, 9, 4, 3, 8].length ∧
      ∃ batch, ofNodes 3 [5, 2, 9, 4, 3, 8] = .ok batch ∧
        batch.positions = [[2, 4], [3], [0, 1, 5]] ∧ batch.Routes 3 [5, 2, 9, 4, 3, 8] ∧
        batch.gatherArrivals (fun node => 2 * node) [2, 0, 1] [0, 0, 0, 0, 0, 0] =
          .ok [10, 4, 18, 8, 6, 16] := by
  have perm : [2, 0, 1].Perm (List.range 3) := by decide
  obtain ⟨batch, run, routes, restores⟩ := ofNodes_restores (show 0 < 3 by decide) [5, 2, 9, 4, 3, 8]
  refine ⟨by decide, perm, rfl, batch, run, ?_, routes,
    restores NodeId (fun node => 2 * node) _ perm _ rfl⟩
  cases (ofNodes_eq (show 0 < 3 by decide) _).symm.trans run
  decide

end Batch

end ShardedGraph
