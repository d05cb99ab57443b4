import ShardedGraph.Proofs.Pools
import ShardedGraph.Proofs.Reports
import ShardedGraph.Proofs.RoutedDraws

/-!
# The shapes of replies

A reply of a partition suits the request that it answers (`Partition.Suits`): it has the form that
the request asks for, one entry for each node that was asked about, hops for each start of a walk
and no more of them than were wanted, as many nodes as were asked for in the slot of each namespace
that was touched, and as full a page as there are hot nodes left
(`Partition.suits_of_answer`).

The replies of built partitions to requests that can be sent can be sent back, because nothing that
they hold or draw is longer than a word can count (`Partition.IsBuilt.lengthsFit_of_answer`).
-/

set_option autoImplicit false

namespace ShardedGraph

/-! ## Samples of namespaces -/

namespace NegativePools

variable {pools : NegativePools} {count : Nat} {nodes excluded : List NodeId}
  {lists : List (List NodeId)} {stream later : WordStream}

/-- A list that is sampled for a node, from some stream. -/
def IsSampledFor (pools : NegativePools) (count : Nat) (excluded : List NodeId) (node : NodeId)
    (sample : List NodeId) : Prop :=
  ∃ before after, runFrom (pools.sampleFor count excluded node) before = (.ok sample, after)

/-- What is sampled for a node has as many nodes as were asked for. -/
theorem IsSampledFor.length {node : NodeId} {sample : List NodeId}
    (sampled : pools.IsSampledFor count excluded node sample) : sample.length = count := by
  obtain ⟨_, _, run⟩ := sampled
  exact (spec_of_sampleFor (fun _ => True) (fun _ _ _ _ => trivial) run).1

/-- A shared sample puts a sample for each touched namespace into its slot. -/
theorem placed_of_sampleShared
    (run : runFrom (pools.sampleShared count nodes excluded) stream = (.ok lists, later)) :
    ∃ touched samples, Touches pools.source.slots nodes touched ∧
      List.Forall₂ (fun entry => pools.IsSampledFor count excluded entry.2) touched samples ∧
        lists = Cluster.placed pools.source.slots (touched.zip samples) := by
  obtain ⟨touched, between, found, run⟩ := runFrom_bind_eq_ok run
  have touches := (firstSeen_of_touchedNamespaces (congrArg Prod.fst found)).toTouches
  have filled : ∀ {touched : List (NamespaceId × NodeId)} {first : List (List NodeId)} {stream},
      runFrom (touched.foldlM (fun out entry => do
        let found ← pools.sampleFor count excluded entry.2
        return out.set entry.1.toNat found) first) stream = (.ok lists, later) →
      ∃ samples,
        List.Forall₂ (fun entry => pools.IsSampledFor count excluded entry.2) touched samples ∧
        lists = (touched.zip samples).foldl (fun out entry => out.set entry.1.1.toNat entry.2)
          first := by
    intro touched
    induction touched with
    | nil =>
        intro first stream run
        cases run
        exact ⟨[], .nil, rfl⟩
    | cons entry touched ih =>
        intro first stream run
        rw [List.foldlM_cons] at run
        obtain ⟨_, _, step, run⟩ := runFrom_bind_eq_ok run
        obtain ⟨sample, _, sampled, step⟩ := runFrom_bind_eq_ok step
        cases step
        obtain ⟨samples, others, same⟩ := ih run
        exact ⟨sample :: samples, .cons ⟨_, _, sampled⟩ others, same⟩
  obtain ⟨samples, sampled, same⟩ := filled run
  exact ⟨touched, samples, touches, sampled, same⟩

/-- Each slot of a shared sample holds what was sampled for a node of its namespace, or nothing when
no node touches it. -/
theorem slots_of_sampleShared
    (run : runFrom (pools.sampleShared count nodes excluded) stream = (.ok lists, later)) :
    lists.length = pools.source.slots ∧ ∀ (slot : Nat) sample, lists[slot]? = some sample →
      (∃ node ∈ nodes, (namespaceOf node).toNat = slot ∧
        pools.IsSampledFor count excluded node sample) ∨
      (sample = [] ∧ ∀ node ∈ nodes, (namespaceOf node).toNat ≠ slot) := by
  obtain ⟨touched, samples, touches, sampled, rfl⟩ := placed_of_sampleShared run
  refine ⟨Cluster.length_placed _ _, fun slot sample there => ?_⟩
  obtain ⟨inside, _⟩ := List.getElem?_eq_some_iff.mp there
  rw [Cluster.length_placed] at inside
  rcases Cluster.getElem?_placed _ _ there with ⟨entry, among, rfl, rfl⟩ | ⟨others, rfl⟩
  · obtain ⟨known, _⟩ := List.of_mem_zip among
    obtain ⟨here, own, _⟩ := touches.spec entry.1 known
    exact .inl ⟨entry.1.2, here, by rw [own], (List.forall₂_iff_zip.mp sampled).2 among⟩
  · refine .inr ⟨rfl, ?_⟩
    rintro node member rfl
    obtain ⟨entry, known, same⟩ := List.mem_map.mp (touches.complete node member inside)
    obtain ⟨index, there⟩ := List.getElem?_of_mem known
    obtain ⟨sample, there'⟩ := exists_getElem?_of_forall₂ sampled there
    exact others (entry, sample)
      (List.mem_of_getElem? (List.getElem?_zip_eq_some.mpr ⟨there, there'.1⟩)) (by rw [same])

/-- A shared sample has one list for each slot, with as many nodes as were asked for in the slots of
touched namespaces and none in the others. -/
theorem length_of_sampleShared
    (run : runFrom (pools.sampleShared count nodes excluded) stream = (.ok lists, later)) :
    lists.length = pools.source.slots ∧ ∀ (slot : Nat) sample, lists[slot]? = some sample →
      sample.length = if ∃ node ∈ nodes, (namespaceOf node).toNat = slot then count else 0 := by
  obtain ⟨length, slots⟩ := slots_of_sampleShared run
  refine ⟨length, fun slot sample there => ?_⟩
  rcases slots slot sample there with ⟨node, member, own, sampled⟩ | ⟨rfl, untouched⟩
  · rw [if_pos ⟨node, member, own⟩, sampled.length]
  · rw [if_neg fun ⟨node, member, own⟩ => untouched node member own]
    rfl

end NegativePools

/-! ## Replies that suit -/

/-- A reply has the form and the sizes that a request to a partition asks for. -/
def Partition.Suits (partition : Partition) : Request → Reply → Prop
  | .metaValue _, .metaValue _ => True
  | .sharedNegatives query, .negatives pools =>
      pools.length = partition.graph.slots ∧
        ∀ (slot : Nat) (pool : List NodeId), pools[slot]? = some pool → pool.length =
          if ∃ node ∈ query.nodes, (namespaceOf node).toNat = slot then query.count.toNat else 0
  | .independentNegatives query, .negatives pools => pools.length = query.nodes.length
  | .neighbors query, .neighbors lists => lists.length = query.nodes.length
  | .walks query, .walks hops =>
      hops.length = query.starts.length ∧
        List.Forall₂ (fun (length : UInt64) hops => hops.length ≤ length.toNat) query.lengths hops
  | .features nodes, .features ofNodes ofNeighbors =>
      ofNodes.length = nodes.length ∧ ofNeighbors.length = nodes.length
  | .nodeFeatures nodes, .nodeFeatures found => found.length = nodes.length
  | .neighborFeatures nodes, .neighborFeatures found => found.length = nodes.length
  | .contexts nodes, .contexts found => found.length = nodes.length
  | .hotNodes query, .hotNodes nodes =>
      nodes.length = min query.count.toNat (partition.hotNodes.length - query.cursor.toNat)
  | _, _ => False

namespace Partition

variable {partition : Partition} {request : Request} {reply : Reply} {stream later : WordStream}

/-- A reply that suits has the right form. -/
theorem Suits.fits (suits : partition.Suits request reply) : reply.fits request = true := by
  unfold Suits at suits
  split at suits <;> first | rfl | exact suits.elim

/-- A partition has one list of hops for each start, none of which is too long. -/
theorem forall₂_walks {query : WalkQuery} {lists : List (List NodeId)}
    (run : runFrom (partition.walks query) stream = (.ok lists, later)) :
    lists.length = query.starts.length ∧
      List.Forall₂ (fun (length : UInt64) hops => hops.length ≤ length.toNat) query.lengths
        lists := by
  obtain ⟨counts, given, _⟩ := Walker.hopsFrom_of_traverse run
  rw [List.length_map] at counts
  refine ⟨given, forall₂_iff_getElem?.mpr ⟨by omega, fun index length hops second third => ?_⟩⟩
  refine Walker.length_le_of_traverse run ?_ third
  rw [List.getElem?_map, second]
  rfl

/-- A page ends where the list does. -/
theorem length_of_hotPage {cursor count : Nat} {nodes : List NodeId}
    (run : partition.hotPage cursor count = .ok nodes) :
    nodes.length = min count (partition.hotNodes.length - cursor) := by
  unfold hotPage at run
  split at run
  · cases run
  · cases run
    rw [List.length_take, List.length_drop]

/-- What a partition answers suits the request. -/
theorem suits_of_answer (source : partition.negatives.source.slots = partition.graph.slots)
    (run : runFrom (partition.answer request) stream = (.ok reply, later)) :
    partition.Suits request reply := by
  cases request with
  | metaValue key =>
      obtain ⟨_, _, _, made⟩ := runFrom_bind_eq_ok run
      cases made
      trivial
  | sharedNegatives query =>
      obtain ⟨lists, _, drawn, made⟩ := runFrom_bind_eq_ok run
      cases made
      have sizes := NegativePools.length_of_sampleShared drawn
      rwa [source] at sizes
  | independentNegatives query =>
      obtain ⟨lists, _, drawn, made⟩ := runFrom_bind_eq_ok run
      cases made
      exact (forall₂_of_runFrom_mapM drawn).length_eq.symm
  | neighbors query =>
      obtain ⟨lists, _, drawn, made⟩ := runFrom_bind_eq_ok run
      cases made
      have each := partition.neighbors.forall₂_samplePartial query.count.toInt query.nodes stream
      cases drawn
      exact each.length_eq.symm
  | walks query =>
      obtain ⟨lists, _, drawn, made⟩ := runFrom_bind_eq_ok run
      cases made
      exact forall₂_walks drawn
  | features nodes =>
      cases run
      exact ⟨List.length_map _, List.length_map _⟩
  | nodeFeatures nodes =>
      cases run
      exact List.length_map _
  | neighborFeatures nodes =>
      cases run
      exact List.length_map _
  | contexts nodes =>
      cases run
      exact List.length_map _
  | hotNodes query =>
      obtain ⟨nodes, _, taken, made⟩ := runFrom_bind_eq_ok run
      cases made
      exact length_of_hotPage (congrArg Prod.fst taken)

/-- A partition draws negative nodes of the slots of its graph. -/
theorem slots_of_build {graph : Graph} {config : Config} {chance : WordStream}
    (run : Partition.build graph config chance = .ok partition) :
    partition.negatives.source.slots = partition.graph.slots := by
  rw [(negatives_of_build run).1, (spec_of_build run).1, Source.slots, Graph.source, Graph.nodes,
    List.length_map, Graph.slots]

namespace IsBuilt

variable (built : partition.IsBuilt)

include built

theorem suits_of_answer (run : runFrom (partition.answer request) stream = (.ok reply, later)) :
    partition.Suits request reply := by
  obtain ⟨_, _, _, _, _, _, _, _, _, made⟩ := built
  exact Partition.suits_of_answer (slots_of_build made) run

/-- Neighbors that a partition draws fit into memory, as the contexts do. -/
theorem length_neighbors_lt {count : Int32} {node : NodeId} :
    ((partition.neighbors.sampleFor count.toInt node).run stream).1.length < UInt64.size := by
  have fits := built.fits.length_context node
  obtain ⟨_, _, _, graph, _, _, _, _, part, made⟩ := built
  obtain ⟨same, tables, -⟩ := spec_of_build made
  rw [same] at fits
  exact (NeighborTables.isNeighborSample_of_build tables (Graph.distinct_of_build part) count.toInt
    node stream).length_lt fits

/-- What is answered to a request that can be sent can be sent back. -/
theorem lengthsFit_of_answer (sent : LengthsFit request.lengths)
    (run : runFrom (partition.answer request) stream = (.ok reply, later)) :
    LengthsFit reply.lengths := by
  have suits := built.suits_of_answer run
  have shaped : ∀ {nodes : List NodeId} {value : NodeId → List (UInt64 × Number.Single)},
      nodes.length < UInt64.size → (∀ node, (value node).length < UInt64.size) →
        LengthsFit (lengthsOf (nodes.map value)) := by
    intro nodes value few short
    refine lengthsFit_lengthsOf.mpr ⟨by rwa [List.length_map], fun list member => ?_⟩
    obtain ⟨node, _, rfl⟩ := List.mem_map.mp member
    exact short node
  cases request with
  | metaValue key =>
      obtain ⟨value, _, found, made⟩ := runFrom_bind_eq_ok run
      cases made
      simpa [Reply.lengths] using built.length_metaValue (congrArg Prod.fst found)
  | sharedNegatives query =>
      obtain ⟨lists, _, _, made⟩ := runFrom_bind_eq_ok run
      cases made
      refine lengthsFit_lengthsOf.mpr ⟨?_, fun sample member => ?_⟩
      · rw [suits.1]
        exact Nat.lt_of_le_of_lt built.slots_mem.2 (by decide)
      · obtain ⟨slot, there⟩ := List.getElem?_of_mem member
        rw [suits.2 slot sample there]
        split
        · exact query.count.toNat_lt
        · decide
  | independentNegatives query =>
      obtain ⟨lists, _, drawn, made⟩ := runFrom_bind_eq_ok run
      cases made
      have few : query.nodes.length < UInt64.size := by
        simp only [Request.lengths, lengthsFit_cons] at sent
        exact sent.1
      refine lengthsFit_lengthsOf.mpr ⟨suits ▸ few, fun sample member => ?_⟩
      obtain ⟨node, _, before, after, sampled⟩ :=
        exists_of_forall₂_of_mem (forall₂_of_runFrom_mapM drawn) member
      rw [NegativePools.IsSampledFor.length ⟨before, after, sampled⟩]
      exact query.count.toNat_lt
  | neighbors query =>
      obtain ⟨lists, _, drawn, made⟩ := runFrom_bind_eq_ok run
      cases made
      have few : query.nodes.length < UInt64.size := by
        simpa only [Request.lengths, lengthsFit_cons, lengthsFit_nil, and_true] using sent
      have each := partition.neighbors.forall₂_samplePartial query.count.toInt query.nodes stream
      cases drawn
      refine lengthsFit_lengthsOf.mpr ⟨suits ▸ few, fun list member => ?_⟩
      obtain ⟨node, _, before, rfl⟩ := exists_of_forall₂_of_mem each member
      exact built.length_neighbors_lt
  | walks query =>
      obtain ⟨lists, _, drawn, made⟩ := runFrom_bind_eq_ok run
      cases made
      have few : query.starts.length < UInt64.size := by
        simp only [Request.lengths, lengthsFit_cons] at sent
        exact sent.1
      refine lengthsFit_lengthsOf.mpr ⟨suits.1 ▸ few, fun hops member => ?_⟩
      obtain ⟨length, _, most⟩ := exists_of_forall₂_of_mem suits.2 member
      exact Nat.lt_of_le_of_lt most length.toNat_lt
  | features nodes =>
      cases run
      have few : nodes.length < UInt64.size := by simpa [Request.lengths] using sent
      exact lengthsFit_append.mpr
        ⟨shaped few built.fits.length_nodeFeature, shaped few built.fits.length_neighborFeature⟩
  | nodeFeatures nodes =>
      cases run
      exact shaped (by simpa [Request.lengths] using sent) built.fits.length_nodeFeature
  | neighborFeatures nodes =>
      cases run
      exact shaped (by simpa [Request.lengths] using sent) built.fits.length_neighborFeature
  | contexts nodes =>
      cases run
      exact shaped (by simpa [Request.lengths] using sent) built.fits.length_context
  | hotNodes query =>
      obtain ⟨nodes, _, _, made⟩ := runFrom_bind_eq_ok run
      cases made
      have short : nodes.length ≤ partition.hotNodes.length :=
        suits ▸ Nat.le_trans (Nat.min_le_right _ _) (Nat.sub_le _ _)
      simpa [Reply.lengths] using Nat.lt_of_le_of_lt short built.length_hotNodes

end IsBuilt

end Partition

end ShardedGraph
