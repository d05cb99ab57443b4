import Mathlib.Data.List.Nodup
import ShardedGraph.Proofs.Agreement
import ShardedGraph.Proofs.Draws

/-!
# Samples that a shard draws

A sample of a namespace that pools give has as many nodes as were asked for, no two equal, each
a candidate of the namespace and none excluded (`NegativePools.IsSample`). Candidates are what draws
give because each kernel has one weight for every candidate (`NegativePools.draw_mem`); the other
properties are kept by every draw that is collected (`NegativePools.collect_spec`).

**What is heard.** All that matters of a transport is that the samples it delivers were drawn by
the partition of the shard that was asked (`Link.SamplesFrom`). This holds of partitions in the
same process (`Link.samplesFrom_toPartitions`).
-/

set_option autoImplicit false

namespace ShardedGraph

/-! ## Candidates -/

namespace Graph

variable {namespaces : NamespaceTable} {insertions : List Insertion} {graph : Graph}

/-- The pools of a built graph are those of its slots. -/
theorem pools_of_build (run : build namespaces insertions = .ok graph) :
    ∃ counts, graph.pools = poolsOf namespaces.slots counts := by
  obtain ⟨_, _, built⟩ := except_bind_eq_ok.mp run
  cases built
  exact ⟨_, rfl⟩

/-- The nodes of a slot belong to its namespace. -/
theorem namespace_of_mem_nodes (run : build namespaces insertions = .ok graph) {slot : Nat}
    {nodes : List NodeId} (there : graph.nodes[slot]? = some nodes) {node : NodeId}
    (member : node ∈ nodes) : (namespaceOf node).toNat = slot := by
  obtain ⟨counts, pools⟩ := pools_of_build run
  rw [Graph.nodes, pools, poolsOf, List.map_map, List.getElem?_map, Option.map_eq_some_iff] at there
  obtain ⟨number, here, rfl⟩ := there
  obtain ⟨_, rfl⟩ := List.getElem?_eq_some_iff.mp here
  rw [List.getElem_range] at member
  obtain ⟨entry, among, rfl⟩ := List.mem_map.mp member
  exact eq_of_beq (List.mem_filter.mp among).2

theorem slots_le (run : build namespaces insertions = .ok graph) : graph.slots ≤ UInt16.size := by
  obtain ⟨counts, pools⟩ := pools_of_build run
  rw [Graph.slots, pools, poolsOf, List.length_map, List.length_range, NamespaceTable.slots]
  split
  · next largest _ => exact Nat.succ_le_of_lt largest.toNat_lt
  · exact Nat.zero_le _

/-- A slot has one frequency for each of its nodes. -/
theorem length_frequencies (graph : Graph) {slot : Nat} {nodes : List NodeId}
    (there : graph.nodes[slot]? = some nodes) :
    ((graph.frequencies[slot]?).getD []).length = nodes.length := by
  rw [Graph.nodes, List.getElem?_map, Option.map_eq_some_iff] at there
  obtain ⟨pool, here, rfl⟩ := there
  simp [Graph.frequencies, here]

end Graph

namespace NegativePools

variable {pools : NegativePools} {ns : NamespaceId} {candidates : List NodeId}

/-- Candidates are the nodes of the slot of their namespace, of which there are some. -/
theorem candidates_eq_ok (run : pools.candidates ns = .ok candidates) :
    pools.source.nodes[ns.toNat]? = some candidates ∧ 0 < candidates.length := by
  unfold NegativePools.candidates at run
  split at run
  · split at run
    · cases run
    · next occupied =>
      cases run
      refine ⟨?_, List.length_pos_iff.mpr occupied⟩
      cases there : pools.source.nodes[ns.toNat]? with
      | none => simp [there] at occupied
      | some nodes => rfl
  · cases run

/-- Every kernel of the pools draws indices of the candidates of its namespace. -/
def Covers (pools : NegativePools) : Prop :=
  ∀ ns candidates kernel, pools.candidates ns = .ok candidates →
    pools.table ns = .ok (some kernel) → kernel.InBounds candidates.length

theorem length_dampened (frequencies : List Number.Single) :
    (dampened frequencies).length = frequencies.length := by
  simp [dampened]

/-- A kernel has one weight for each frequency of its slot. -/
theorem inBounds_of_buildTable {source : Source} {kind : KernelKind} {slot : Nat} {kernel : Kernel}
    (run : buildTable source kind slot = .ok (some kernel)) :
    kernel.InBounds ((source.frequencies[slot]?).getD []).length := by
  unfold buildTable at run
  dsimp only at run
  split at run
  · cases run
  · cases run
  · split at run
    · cases run
    · obtain ⟨made, built, same⟩ := except_map_eq_ok.mp run
      cases same
      have bounds := Kernel.inBounds_of_build built
      rwa [length_dampened] at bounds

section Build

variable {source : Source} {kind : KernelKind}

/-- Pools that are not uniform keep a table for each slot. -/
theorem build_of_ne_uniform (other : kind ≠ .uniform) (run : build source kind = .ok pools) :
    ∃ tables, List.Forall₂ (fun slot table => buildTable source kind slot = .ok table)
      (List.range source.slots) tables ∧ pools = ⟨source, kind, tables⟩ := by
  have opened : build source kind =
      ((List.range source.slots).mapM (buildTable source kind) >>= fun tables =>
        .ok ⟨source, kind, tables⟩) := by
    cases kind with
    | uniform => exact absurd rfl other
    | aliased => rfl
    | unigram => rfl
    | prefixSum => rfl
  rw [opened] at run
  obtain ⟨tables, built, run⟩ := except_bind_eq_ok.mp run
  exact ⟨tables, mapM_eq_ok_iff.mp built, (Except.ok.inj run).symm⟩

/-- Built pools keep their source and their kind. -/
theorem source_of_build (run : build source kind = .ok pools) :
    pools.source = source ∧ pools.kind = kind := by
  by_cases uniform : kind = .uniform
  · subst uniform
    cases run
    exact ⟨rfl, rfl⟩
  · obtain ⟨tables, -, rfl⟩ := build_of_ne_uniform uniform run
    exact ⟨rfl, rfl⟩

/-- The kernel of a namespace is the one that is built for its slot. -/
theorem table_eq_ok_iff (other : kind ≠ .uniform) (run : build source kind = .ok pools)
    (inside : ns.toNat < source.slots) {kernel : Kernel} :
    pools.table ns = .ok (some kernel) ↔ buildTable source kind ns.toNat = .ok (some kernel) := by
  obtain ⟨tables, built, rfl⟩ := build_of_ne_uniform other run
  obtain ⟨length, each⟩ := forall₂_iff_getElem?.mp built
  rw [List.length_range] at length
  have there := List.getElem?_eq_getElem (Nat.lt_of_lt_of_eq inside length)
  rw [each ns.toNat ns.toNat _ (List.getElem?_range inside) there, table, if_neg other, there]
  cases tables[ns.toNat] with
  | none => simp
  | some kernel => simp

/-- Pools that are built from a graph draw its nodes. -/
theorem covers_of_build {graph : Graph} (run : build graph.source kind = .ok pools) :
    pools.source = graph.source ∧ pools.Covers := by
  obtain ⟨source, same⟩ := source_of_build run
  refine ⟨source, fun ns candidates kernel listed keyed => ?_⟩
  have other : kind ≠ .uniform := by
    rintro rfl
    rw [table, if_pos same] at keyed
    cases keyed
  obtain ⟨here, _⟩ := candidates_eq_ok listed
  rw [source] at here
  obtain ⟨inside, _⟩ := List.getElem?_eq_some_iff.mp here
  exact graph.length_frequencies here ▸
    inBounds_of_buildTable ((table_eq_ok_iff other run inside).mp keyed)

end Build

/-- What pools draw is a candidate. -/
theorem draw_mem (covers : pools.Covers) {node drawn : NodeId} {stream later : WordStream}
    (run : runFrom (pools.draw node) stream = (.ok drawn, later)) :
    ∃ candidates, pools.candidates (namespaceOf node) = .ok candidates ∧ drawn ∈ candidates := by
  obtain ⟨candidates, _, listed, run⟩ := runFrom_bind_eq_ok run
  obtain ⟨kernel, _, keyed, run⟩ := runFrom_bind_eq_ok run
  have listed := congrArg Prod.fst listed
  have keyed := congrArg Prod.fst keyed
  refine ⟨candidates, listed, ?_⟩
  have pick : ∀ index, index < candidates.length → candidates.getD index 0 ∈ candidates := by
    intro index inside
    simp [List.getD_eq_getElem?_getD, inside]
  cases kernel with
  | some kernel =>
      cases run
      exact pick _ ((covers _ _ kernel listed keyed).draw _)
  | none =>
      cases run
      exact pick _ (WordStream.below_lt (candidates_eq_ok listed).2 _)

/-! ## Samples -/

/-- A sample of a namespace: as many nodes as were asked for, all different, candidates of the
namespace, and none excluded. -/
structure IsSample (pools : NegativePools) (ns : NamespaceId) (count : Nat) (excluded : List NodeId)
    (sample : List NodeId) : Prop where
  length : sample.length = count
  distinct : sample.Nodup
  admissible : ∀ node ∈ sample, node ∉ excluded
  candidate : ∀ node ∈ sample, ∃ candidates, pools.candidates ns = .ok candidates ∧
    node ∈ candidates

section Collect

variable {draw : Attempt NodeId} {count budget : Nat} {excluded found : List NodeId}
  {stream later : WordStream}

/-- A draw that fails ends a collection. -/
theorem runFrom_collect_of_error {error : Error} (drawn : runFrom draw stream = (.error error, later)) :
    runFrom (collect draw count excluded (budget + 1) found) stream = (.error error, later) := by
  have drawn : draw stream = (.error error, later) := drawn
  change collect draw count excluded (budget + 1) found stream = _
  rw [collect]
  dsimp only
  rw [drawn]

/-- A node that is drawn is skipped or found, and the collection goes on while some are missing. -/
theorem runFrom_collect_of_ok {node : NodeId} (drawn : runFrom draw stream = (.ok node, later)) :
    runFrom (collect draw count excluded (budget + 1) found) stream =
      if excluded.contains node || found.contains node then
        runFrom (collect draw count excluded budget found) later
      else if found.length + 1 = count then (.ok (found ++ [node]), later)
      else runFrom (collect draw count excluded budget (found ++ [node])) later := by
  have drawn : draw stream = (.ok node, later) := drawn
  change collect draw count excluded (budget + 1) found stream = _
  rw [collect]
  dsimp only
  rw [drawn]
  rfl

/-- Collecting keeps what is found different, and every found node is drawn and not excluded. -/
theorem collect_spec (drawable : NodeId → Prop)
    (draws : ∀ node stream later, runFrom draw stream = (.ok node, later) → drawable node)
    {sample : List NodeId} (distinct : found.Nodup)
    (spec : ∀ node ∈ found, node ∉ excluded ∧ drawable node)
    (run : runFrom (collect draw count excluded budget found) stream = (.ok sample, later)) :
    sample.Nodup ∧ ∀ node ∈ sample, node ∉ excluded ∧ drawable node := by
  induction budget generalizing found stream with
  | zero =>
      cases run
      exact ⟨distinct, spec⟩
  | succ budget ih =>
      rcases drawn : runFrom draw stream with ⟨_ | node, between⟩
      · rw [runFrom_collect_of_error drawn] at run
        cases run
      rw [runFrom_collect_of_ok drawn] at run
      split at run
      · exact ih distinct spec run
      · next fresh =>
        have apart : node ∉ excluded ∧ node ∉ found := by simpa using fresh
        have distinct' : (found ++ [node]).Nodup := by
          simpa using List.Nodup.concat apart.2 distinct
        have spec' : ∀ other ∈ found ++ [node], other ∉ excluded ∧ drawable other := by
          intro other member
          rcases List.mem_append.mp member with old | new
          · exact spec other old
          · rw [List.mem_singleton.mp new]
            exact ⟨apart.1, draws node stream between drawn⟩
        split at run
        · cases run
          exact ⟨distinct', spec'⟩
        · exact ih distinct' spec' run

end Collect

variable {node : NodeId} {count : Nat} {excluded : List NodeId} {stream later : WordStream}

/-- What pools give for a node are as many different nodes as were asked for, drawn and not
excluded. -/
theorem spec_of_sampleFor (drawable : NodeId → Prop)
    (draws : ∀ drawn stream later, runFrom (pools.draw node) stream = (.ok drawn, later) →
      drawable drawn) {sample : List NodeId}
    (run : runFrom (pools.sampleFor count excluded node) stream = (.ok sample, later)) :
    sample.length = count ∧ sample.Nodup ∧ ∀ drawn ∈ sample, drawn ∉ excluded ∧ drawable drawn := by
  obtain ⟨candidates, _, listed, run⟩ := runFrom_bind_eq_ok run
  split at run
  · next nothing =>
    cases run
    exact ⟨nothing.symm, List.nodup_nil, by simp⟩
  · obtain ⟨_, _, _, run⟩ := runFrom_bind_eq_ok run
    split at run
    · cases run
    obtain ⟨found, _, collected, run⟩ := runFrom_bind_eq_ok run
    split at run
    · next enough =>
      cases run
      exact ⟨enough, collect_spec drawable draws List.nodup_nil (by simp) collected⟩
    · cases run

/-- What pools give for a node is a sample of its namespace. -/
theorem isSample_of_sampleFor (covers : pools.Covers) {sample : List NodeId}
    (run : runFrom (pools.sampleFor count excluded node) stream = (.ok sample, later)) :
    pools.IsSample (namespaceOf node) count excluded sample := by
  obtain ⟨length, distinct, spec⟩ := spec_of_sampleFor _ (fun _ _ _ => draw_mem covers) run
  exact ⟨length, distinct, fun node member => (spec node member).1,
    fun node member => (spec node member).2⟩

/-- A node alone touches its own namespace. -/
theorem touchedNamespaces_singleton (slots : Nat) (node : NodeId) :
    touchedNamespaces slots [node] =
      if slots ≤ (namespaceOf node).toNat then .error (.namespaceOutside node slots)
      else .ok [(namespaceOf node, node)] := by
  simp [touchedNamespaces, touchFrom]

/-- A shared sample for one node is a sample of its namespace, in the slot of it. -/
theorem sampleShared_singleton (covers : pools.Covers) {lists : List (List NodeId)}
    (run : runFrom (pools.sampleShared count [node] excluded) stream = (.ok lists, later)) :
    ∃ sample, pools.IsSample (namespaceOf node) count excluded sample ∧
      (namespaceOf node).toNat < pools.source.slots ∧
      lists = (List.replicate pools.source.slots []).set (namespaceOf node).toNat sample := by
  obtain ⟨touched, _, found, run⟩ := runFrom_bind_eq_ok run
  have found := congrArg Prod.fst found
  rw [runFrom_liftM, touchedNamespaces_singleton] at found
  split at found
  · cases found
  · next inside =>
    cases found
    rw [List.foldlM_cons] at run
    obtain ⟨_, _, first, run⟩ := runFrom_bind_eq_ok run
    obtain ⟨sample, _, sampled, first⟩ := runFrom_bind_eq_ok first
    cases first
    cases run
    exact ⟨sample, isSample_of_sampleFor covers sampled, Nat.lt_of_not_le inside, rfl⟩

end NegativePools

/-! ## Samples of a partition -/

/-- A partition over a built graph draws negative nodes from the graph. -/
theorem Partition.negatives_of_build {graph : Graph} {config : Config} {stream : WordStream}
    {partition : Partition} (run : Partition.build graph config stream = .ok partition) :
    partition.negatives.source = graph.source ∧ partition.negatives.Covers :=
  NegativePools.covers_of_build (made_of_build run).negatives

/-- What shards may give of a namespace: the candidates of their partitions. -/
def Partition.candidates (partition : Partition) (ns : NamespaceId) : List NodeId :=
  (partition.negatives.candidates ns).toOption.getD []

section Built

variable {namespaces : NamespaceTable} {insertions : List Insertion} {graph : Graph}
  {config : Config} {chance : WordStream} {partition : Partition}
  (built : Graph.build namespaces insertions = .ok graph)
  (made : Partition.build graph config chance = .ok partition)

include built made

/-- Candidates belong to their namespace. -/
theorem Partition.namespace_of_candidate {ns : NamespaceId} {node : NodeId}
    (member : node ∈ partition.candidates ns) : namespaceOf node = ns := by
  obtain ⟨source, _⟩ := negatives_of_build made
  cases listed : partition.negatives.candidates ns with
  | error error => simp [candidates, listed, Except.toOption] at member
  | ok nodes =>
      have member : node ∈ nodes := by simpa [candidates, listed, Except.toOption] using member
      obtain ⟨there, _⟩ := NegativePools.candidates_eq_ok listed
      rw [source] at there
      exact UInt16.toNat_inj.mp (Graph.namespace_of_mem_nodes built there member)

/-- The samples of a partition can be sent. -/
theorem Partition.reads_samples {count : UInt64} {node : NodeId} {excluded : List NodeId}
    {lists : List (List NodeId)} {stream later : WordStream}
    (run : runFrom (partition.negatives.sample .shared count.toNat [node] excluded) stream =
      (.ok lists, later)) : Wire.reply.Reads (.negatives lists) := by
  obtain ⟨source, covers⟩ := negatives_of_build made
  obtain ⟨sample, isSample, _, rfl⟩ := NegativePools.sampleShared_singleton covers run
  have few : partition.negatives.source.slots ≤ UInt16.size := by
    rw [source, Source.slots, Graph.source, Graph.nodes, List.length_map]
    exact Graph.slots_le built
  refine Wire.reads_reply 1 Wire.nodeLists .negatives (by decide) rfl (fun _ => rfl) ?_
  refine Wire.reads_nodeLists ?_ fun pool member => ?_
  · rw [List.length_set, List.length_replicate]
    exact Nat.lt_of_le_of_lt few (by decide)
  · rcases List.mem_or_eq_of_mem_set member with other | rfl
    · rw [List.eq_of_mem_replicate other]
      decide
    · rw [isSample.length]
      exact count.toNat_lt

end Built

namespace Link

variable {σ : Type}

/-- One partition for each shard, such that the shared samples for a node that a shard is heard to
answer are drawn by its partition. -/
structure SamplesFrom (link : Link σ) (partitions : List Partition) : Prop where
  shards : link.transport.shards = partitions.length
  drawn : ∀ (shard : Nat) (count : UInt64) node (excluded : List NodeId) state lists,
    excluded.length < UInt64.size →
    ((link.ask Reply.pools? shard
      (.sharedNegatives ⟨count, [node], excluded⟩)).run state).1.value = .ok lists →
        ∃ partition stream later, partitions[shard]? = some partition ∧
          runFrom (partition.negatives.sample .shared count.toNat [node] excluded) stream =
            (.ok lists, later)

open Transport

/-- Partitions in the same process are heard to answer the samples that they draw. -/
theorem samplesFrom_toPartitions {namespaces : NamespaceTable} {insertions : List Insertion}
    {partitions : List Partition} (shards : BuiltShards namespaces insertions partitions)
    (deadline : Option Nat) : (toPartitions partitions deadline).SamplesFrom partitions where
  shards := List.length_map _
  drawn := by
    intro shard count node excluded stream lists few heard
    have sent : Wire.request.Reads (.sharedNegatives ⟨count, [node], excluded⟩) := by
      refine Wire.reads_request 1 Wire.negativeQuery .sharedNegatives (by decide) rfl (fun _ => rfl)
        (Wire.Codec.Reads.imap ?_ rfl)
      exact .pair (Wire.Codec.reads_word count)
        (.pair (Wire.reads_nodes (show 1 < UInt64.size by decide)) (Wire.reads_nodes few))
    obtain ⟨partition, reply, later, there, answered, taken⟩ := exists_answer_of_heard sent
      (fun partition reply later there answered => by
        obtain ⟨graph, config, _, part, made⟩ := shards shard partition there
        obtain ⟨drawn, _, run, same⟩ := runFrom_bind_eq_ok answered
        cases same
        exact Partition.reads_samples part made run)
      heard
    obtain ⟨drawn, _, run, same⟩ := runFrom_bind_eq_ok answered
    cases same
    cases taken
    exact ⟨partition, stream, later, there, run⟩

end Link

end ShardedGraph
