import ShardedGraph.Proofs.Caches

/-!
# Lookups of a cluster and of the whole graph

Split insertions among shards by the owners of their nodes, build a partition over the graph of
every shard, and connect a client to the partitions. Whatever the shards' configurations and
the client's are, once connected the client looks up exactly what a partition over the whole
graph finds (`Cluster.lookups_eq_whole`): the graph of the insertions can be built, the shards
hold it between them, and the cache of the client agrees with it.
-/

set_option autoImplicit false

namespace ShardedGraph

/-- Partitions over the graphs of all shards, in their order. The graph of a shard is built from
the insertions about the nodes that it owns; every shard has its own configuration and chance. -/
def BuiltShards (namespaces : NamespaceTable) (insertions : List Insertion)
    (partitions : List Partition) : Prop :=
  ∀ (shard : Nat) partition, partitions[shard]? = some partition →
    ∃ graph config stream,
      Graph.build namespaces (Graph.ownedInsertions partitions.length shard insertions) =
        .ok graph ∧
      Partition.build graph config stream = .ok partition

variable {namespaces : NamespaceTable} {insertions : List Insertion} {partitions : List Partition}

/-- The shards are the parts of a graph that can be built as a whole. -/
theorem BuiltShards.exists_whole (shards : BuiltShards namespaces insertions partitions)
    (occupied : partitions ≠ []) :
    ∃ whole, Graph.build namespaces insertions = .ok whole ∧ PartsOf whole partitions := by
  obtain ⟨whole, built⟩ := Graph.exists_build (List.length_pos_iff.mpr occupied)
    fun shard inside => by
      obtain ⟨graph, config, stream, part, _⟩ :=
        shards shard _ (List.getElem?_eq_getElem inside)
      exact ⟨graph, part⟩
  refine ⟨whole, built, fun shard partition there => ?_⟩
  obtain ⟨graph, config, stream, part, run⟩ := shards shard partition there
  rw [(Partition.spec_of_build run).1]
  exact Graph.isPart_of_build built part

/-- A client that has connected to the shards finds what the graph of all insertions holds. -/
theorem Cluster.finds_whole (shards : BuiltShards namespaces insertions partitions)
    (small : (insertions.flatMap Insertion.entries).length < UInt64.size) {config : Config}
    {cluster : Cluster WordStream} {world later : World WordStream}
    (connected : runFrom (connect (.inProcess (partitions.map Partition.answer)) config) world =
      (.ok cluster, later)) :
    ∃ whole, Graph.build namespaces insertions = .ok whole ∧
      ∀ nodes : List NodeId, nodes.length < UInt64.size → ∀ world : World WordStream,
        let ofNodes := nodes.map fun node => featureOrAbsent (whole.nodeFeature? node)
        let ofNeighbors := nodes.map fun node => featureOrAbsent (whole.neighborFeature? node)
        let contexts := nodes.map fun node => (whole.context? node).getD []
        (runFrom (cluster.features nodes) world).1 = .ok (ofNodes, ofNeighbors) ∧
        (runFrom (cluster.nodeFeatures nodes) world).1 = .ok ofNodes ∧
        (runFrom (cluster.neighborFeatures nodes) world).1 = .ok ofNeighbors ∧
        (runFrom (cluster.contexts nodes) world).1 =
          (fun _ => contexts) <$> requireContexts contexts := by
  obtain ⟨positive, link, _⟩ := Cluster.spec_of_connect connected
  have occupied : partitions ≠ [] := by
    rintro rfl
    exact absurd positive (by decide)
  obtain ⟨whole, built, parts⟩ := shards.exists_whole occupied
  have fits := Graph.fits_of_build built small
  have holds : ∀ nodes : List NodeId, nodes.length < UInt64.size →
      (Link.toPartitions partitions config.deadline?).Holds whole nodes :=
    fun nodes short => Link.holds_toPartitions parts fits occupied config.deadline? short
  have agrees := Cluster.agrees_of_connect holds connected
  refine ⟨whole, built, fun nodes short world => ?_⟩
  have held : cluster.link.Holds whole nodes := link ▸ holds nodes short
  refine ⟨Link.lookupFeatures_eq_ok held agrees world,
    Link.lookup_of_true _ held.positive held.nodeFeatures agrees.nodeFeature world,
    Link.lookup_of_true _ held.positive held.neighborFeatures agrees.neighborFeature world, ?_⟩
  have found := Link.lookup_of_true _ held.positive held.contexts agrees.context world
  rw [contexts, runFrom_bind_of_ok (Prod.ext found rfl)]
  change (runFrom (liftM (requireContexts _) >>= _) _).1 = _
  cases requireContexts (nodes.map fun node => (whole.context? node).getD []) with
  | ok _ => rfl
  | error _ => rfl

/-- **Lookups of a cluster are lookups in the whole graph.** Let the shards be built over the
insertions about the nodes that they own, and let a client be connected to them. All lists fit
in memory. Then the graph of all insertions can be built, and for every list of nodes, known
or unknown, cached or not, with repetitions or without, the client finds both features, each
feature alone and the contexts that a partition over the whole graph finds, in the order of the
list, and is refused contexts exactly when the partition refuses them. -/
theorem Cluster.lookups_eq_whole (shards : BuiltShards namespaces insertions partitions)
    (small : (insertions.flatMap Insertion.entries).length < UInt64.size) {config : Config}
    {cluster : Cluster WordStream} {world later : World WordStream}
    (connected : runFrom (connect (.inProcess (partitions.map Partition.answer)) config) world =
      (.ok cluster, later)) :
    ∃ whole, Graph.build namespaces insertions = .ok whole ∧
      ∀ config stream partition, Partition.build whole config stream = .ok partition →
        ∀ nodes : List NodeId, nodes.length < UInt64.size → ∀ world : World WordStream,
          (runFrom (cluster.features nodes) world).1 =
            .ok (partition.nodeFeatures nodes, partition.neighborFeatures nodes) ∧
          (runFrom (cluster.nodeFeatures nodes) world).1 = .ok (partition.nodeFeatures nodes) ∧
          (runFrom (cluster.neighborFeatures nodes) world).1 =
            .ok (partition.neighborFeatures nodes) ∧
          (runFrom (cluster.contexts nodes) world).1 = partition.contexts nodes := by
  obtain ⟨whole, built, finds⟩ := finds_whole shards small connected
  refine ⟨whole, built, fun config stream partition run nodes short world => ?_⟩
  obtain ⟨graph, _⟩ := Partition.spec_of_build run
  subst graph
  obtain ⟨features, ofNodes, ofNeighbors, contexts⟩ := finds nodes short world
  refine ⟨features, ofNodes, ofNeighbors, contexts.trans ?_⟩
  rw [Partition.contexts]
  change _ <$> requireContexts (partition.contextsPartial nodes) = _
  cases requireContexts (partition.contextsPartial nodes) with
  | ok _ => rfl
  | error _ => rfl

/-! ## Two shards -/

/-- Contexts and features of nodes of two shards. -/
def mixedInsertions : List Insertion :=
  [.context 2 [(1, 1)], .nodeFeature 1 [(7, 0)], .context 3 [(2, 1)], .neighborFeature 2 [(8, 1)]]

/-- Uniform draws, and one hot node for each shard. -/
def uniformConfig : Config :=
  { negativeKernel := .uniform, neighborKernel := .uniform, hotThreshold := 1 }

/-- A partition over the insertions of one of two shards. -/
def mixedPartition? (shard : Nat) : Option Partition :=
  (Graph.build .single (Graph.ownedInsertions 2 shard mixedInsertions) >>= fun graph =>
    Partition.build graph uniformConfig (.cycle #[])).toOption

/-- The partition of the shard of even nodes. -/
def evenPartition : Partition := (mixedPartition? 0).get (by decide +kernel)

/-- The partition of the shard of odd nodes. -/
def oddPartition : Partition := (mixedPartition? 1).get (by decide +kernel)

/-- The two partitions are built over the parts of the insertions. -/
theorem build_of_mixed {shard : Nat} {partition : Partition}
    (there : [evenPartition, oddPartition][shard]? = some partition) :
    ∃ graph, Graph.build .single (Graph.ownedInsertions 2 shard mixedInsertions) = .ok graph ∧
      Partition.build graph uniformConfig (.cycle #[]) = .ok partition := by
  have built : ∀ shard, mixedPartition? shard = some partition →
      ∃ graph, Graph.build .single (Graph.ownedInsertions 2 shard mixedInsertions) = .ok graph ∧
        Partition.build graph uniformConfig (.cycle #[]) = .ok partition :=
    fun shard run => except_bind_eq_ok.mp (except_toOption_eq_some.mp run)
  have even : mixedPartition? 0 = some evenPartition := (Option.some_get _).symm
  have odd : mixedPartition? 1 = some oddPartition := (Option.some_get _).symm
  rcases shard with _ | _ | shard
  · exact built 0 (Option.some.inj there ▸ even)
  · exact built 1 (Option.some.inj there ▸ odd)
  · exact nomatch there

theorem builtShards_mixed : BuiltShards .single mixedInsertions [evenPartition, oddPartition] := by
  intro shard partition there
  obtain ⟨graph, part, made⟩ := build_of_mixed there
  exact ⟨graph, uniformConfig, .cycle #[], part, made⟩

theorem connects_mixed : ∃ cluster later,
    runFrom (Cluster.connect (.inProcess [evenPartition.answer, oddPartition.answer]) uniformConfig)
      ⟨.cycle #[], .cycle #[]⟩ = (.ok cluster, later) :=
  exists_of_isOk (by decide +kernel)

theorem Cluster.lookups_eq_whole_mixed :
    BuiltShards .single mixedInsertions [evenPartition, oddPartition] ∧
    (mixedInsertions.flatMap Insertion.entries).length < UInt64.size ∧
    ∃ cluster later,
      runFrom (connect (.inProcess [evenPartition.answer, oddPartition.answer]) uniformConfig)
        ⟨.cycle #[], .cycle #[]⟩ = (.ok cluster, later) ∧
      ∃ whole, Graph.build .single mixedInsertions = .ok whole ∧
        ∀ partition, Partition.build whole uniformConfig (.cycle #[]) = .ok partition →
          (runFrom (cluster.contexts [3, 5, 2, 3]) ⟨.cycle #[], .cycle #[]⟩).1 =
            partition.contexts [3, 5, 2, 3] := by
  obtain ⟨cluster, later, connected⟩ := connects_mixed
  obtain ⟨whole, built, found⟩ := lookups_eq_whole builtShards_mixed (by decide) connected
  refine ⟨builtShards_mixed, by decide, cluster, later, connected, whole, built, ?_⟩
  intro partition run
  exact (found uniformConfig (.cycle #[]) partition run [3, 5, 2, 3] (by decide) _).2.2.2

end ShardedGraph
