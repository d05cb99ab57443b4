import ShardedGraph.Client
import ShardedGraph.Proofs.Agreement
import ShardedGraph.Proofs.Loading

/-!
# Features that are answered

What a node has as a feature is what was inserted for it last (`lastFeature`). A client that knows
a graph, by holding it or by asking shards for it, answers this feature for each node, and the
absent one for a node for which none was inserted (`Client.Knows`, `Client.features_answered`).

**Empty features.** The absent feature is not empty, so an answer is empty only because an empty
feature was inserted last, and then it is. A line of a feature file that names a node and no pairs
inserts an empty feature, and so may any insertion (`Client.answers_empty_mixed`). When every
feature that is inserted has a pair, no answer is empty.
-/

set_option autoImplicit false

namespace ShardedGraph

/-! ## Features that are inserted -/

namespace Insertion

/-- The feature of a node that an insertion brings. -/
def nodeFeature? : Insertion → Option Feature
  | nodeFeature _ feature => some feature
  | _ => none

/-- The feature of a node as a neighbor that an insertion brings. -/
def neighborFeature? : Insertion → Option Feature
  | neighborFeature _ feature => some feature
  | _ => none

end Insertion

/-- The feature that was brought last for a node. -/
def lastFeature (brought : Insertion → Option Feature) (insertions : List Insertion)
    (node : NodeId) : Option Feature :=
  ((insertions.filter fun insertion => insertion.node = node).filterMap brought).getLast?

/-- A feature that was brought last was brought. -/
theorem mem_of_lastFeature {brought : Insertion → Option Feature} {insertions : List Insertion}
    {node : NodeId} {feature : Feature}
    (last : lastFeature brought insertions node = some feature) :
    ∃ insertion ∈ insertions, insertion.node = node ∧ brought insertion = some feature := by
  obtain ⟨insertion, member, same⟩ := List.mem_filterMap.mp (List.mem_of_getLast? last)
  obtain ⟨among, about⟩ := List.mem_filter.mp member
  exact ⟨insertion, among, of_decide_eq_true about, same⟩

namespace Graph

/-- What insertions about one node say of it is what they bring last. -/
theorem features_foldl_hear (insertions : List Insertion) :
    (insertions.foldl Said.hear Said.nothing).nodeFeature =
        (insertions.filterMap Insertion.nodeFeature?).getLast? ∧
      (insertions.foldl Said.hear Said.nothing).neighborFeature =
        (insertions.filterMap Insertion.neighborFeature?).getLast? := by
  induction insertions using List.reverseRecOn with
  | nil => exact ⟨rfl, rfl⟩
  | append_singleton insertions last ih =>
      rw [List.foldl_append, List.filterMap_append, List.filterMap_append]
      cases last with
      | context node neighbors =>
          simpa [Said.hear, Insertion.nodeFeature?, Insertion.neighborFeature?] using ih
      | nodeFeature node feature =>
          simpa [Said.hear, Insertion.nodeFeature?, Insertion.neighborFeature?] using ih.2
      | neighborFeature node feature =>
          simpa [Said.hear, Insertion.nodeFeature?, Insertion.neighborFeature?] using ih.1

/-- A built graph has the features that were brought last. -/
theorem features_of_build {namespaces : NamespaceTable} {insertions : List Insertion}
    {graph : Graph} (run : build namespaces insertions = .ok graph) (node : NodeId) :
    graph.nodeFeature? node = lastFeature Insertion.nodeFeature? insertions node ∧
      graph.neighborFeature? node = lastFeature Insertion.neighborFeature? insertions node := by
  obtain ⟨_, ofNode, ofNeighbor⟩ := answers_of_build run node
  rw [ofNode, ofNeighbor, Draft.saidOf_ofInsertions]
  exact features_foldl_hear _

end Graph

/-! ## Answers -/

/-- What is answered for nodes of which features are brought. -/
def answeredFeatures (brought : Insertion → Option Feature) (insertions : List Insertion)
    (nodes : List NodeId) : List Feature :=
  nodes.map fun node => featureOrAbsent (lastFeature brought insertions node)

section Answers

variable {brought : Insertion → Option Feature} {insertions : List Insertion} {nodes : List NodeId}

/-- An answer is empty because an empty feature was brought last. -/
theorem nil_mem_answeredFeatures :
    [] ∈ answeredFeatures brought insertions nodes ↔
      ∃ node ∈ nodes, lastFeature brought insertions node = some [] := by
  rw [answeredFeatures, List.mem_map]
  refine exists_congr fun node => and_congr_right fun _ => ?_
  cases lastFeature brought insertions node with
  | none => simp [featureOrAbsent, absentFeature]
  | some feature => simp [featureOrAbsent]

/-- No answer is empty when no feature that is brought is. -/
theorem ne_nil_of_mem_answeredFeatures
    (filled : ∀ insertion ∈ insertions, brought insertion ≠ some []) {feature : Feature}
    (member : feature ∈ answeredFeatures brought insertions nodes) : feature ≠ [] := by
  rintro rfl
  obtain ⟨node, _, last⟩ := nil_mem_answeredFeatures.mp member
  obtain ⟨insertion, among, _, empty⟩ := mem_of_lastFeature last
  exact filled insertion among empty

/-- An answer for nodes that consists of the features that were brought last: it is empty at a node
whose last feature is, and nowhere when all features that are brought have pairs. -/
structure LastAnswered (brought : Insertion → Option Feature) (insertions : List Insertion)
    (nodes : List NodeId) (features : List Feature) : Prop where
  eq_answered : features = answeredFeatures brought insertions nodes
  nil_mem_iff : [] ∈ features ↔ ∃ node ∈ nodes, lastFeature brought insertions node = some []
  ne_nil : (∀ insertion ∈ insertions, brought insertion ≠ some []) →
    ∀ feature ∈ features, feature ≠ []

/-- What is answered are the features that were brought last. -/
theorem lastAnswered_answeredFeatures :
    LastAnswered brought insertions nodes (answeredFeatures brought insertions nodes) where
  eq_answered := rfl
  nil_mem_iff := nil_mem_answeredFeatures
  ne_nil := fun filled _ => ne_nil_of_mem_answeredFeatures filled

end Answers

/-! ## Clients that know a graph -/

namespace Client

/-- A client of the graph that insertions make: it holds a partition over the graph, or it has
connected to shards that hold partitions over the insertions about their nodes. -/
inductive Knows (namespaces : NamespaceTable) (insertions : List Insertion) :
    Client WordStream → Prop
  | whole {graph config stream partition}
      (built : Graph.build namespaces insertions = .ok graph)
      (made : Partition.build graph config stream = .ok partition) :
      Knows namespaces insertions (.whole partition)
  | split {partitions config cluster world later}
      (shards : BuiltShards namespaces insertions partitions)
      (small : (insertions.flatMap Insertion.entries).length < UInt64.size)
      (connected : runFrom (Cluster.connect (.inProcess (partitions.map Partition.answer)) config)
        world = (.ok cluster, later)) :
      Knows namespaces insertions (.split cluster)

variable {namespaces : NamespaceTable} {insertions : List Insertion} {client : Client WordStream}

/-- A client that loads a graph knows what its files say of the nodes of its shard. -/
theorem knows_of_load {folder : Folder} {config : Config} {stream : WordStream}
    (run : load folder config stream = .ok client) :
    ∃ namespaces insertions, Graph.readAll folder config = .ok (namespaces, insertions) ∧
      client.Knows namespaces
        (Graph.ownedInsertions config.shardCount.toNat config.shard.toNat insertions) := by
  obtain ⟨partition, loaded, rfl⟩ := except_map_eq_ok.mp run
  obtain ⟨⟨⟩, checked, loaded⟩ := except_bind_eq_ok.mp loaded
  obtain ⟨graph, found, made⟩ := except_bind_eq_ok.mp loaded
  have positive := (Config.check_eq_ok_iff.mp checked).shardCount_pos
  rw [Graph.load_eq positive] at found
  obtain ⟨⟨namespaces, insertions⟩, read, built⟩ := except_bind_eq_ok.mp found
  exact ⟨namespaces, insertions, read, .whole built made⟩

/-- Shards that load their parts of a graph have what its files say of their nodes. -/
theorem builtShards_of_load {folder : Folder} {config : Config} {partitions : List Partition}
    (some : partitions ≠ []) (few : partitions.length < UInt64.size)
    (loaded : ∀ (shard : Nat) partition, partitions[shard]? = .some partition → ∃ stream,
      Partition.load folder
        (config.ofShard (UInt64.ofNat partitions.length) (UInt64.ofNat shard)) stream =
          .ok partition) :
    ∃ namespaces insertions, Graph.readAll folder config = .ok (namespaces, insertions) ∧
      BuiltShards namespaces insertions partitions := by
  have count : (UInt64.ofNat partitions.length).toNat = partitions.length :=
    UInt64.toNat_ofNat_of_lt few
  have each : ∀ (shard : Nat) partition, partitions[shard]? = .some partition →
      ∃ namespaces insertions graph settings stream,
        Graph.readAll folder config = .ok (namespaces, insertions) ∧
        Graph.build namespaces (Graph.ownedInsertions partitions.length shard insertions) =
          .ok graph ∧
        Partition.build graph settings stream = .ok partition := by
    intro shard partition there
    obtain ⟨stream, run⟩ := loaded shard partition there
    obtain ⟨inside, _⟩ := List.getElem?_eq_some_iff.mp there
    obtain ⟨_, _, run⟩ := except_bind_eq_ok.mp run
    obtain ⟨graph, found, made⟩ := except_bind_eq_ok.mp run
    rw [Graph.load_ofShard folder config (count.symm ▸ inside), count] at found
    obtain ⟨⟨namespaces, insertions⟩, read, built⟩ := except_bind_eq_ok.mp found
    exact ⟨namespaces, insertions, graph, _, stream, read, built, made⟩
  obtain ⟨namespaces, insertions, _, _, _, read, _⟩ :=
    each 0 _ (List.getElem?_eq_getElem (List.length_pos_iff.mpr some))
  refine ⟨namespaces, insertions, read, fun shard partition there => ?_⟩
  obtain ⟨_, _, graph, settings, stream, read', built, made⟩ := each shard partition there
  cases read.symm.trans read'
  exact ⟨graph, settings, stream, built, made⟩

/-- A client answers the features that were inserted last when it is asked for nodes in a world, for
the features of both kinds or of one. -/
def AnswersLast (client : Client WordStream) (insertions : List Insertion) (nodes : List NodeId)
    (world : World WordStream) : Prop :=
  ∃ ofNodes ofNeighbors,
    (runFrom (client.features nodes) world).1 = .ok (ofNodes, ofNeighbors) ∧
    (runFrom (client.nodeFeatures nodes) world).1 = .ok ofNodes ∧
    (runFrom (client.neighborFeatures nodes) world).1 = .ok ofNeighbors ∧
    LastAnswered Insertion.nodeFeature? insertions nodes ofNodes ∧
    LastAnswered Insertion.neighborFeature? insertions nodes ofNeighbors

/-- What a client that knows a graph answers when it is asked for features. -/
theorem Knows.answers (knows : client.Knows namespaces insertions) {nodes : List NodeId}
    (short : nodes.length < UInt64.size) (world : World WordStream) :
    let ofNodes := answeredFeatures Insertion.nodeFeature? insertions nodes
    let ofNeighbors := answeredFeatures Insertion.neighborFeature? insertions nodes
    (runFrom (client.features nodes) world).1 = .ok (ofNodes, ofNeighbors) ∧
      (runFrom (client.nodeFeatures nodes) world).1 = .ok ofNodes ∧
      (runFrom (client.neighborFeatures nodes) world).1 = .ok ofNeighbors := by
  have known : ∀ {graph : Graph}, Graph.build namespaces insertions = .ok graph →
      (nodes.map fun node => featureOrAbsent (graph.nodeFeature? node)) =
          answeredFeatures Insertion.nodeFeature? insertions nodes ∧
        (nodes.map fun node => featureOrAbsent (graph.neighborFeature? node)) =
          answeredFeatures Insertion.neighborFeature? insertions nodes := by
    intro graph built
    refine ⟨List.map_congr_left fun node _ => ?_, List.map_congr_left fun node _ => ?_⟩
    · rw [(Graph.features_of_build built node).1]
    · rw [(Graph.features_of_build built node).2]
  dsimp only
  cases knows with
  | @whole graph _ _ partition built made =>
      obtain ⟨ofNodes, ofNeighbors⟩ := known built
      rw [← ofNodes, ← ofNeighbors, ← (Partition.spec_of_build made).1]
      exact ⟨rfl, rfl, rfl⟩
  | @split _ _ cluster _ _ shards small connected =>
      obtain ⟨whole, built, finds⟩ := Cluster.finds_whole shards small connected
      obtain ⟨ofNodes, ofNeighbors⟩ := known built
      obtain ⟨features, first, second, _⟩ := finds nodes short world
      rw [← ofNodes, ← ofNeighbors]
      exact ⟨features, first, second⟩

/-- A client that knows a graph answers the features that were inserted last. -/
theorem Knows.answersLast (knows : client.Knows namespaces insertions) {nodes : List NodeId}
    (short : nodes.length < UInt64.size) (world : World WordStream) :
    client.AnswersLast insertions nodes world := by
  obtain ⟨both, first, second⟩ := knows.answers short world
  exact ⟨_, _, both, first, second, lastAnswered_answeredFeatures, lastAnswered_answeredFeatures⟩

/-- **Features that are answered are those that were inserted last.** Asked for the features of any
nodes, of both kinds or of one, a client answers for each node the feature that was inserted last
for it, and the absent one if none was. So an answer is empty exactly when a node is asked for whose
last feature is empty, and never when all inserted features have pairs. This holds of a client that
knows the graph of some insertions, in its own process or from shards; of a client that loads its
graph, for the insertions about its shard that the files ask for; and of a client of shards that
load their parts of a graph, for all insertions that the files ask for. -/
theorem features_answered {nodes : List NodeId} (short : nodes.length < UInt64.size)
    (world : World WordStream) :
    (∀ (client : Client WordStream) (namespaces : NamespaceTable) (insertions : List Insertion),
      client.Knows namespaces insertions → client.AnswersLast insertions nodes world) ∧
    (∀ (folder : Folder) (config : Config) (stream : WordStream) (client : Client WordStream),
      load folder config stream = .ok client →
        ∃ namespaces insertions, Graph.readAll folder config = .ok (namespaces, insertions) ∧
          client.AnswersLast
            (Graph.ownedInsertions config.shardCount.toNat config.shard.toNat insertions)
            nodes world) ∧
    ∀ (folder : Folder) (config : Config) (partitions : List Partition), partitions ≠ [] →
      partitions.length < UInt64.size →
        (∀ (shard : Nat) partition, partitions[shard]? = some partition → ∃ stream,
          Partition.load folder
            (config.ofShard (UInt64.ofNat partitions.length) (UInt64.ofNat shard)) stream =
              .ok partition) →
          ∃ namespaces insertions, Graph.readAll folder config = .ok (namespaces, insertions) ∧
            ((insertions.flatMap Insertion.entries).length < UInt64.size →
              ∀ settings before cluster later,
                runFrom (Cluster.connect (.inProcess (partitions.map Partition.answer)) settings)
                  before = (.ok cluster, later) →
                  (split cluster).AnswersLast insertions nodes world) := by
  refine ⟨fun client namespaces insertions knows => knows.answersLast short world,
    fun folder config stream client run => ?_, fun folder config partitions some few loaded => ?_⟩
  · obtain ⟨namespaces, insertions, read, knows⟩ := knows_of_load run
    exact ⟨namespaces, insertions, read, knows.answersLast short world⟩
  · obtain ⟨namespaces, insertions, read, shards⟩ := builtShards_of_load some few loaded
    exact ⟨namespaces, insertions, read, fun small settings before cluster later connected =>
      (Knows.split shards small connected).answersLast short world⟩

/-- The client of two shards answers the feature of node 1 and the absent feature for node 5, and
none of its answers is empty. -/
theorem features_answered_mixed :
    ∃ cluster later,
      runFrom (Cluster.connect (.inProcess [evenPartition.answer, oddPartition.answer])
        uniformConfig) ⟨.cycle #[], .cycle #[]⟩ = (.ok cluster, later) ∧
      (Client.split cluster).Knows .single mixedInsertions ∧
      [(1 : NodeId), 5].length < UInt64.size ∧
      (∀ insertion ∈ mixedInsertions, insertion.nodeFeature? ≠ some []) ∧
      (runFrom ((Client.split cluster).nodeFeatures [1, 5]) later).1 =
        .ok [[(7, 0)], absentFeature] ∧
      ∀ feature ∈ [[(7, 0)], absentFeature], feature ≠ [] := by
  obtain ⟨cluster, later, connected⟩ := connects_mixed
  have knows : (Client.split cluster).Knows .single mixedInsertions :=
    .split builtShards_mixed (by decide) connected
  have filled : ∀ insertion ∈ mixedInsertions, insertion.nodeFeature? ≠ some [] := by decide
  obtain ⟨_, _, _, first, _, ⟨rfl, _, never⟩, _⟩ :=
    (features_answered (by decide : [(1 : NodeId), 5].length < UInt64.size) later).1 _ _ _ knows
  have answers : answeredFeatures Insertion.nodeFeature? mixedInsertions [1, 5] =
      [[(7, 0)], absentFeature] := by decide
  rw [answers] at first never
  exact ⟨cluster, later, connected, knows, by decide, filled, first, never filled⟩

/-- A feature without pairs, as a line with a node alone asks for. -/
def bareInsertions : List Insertion := [.nodeFeature 5 [], .neighborFeature 5 []]

/-- A partition over the insertions that a shard of some shards owns. -/
def barePartition? (shards shard : Nat) : Option Partition :=
  (Graph.build .single (Graph.ownedInsertions shards shard bareInsertions) >>= fun graph =>
    Partition.build graph {} (.cycle #[])).toOption

/-- A line of a feature file with a node and no pairs asks for an empty feature. A client over the
graph and a client of two shards both answer it, where the absent feature would say that the node
has none. -/
theorem answers_empty_mixed :
    Graph.readLines "5" = .ok [⟨5, []⟩] ∧
    ((barePartition? 1 0).map fun partition =>
      (runFrom ((whole partition : Client Unit).nodeFeatures [5]) ⟨(), .cycle #[]⟩).1) =
        some (.ok [[]]) ∧
    ((barePartition? 2 0).bind fun even => (barePartition? 2 1).map fun odd =>
      (runFrom (ofTransport (.inProcess [even.answer, odd.answer]) {} >>= fun client =>
        client.nodeFeatures [5]) ⟨.cycle #[], .cycle #[]⟩).1) = some (.ok [[]]) := by
  exact ⟨except_toOption_eq_some.mp (by decide +kernel), by decide +kernel, by decide +kernel⟩

end Client

end ShardedGraph
