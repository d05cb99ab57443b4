import ShardedGraph.Proofs.Entries
import ShardedGraph.Proofs.Messages
import ShardedGraph.Proofs.Neighborhoods
import ShardedGraph.Proofs.Pools

/-!
# Draws of a cluster for every node

A client that is connected to the shards of a graph has the owner of every query node draw for it.
What stands at the place of a node is what its owner has drawn, so it has the properties of a draw
of this shard: negative nodes are a sample of the owner's candidates, and neighbors are a sample of
the context that the node has in the whole graph (`Cluster.draws_eachPlace`).

**Nothing found.** A shard sees a part of a batch and does not judge it. Whoever sees the whole
batch does, once, and refuses lists that are all empty although something was asked for
(`GivesLists`). Samples are empty only where there are no neighbors, so a cluster and a partition
over the whole graph refuse the same batches (`GivesLists.eq_error_iff`). Where there is only one
sample for every node they also give the same (`GivesLists.unique`).

**Progress.** A partition gives neighbors for every list of nodes, and what it gives can be sent, so
no request for neighbors fails for any other reason.
-/

set_option autoImplicit false

namespace ShardedGraph

/-! ## Judging whole batches -/

/-- What comes of a request for neighbors of some nodes: good lists, which are not all empty when
something was asked for, or an error when good lists are. -/
inductive GivesLists (good : NodeId → List NodeId → Prop) (count : Int) (nodes : List NodeId) :
    Except Error (List (List NodeId)) → Prop where
  | found {lists : List (List NodeId)} (each : List.Forall₂ good nodes lists)
      (some : count ≠ 0 → nodes ≠ [] → ∃ list ∈ lists, list ≠ []) :
      GivesLists good count nodes (.ok lists)
  | nothing {lists : List (List NodeId)} (each : List.Forall₂ good nodes lists)
      (asked : count ≠ 0) (occupied : nodes ≠ []) (empty : ∀ list ∈ lists, list = []) :
      GivesLists good count nodes (.error (.noNeighbors nodes.length))

section Judged

variable {good good' : NodeId → List NodeId → Prop} {count : Int} {nodes : List NodeId}
  {lists : List (List NodeId)} {result result' : Except Error (List (List NodeId))}

/-- Good lists are given, or refused when all of them are empty. -/
theorem givesLists_of_forall₂ (each : List.Forall₂ good nodes lists) :
    GivesLists good count nodes ((requireNeighbors count lists).map fun _ => lists) := by
  have length := each.length_eq
  unfold requireNeighbors
  split
  · next refused =>
    obtain ⟨asked, occupied, empty⟩ := refused
    have some : nodes ≠ [] := by
      rintro rfl
      exact occupied (List.length_eq_zero_iff.mp length.symm)
    change GivesLists good count nodes (.error (.noNeighbors lists.length))
    rw [← length]
    exact .nothing each asked some fun list member =>
      List.isEmpty_iff.mp (List.all_eq_true.mp empty list member)
  · next given =>
    refine .found each fun asked some => ?_
    have occupied : lists ≠ [] := by
      rintro rfl
      exact some (List.length_eq_zero_iff.mp length)
    simpa [asked, occupied] using given

theorem GivesLists.mono (gives : GivesLists good count nodes result)
    (weaker : ∀ node list, good node list → good' node list) :
    GivesLists good' count nodes result := by
  cases gives with
  | found each some => exact .found (each.imp weaker) some
  | nothing each asked occupied empty => exact .nothing (each.imp weaker) asked occupied empty

/-- A request for samples fails exactly when something is asked for and no node has neighbors. -/
theorem GivesLists.eq_error_iff {context : NodeId → Context}
    (gives : GivesLists good count nodes result)
    (sampled : ∀ node list, good node list →
      ∃ tables, IsNeighborSample tables node (context node) count list)
    (error : Error) :
    result = .error error ↔ error = .noNeighbors nodes.length ∧ count ≠ 0 ∧ nodes ≠ [] ∧
      ∀ node ∈ nodes, context node = [] := by
  cases gives with
  | found each some =>
      refine iff_of_false (fun failed => by cases failed) ?_
      rintro ⟨-, asked, occupied, alone⟩
      obtain ⟨list, member, filled⟩ := some asked occupied
      obtain ⟨node, among, fine⟩ := exists_of_forall₂_of_mem each member
      obtain ⟨tables, isSample⟩ := sampled node list fine
      exact filled ((isSample.eq_nil_iff asked).mpr (alone node among))
  | nothing each asked occupied empty =>
      have alone : ∀ node ∈ nodes, context node = [] := by
        intro node among
        obtain ⟨list, member, fine⟩ := exists_of_forall₂_of_mem each.flip among
        obtain ⟨tables, isSample⟩ := sampled node list fine
        exact (isSample.eq_nil_iff asked).mp (empty list member)
      constructor
      · intro failed
        cases failed
        exact ⟨rfl, asked, occupied, alone⟩
      · rintro ⟨rfl, -⟩
        rfl

/-- Where there is only one good list for every node, there is only one thing to give. -/
theorem GivesLists.unique {list : NodeId → List NodeId}
    (gives : GivesLists (fun node given => given = list node) count nodes result)
    (gives' : GivesLists (fun node given => given = list node) count nodes result') :
    result = result' := by
  have only : ∀ {lists : List (List NodeId)},
      List.Forall₂ (fun node given => given = list node) nodes lists → lists = nodes.map list := by
    intro lists each
    rw [← List.forall₂_eq_eq_eq, List.forall₂_map_right_iff]
    exact each.flip
  cases gives with
  | found each some =>
      cases gives' with
      | found each' some' => rw [only each, only each']
      | nothing each' asked occupied empty =>
          obtain ⟨list, member, occupied⟩ := some asked occupied
          rw [only each, ← only each'] at member
          exact absurd (empty list member) occupied
  | nothing each asked occupied empty =>
      cases gives' with
      | found each' some' =>
          obtain ⟨list, member, occupied⟩ := some' asked occupied
          rw [only each', ← only each] at member
          exact absurd (empty list member) occupied
      | nothing each' _ _ _ => rfl

end Judged

/-! ## Negative nodes -/

section Independent

variable {namespaces : NamespaceTable} {insertions : List Insertion} {partitions : List Partition}

/-- Independent samples of a partition are samples for each node. -/
theorem NegativePools.forall₂_sampleIndependent {pools : NegativePools} (covers : pools.Covers)
    {count : Nat} {nodes excluded : List NodeId} {lists : List (List NodeId)}
    {stream later : WordStream}
    (run : runFrom (pools.sample .independent count nodes excluded) stream = (.ok lists, later)) :
    List.Forall₂ (fun node sample => pools.IsSample (namespaceOf node) count excluded sample)
      nodes lists := by
  apply (forall₂_of_runFrom_mapM run).imp
  rintro node sample ⟨before, after, drawn⟩
  exact isSample_of_sampleFor covers drawn

/-- Negative nodes for a node from a shard: a sample of the candidates of its partition, all of them
in the namespace of the node. -/
def NegativesFrom (partitions : List Partition) (query : NegativeQuery) (shard : Nat)
    (node : NodeId) (sample : List NodeId) : Prop :=
  ∃ owner, partitions[shard]? = some owner ∧
    owner.negatives.IsSample (namespaceOf node) query.count.toNat query.excluded sample ∧
    ∀ drawn ∈ sample, namespaceOf drawn = namespaceOf node

variable (shards : BuiltShards namespaces insertions partitions) {query : NegativeQuery}
  (few : query.excluded.length < UInt64.size)

include shards few

/-- What a shard is heard to answer are negative nodes from it. -/
theorem Link.negativesFrom_of_heard {deadline : Option Nat} {shard : Nat}
    (short : query.nodes.length < UInt64.size) {stream : WordStream} {lists : List (List NodeId)}
    (heard : (((toPartitions partitions deadline).ask Reply.pools? shard
      (.independentNegatives query)).run stream).1.value = .ok lists) :
    List.Forall₂ (NegativesFrom partitions query shard) query.nodes lists := by
  have sampled : ∀ partition, partitions[shard]? = some partition → ∀ {lists stream later},
      runFrom (partition.negatives.sample .independent query.count.toNat query.nodes query.excluded)
        stream = (.ok lists, later) →
      List.Forall₂ (NegativesFrom partitions query shard) query.nodes lists := by
    intro partition there lists stream later run
    obtain ⟨graph, config, _, part, made⟩ := shards shard partition there
    have covers := (Partition.negatives_of_build made).2
    apply (NegativePools.forall₂_sampleIndependent covers run).imp
    intro node sample isSample
    refine ⟨partition, there, isSample, fun drawn member => ?_⟩
    apply Partition.namespace_of_candidate part made
    exact (Partition.givesPart_of_isSample isSample).candidate drawn member
  have sent : Wire.request.Reads (.independentNegatives query) := by
    apply Wire.isExact_request.reads
    simp [Request.lengths, short, few]
  obtain ⟨partition, reply, later, there, answered, taken⟩ := exists_answer_of_heard sent
    (fun partition reply later there answered => by
      obtain ⟨drawn, _, run, same⟩ := runFrom_bind_eq_ok answered
      cases same
      have samples := sampled partition there run
      apply Wire.isExact_reply.reads
      refine lengthsFit_lengthsOf.mpr ⟨samples.length_eq ▸ short, fun sample member => ?_⟩
      obtain ⟨node, -, owner, -, isSample, -⟩ := exists_of_forall₂_of_mem samples member
      rw [isSample.length]
      exact query.count.toNat_lt)
    heard
  obtain ⟨drawn, _, run, same⟩ := runFrom_bind_eq_ok answered
  cases same
  cases taken
  exact sampled partition there run

/-- The independent samples that a lookup gives come from the owners of the nodes. -/
theorem Link.negativesFrom_of_lookup (occupied : partitions ≠ []) (deadline : Option Nat)
    (short : query.nodes.length < UInt64.size) {world later : World WordStream}
    {lists : List (List NodeId)}
    (run : runFrom ((toPartitions partitions deadline).lookup (fun _ => none)
      (fun nodes => .independentNegatives { query with nodes }) Reply.pools? query.nodes) world =
        (.ok lists, later)) :
    List.Forall₂ (fun node sample =>
      NegativesFrom partitions query (ownerOf partitions.length node) node sample)
      query.nodes lists := by
  rw [← shards_toPartitions partitions deadline]
  apply forall₂_of_lookup (shards_toPartitions_pos occupied deadline)
    (NegativesFrom partitions query) ?_ run
  intro shard _ part sublist _ state lists heard
  have small := Nat.lt_of_le_of_lt sublist.length_le short
  exact @negativesFrom_of_heard _ _ _ shards { query with nodes := part } few _ _ small _ _ heard

end Independent

/-! ## Neighbors -/

section Neighbors

variable {namespaces : NamespaceTable} {insertions : List Insertion} {partitions : List Partition}

/-- A sample of a context that fits in memory does so as well. -/
theorem IsNeighborSample.length_lt {tables : NeighborTables} {node : NodeId} {context : Context}
    {count : Int32} {sample : List NodeId}
    (isSample : IsNeighborSample tables node context count.toInt sample)
    (small : context.length < UInt64.size) : sample.length < UInt64.size := by
  by_cases least : 0 ≤ count.toInt
  · have most := count.toInt_lt
    have few := isSample.atMost least
    have size : UInt64.size = 18446744073709551616 := rfl
    omega
  · rw [isSample.all (.inl (Int.not_le.mp least)), List.length_map]
    exact small

variable {whole : Graph} (shards : BuiltShards namespaces insertions partitions)
  (built : Graph.build namespaces insertions = .ok whole) {shard : Nat} {owner : Partition}
  (there : partitions[shard]? = some owner)

include shards built there

/-- What the owner of a node gives is a sample of the context that the node has in the whole
graph. -/
theorem BuiltShards.isNeighborSample {node : NodeId}
    (owned : ownerOf partitions.length node = shard) (count : Int) (stream : WordStream) :
    IsNeighborSample owner.neighbors node ((whole.context? node).getD []) count
      ((owner.neighbors.sampleFor count node).run stream).1 := by
  obtain ⟨graph, config, _, part, made⟩ := shards shard owner there
  obtain ⟨-, tables, -⟩ := Partition.spec_of_build made
  have same : graph.context? node = whole.context? node := by
    rw [(Graph.isPart_of_build built part).context, if_pos owned]
  rw [← same]
  exact NeighborTables.isNeighborSample_of_build tables (Graph.distinct_of_build part) count node
    stream

/-- The owner of a node draws for it as a partition over the whole graph does, when they use
kernels of the same kind. -/
theorem BuiltShards.sampleFor_eq {node : NodeId} (owned : ownerOf partitions.length node = shard)
    {config : Config} {chance : WordStream} {partition : Partition}
    (run : Partition.build whole config chance = .ok partition)
    (kind : owner.neighbors.kind = partition.neighbors.kind) (count : Int) :
    owner.neighbors.sampleFor count node = partition.neighbors.sampleFor count node := by
  obtain ⟨graph, config', _, part, made⟩ := shards shard owner there
  obtain ⟨-, tables, -⟩ := Partition.spec_of_build made
  obtain ⟨-, tables', -⟩ := Partition.spec_of_build run
  have same : graph.context? node = whole.context? node := by
    rw [(Graph.isPart_of_build built part).context, if_pos owned]
  rw [(NeighborTables.source_of_build tables).2, (NeighborTables.source_of_build tables').2] at kind
  rw [kind] at tables
  exact NeighborTables.sampleFor_of_build tables' tables same count

/-- A shard that is asked for neighbors of its nodes is heard to give what its tables draw. -/
theorem Link.value_ask_neighbors (fits : whole.Fits) (deadline : Option Nat) {query : NeighborQuery}
    (short : query.nodes.length < UInt64.size)
    (owned : ∀ node ∈ query.nodes, ownerOf partitions.length node = shard) (stream : WordStream) :
    (((toPartitions partitions deadline).ask Reply.neighbors? shard
      (.neighbors query)).run stream).1.value =
        .ok ((owner.neighbors.samplePartial query.count.toInt query.nodes).run stream).1 := by
  have sent : Wire.request.Reads (.neighbors query) := by
    apply Wire.isExact_request.reads
    simp [Request.lengths, short]
  have drawn := owner.neighbors.forall₂_samplePartial query.count.toInt query.nodes stream
  rcases run : (owner.neighbors.samplePartial query.count.toInt query.nodes).run stream
    with ⟨lists, later⟩
  rw [run] at drawn
  have given : runFrom (ExceptT.lift (owner.neighbors.samplePartial query.count.toInt query.nodes))
      stream = (.ok lists, later) := by
    rw [runFrom_lift, run]
  have answered : runFrom (owner.answer (.neighbors query)) stream =
      (.ok (.neighbors lists), later) := runFrom_bind_of_ok given
  have read : Wire.reply.Reads (.neighbors lists) := by
    apply Wire.isExact_reply.reads
    refine lengthsFit_lengthsOf.mpr ⟨drawn.length_eq ▸ short, fun list member => ?_⟩
    obtain ⟨node, among, before, rfl⟩ := exists_of_forall₂_of_mem drawn member
    exact (shards.isNeighborSample built there (owned node among) _ before).length_lt
      (fits.length_context node)
  rw [value_ask_inProcess (getElem?_services there), Transport.runFrom_serve _ _ sent, answered]
  dsimp only
  rw [Transport.throughWire_eq_ok read]
  rfl

end Neighbors

/-! ## Draws at every place -/

/-- Neighbors of a node as its owner draws them: a sample of the context that the node has in the
whole graph, and what every partition over the whole graph draws for the node with some chance, if
it uses kernels of the same kind as the owner. -/
structure AsInWhole (whole : Graph) (owner : Partition) (count : Int) (node : NodeId)
    (list : List NodeId) : Prop where
  isSample : IsNeighborSample owner.neighbors node ((whole.context? node).getD []) count list
  drawn : ∀ config chance partition, Partition.build whole config chance = .ok partition →
    owner.neighbors.kind = partition.neighbors.kind →
      ∃ before, ((partition.neighbors.sampleFor count node).run before).1 = list

/-- Neighbors of a node from a shard. -/
def NeighborsFrom (whole : Graph) (partitions : List Partition) (count : Int) (shard : Nat)
    (node : NodeId) (list : List NodeId) : Prop :=
  ∃ owner, partitions[shard]? = some owner ∧ AsInWhole whole owner count node list

section Drawn

variable {namespaces : NamespaceTable} {insertions : List Insertion} {partitions : List Partition}
  {whole : Graph} (shards : BuiltShards namespaces insertions partitions)
  (built : Graph.build namespaces insertions = .ok whole)

include shards built

/-- A lookup of neighbors gives for every node what its owner draws. -/
theorem Link.exists_neighbors (fits : whole.Fits) (occupied : partitions ≠ [])
    (deadline : Option Nat) {query : NeighborQuery} (short : query.nodes.length < UInt64.size)
    (world : World WordStream) :
    ∃ lists later, runFrom ((toPartitions partitions deadline).lookup (fun _ => none)
        (fun nodes => .neighbors { query with nodes }) Reply.neighbors? query.nodes) world =
          (.ok lists, later) ∧
      List.Forall₂ (fun node list => NeighborsFrom whole partitions query.count.toInt
        (ownerOf partitions.length node) node list) query.nodes lists := by
  have positive := shards_toPartitions_pos occupied deadline
  have gives : ∀ shard < (toPartitions partitions deadline).transport.shards,
      ∀ part : List NodeId, part.Sublist query.nodes →
      (∀ node ∈ part, ownerOf (toPartitions partitions deadline).transport.shards node = shard) →
      ∀ state, ∃ values, (((toPartitions partitions deadline).ask Reply.neighbors? shard
        (.neighbors { query with nodes := part })).run state).1.value = .ok values ∧
          List.Forall₂ (NeighborsFrom whole partitions query.count.toInt shard) part values := by
    intro shard inside part sublist owned state
    rw [shards_toPartitions] at inside owned
    have there := List.getElem?_eq_getElem inside
    have small := Nat.lt_of_le_of_lt sublist.length_le short
    refine ⟨_, @value_ask_neighbors _ _ _ _ shards built _ _ there fits deadline
      { query with nodes := part } small owned state, ?_⟩
    have drawn := partitions[shard].neighbors.forall₂_samplePartial query.count.toInt part state
    apply ((List.forall₂_and_left _ _).mpr ⟨owned, drawn⟩).imp
    rintro node _ ⟨own, before, rfl⟩
    refine ⟨partitions[shard], there, shards.isNeighborSample built there own _ before, ?_⟩
    intro config chance partition run kind
    exact ⟨before, by rw [shards.sampleFor_eq built there own run kind]⟩
  obtain ⟨lists, later, run⟩ := exists_lookup positive
    (fun shard inside part sublist owned state => by
      obtain ⟨values, heard, each⟩ := gives shard inside part sublist owned state
      exact ⟨values, heard, each.length_eq.symm⟩) world
  refine ⟨lists, later, run, ?_⟩
  rw [← shards_toPartitions partitions deadline]
  apply forall₂_of_lookup positive (NeighborsFrom whole partitions query.count.toInt) ?_ run
  intro shard inside part sublist owned state values heard
  obtain ⟨values', heard', each⟩ := gives shard inside part sublist owned state
  cases heard.symm.trans heard'
  exact each

end Drawn

/-- A value that is given when a judgement allows it. -/
theorem runFrom_liftM_return {S α β : Type} (judged : Except Error α) (value : β) (state : S) :
    runFrom ((liftM judged : ExceptT Error (StateM S) α) >>= fun _ => pure value) state =
      (judged.map fun _ => value, state) := by
  cases judged with
  | ok _ => rfl
  | error _ => rfl

/-- A sample for several nodes is what is sampled of each, unless all of it is refused. -/
theorem NeighborTables.runFrom_sample (tables : NeighborTables) (count : Int)
    (nodes : List NodeId) (stream : WordStream) :
    runFrom (tables.sample count nodes) stream =
      ((requireNeighbors count ((tables.samplePartial count nodes).run stream).1).map
          fun _ => ((tables.samplePartial count nodes).run stream).1,
        ((tables.samplePartial count nodes).run stream).2) :=
  (runFrom_bind_of_ok (runFrom_lift (tables.samplePartial count nodes) stream)).trans
    (runFrom_liftM_return _ _ _)

/-- Tables over a graph give samples of the contexts of nodes. -/
theorem NeighborTables.givesLists_sample {graph : Graph} {kind : KernelKind}
    {tables : NeighborTables} (run : build graph.source kind = .ok tables)
    (distinct : graph.Distinct) (count : Int) (nodes : List NodeId) (stream : WordStream) :
    GivesLists (fun node => IsNeighborSample tables node ((graph.context? node).getD []) count)
      count nodes (runFrom (tables.sample count nodes) stream).1 := by
  rw [runFrom_sample]
  apply givesLists_of_forall₂
  apply (tables.forall₂_samplePartial count nodes stream).imp
  rintro node list ⟨before, rfl⟩
  exact isNeighborSample_of_build run distinct count node before

namespace Cluster

variable {namespaces : NamespaceTable} {insertions : List Insertion} {partitions : List Partition}

/-- **Draws of a cluster meet the contract of a draw at every place.** Let the shards be built over
the insertions about the nodes that they own, let a client be connected to them, and let all lists
fit in memory. Whatever the chance, independent samples that the client gives are, at the place of
every node, samples of the candidates of the shard that owns the node. The graph of all insertions
can be built. Asked for neighbors, the client gives at the place of every node a sample of the
context of the node in this graph, one that a partition over the graph may draw as well; it fails
exactly when something is asked for and every place of a batch that is not empty would be empty,
which is when no node has neighbors in this graph. A partition over the whole graph gives samples of
the same contexts and fails in the same cases, and gives the same when all neighbors are asked
for. -/
theorem draws_eachPlace (shards : BuiltShards namespaces insertions partitions)
    (small : (insertions.flatMap Insertion.entries).length < UInt64.size) {config : Config}
    {cluster : Cluster WordStream} {world later : World WordStream}
    (connected : runFrom (connect (.inProcess (partitions.map Partition.answer)) config) world =
      (.ok cluster, later)) :
    (∀ query : NegativeQuery, query.nodes.length < UInt64.size →
      query.excluded.length < UInt64.size → ∀ (world later : World WordStream) lists,
        runFrom (cluster.independentNegatives query) world = (.ok lists, later) →
          List.Forall₂ (fun node sample =>
            NegativesFrom partitions query (ownerOf partitions.length node) node sample)
            query.nodes lists) ∧
    ∃ whole, Graph.build namespaces insertions = .ok whole ∧
      ∀ query : NeighborQuery, query.nodes.length < UInt64.size → ∀ world : World WordStream,
        GivesLists (fun node list => NeighborsFrom whole partitions query.count.toInt
            (ownerOf partitions.length node) node list) query.count.toInt query.nodes
          (runFrom (cluster.neighbors query) world).1 ∧
        (∀ error, (runFrom (cluster.neighbors query) world).1 = .error error ↔
          error = .noNeighbors query.nodes.length ∧ query.count.toInt ≠ 0 ∧ query.nodes ≠ [] ∧
            ∀ node ∈ query.nodes, (whole.context? node).getD [] = []) ∧
        ∀ config chance partition, Partition.build whole config chance = .ok partition →
          ∀ stream,
            GivesLists (fun node => IsNeighborSample partition.neighbors node
                ((whole.context? node).getD []) query.count.toInt) query.count.toInt query.nodes
              (runFrom (partition.neighbors.sample query.count.toInt query.nodes) stream).1 ∧
            (∀ error, (runFrom (cluster.neighbors query) world).1 = .error error ↔
              (runFrom (partition.neighbors.sample query.count.toInt query.nodes) stream).1 =
                .error error) ∧
            (query.count.toInt < 0 →
              (runFrom (cluster.neighbors query) world).1 =
                (runFrom (partition.neighbors.sample query.count.toInt query.nodes) stream).1) := by
  obtain ⟨positive, link, _⟩ := spec_of_connect connected
  have occupied : partitions ≠ [] := by
    rintro rfl
    exact absurd positive (by decide)
  obtain ⟨whole, built, -⟩ := shards.exists_whole occupied
  have fits := Graph.fits_of_build built small
  constructor
  · intro query short few world later lists run
    rw [independentNegatives, link] at run
    exact Link.negativesFrom_of_lookup shards few occupied config.deadline? short run
  refine ⟨whole, built, fun query short world => ?_⟩
  have gives : GivesLists (fun node list => NeighborsFrom whole partitions query.count.toInt
      (ownerOf partitions.length node) node list) query.count.toInt query.nodes
        (runFrom (cluster.neighbors query) world).1 := by
    obtain ⟨lists, after, run, each⟩ :=
      Link.exists_neighbors shards built fits occupied config.deadline? short world
    rw [neighbors, link, runFrom_bind_of_ok run, runFrom_liftM_return]
    exact givesLists_of_forall₂ each
  have fails := gives.eq_error_iff fun _ _ ⟨owner, _, asInWhole⟩ =>
    ⟨owner.neighbors, asInWhole.isSample⟩
  refine ⟨gives, fails, fun config chance partition run stream => ?_⟩
  obtain ⟨-, tables, -⟩ := Partition.spec_of_build run
  have gives' := NeighborTables.givesLists_sample tables (Graph.distinct_of_build built)
    query.count.toInt query.nodes stream
  refine ⟨gives', ?_, fun all => ?_⟩
  · intro error
    rw [fails, gives'.eq_error_iff fun _ _ isSample => ⟨partition.neighbors, isSample⟩]
  · apply GivesLists.unique (gives.mono ?_) (gives'.mono ?_)
    · exact fun node => ((whole.context? node).getD []).map Prod.fst
    · rintro node list ⟨owner, -, asInWhole⟩
      exact asInWhole.isSample.all (.inl all)
    · intro node list isSample
      exact isSample.all (.inl all)

/-- Negative nodes for nodes of both shards, where a node that both know is excluded. -/
theorem independent_mixed : ∃ after, runFrom
    (connect (.inProcess [evenPartition.answer, oddPartition.answer]) uniformConfig >>=
      fun cluster => cluster.independentNegatives ⟨1, [3, 2, 5], [2]⟩) spreadingWorld =
        (.ok [[3], [1], [3]], after) := exists_of_toOption_eq_some (by decide +kernel)

/-- A partition over the whole graph. -/
theorem partition_mixed : ∃ whole partition, Graph.build .single mixedInsertions = .ok whole ∧
    Partition.build whole uniformConfig (.cycle #[]) = .ok partition := by
  have some : (Graph.build .single mixedInsertions >>= fun whole =>
      Partition.build whole uniformConfig (.cycle #[])).toOption.isSome = true := by decide +kernel
  obtain ⟨partition, made⟩ := Option.isSome_iff_exists.mp some
  obtain ⟨whole, built, run⟩ := except_bind_eq_ok.mp (except_toOption_eq_some.mp made)
  exact ⟨whole, partition, built, run⟩

/-- Two shards, one of them asked about a node without neighbors. -/
theorem draws_eachPlace_mixed :
    BuiltShards .single mixedInsertions [evenPartition, oddPartition] ∧
    (mixedInsertions.flatMap Insertion.entries).length < UInt64.size ∧
    ∃ cluster later after whole partition,
      runFrom (connect (.inProcess [evenPartition.answer, oddPartition.answer]) uniformConfig)
        spreadingWorld = (.ok cluster, later) ∧
      runFrom (cluster.independentNegatives ⟨1, [3, 2, 5], [2]⟩) later =
        (.ok [[3], [1], [3]], after) ∧
      List.Forall₂ (fun node sample =>
        NegativesFrom [evenPartition, oddPartition] ⟨1, [3, 2, 5], [2]⟩ (ownerOf 2 node) node
          sample) [3, 2, 5] [[3], [1], [3]] ∧
      Graph.build .single mixedInsertions = .ok whole ∧
      Partition.build whole uniformConfig (.cycle #[]) = .ok partition ∧
      (runFrom (cluster.neighbors ⟨-1, [3, 5, 2, 3]⟩) later).1 =
        (runFrom (partition.neighbors.sample (-1) [3, 5, 2, 3]) (.cycle #[])).1 := by
  obtain ⟨after, both⟩ := independent_mixed
  obtain ⟨cluster, later, connected, run⟩ := runFrom_bind_eq_ok both
  obtain ⟨negatives, whole, built, neighbors⟩ :=
    draws_eachPlace builtShards_mixed (by decide) connected
  obtain ⟨whole', partition, built', made⟩ := partition_mixed
  cases built.symm.trans built'
  obtain ⟨-, -, alike⟩ := neighbors ⟨-1, [3, 5, 2, 3]⟩ (by decide) later
  obtain ⟨-, -, same⟩ := alike uniformConfig (.cycle #[]) partition made (.cycle #[])
  exact ⟨builtShards_mixed, by decide, cluster, later, after, whole, partition, connected, run,
    negatives ⟨1, [3, 2, 5], [2]⟩ (by decide) (by decide) later after _ run, built, made,
    same (by decide)⟩

end Cluster

end ShardedGraph
