import ShardedGraph.Cluster.Connect
import ShardedGraph.Proofs.Services

/-!
# Caches that agree with a graph

A cache agrees with a graph when every context and every feature that it knows is the one that
the graph holds (`Cache.Agrees`). The empty cache does, and putting in true entries keeps it
so (`Cache.Agrees.insertAll`). Clients fill their caches with what the shards answer, so a
client of shards that hold a graph has a cache that agrees with it, whichever nodes were hot
(`Link.agrees_of_fetchCache`, `Cluster.agrees_of_connect`).

With such a cache, a lookup gives what the graph holds, for cached nodes and for others:
`Link.lookup_of_holds` for each kind of entry, and `Link.lookupFeatures_eq_ok` for both
features at once, where a node is known only when both its features are.
-/

set_option autoImplicit false

namespace ShardedGraph

/-! ## Agreement -/

namespace Graph

/-- The context of a node, empty when there is none. -/
abbrev contextOf (graph : Graph) (node : NodeId) : Context := (graph.context? node).getD []

/-- The feature that is answered for a node. -/
abbrev nodeFeatureOf (graph : Graph) (node : NodeId) : Feature :=
  featureOrAbsent (graph.nodeFeature? node)

/-- The feature that is answered for a node as a neighbor. -/
abbrev neighborFeatureOf (graph : Graph) (node : NodeId) : Feature :=
  featureOrAbsent (graph.neighborFeature? node)

end Graph

namespace Cache

/-- All that a cache knows is what a graph holds. -/
structure Agrees (cache : Cache) (graph : Graph) : Prop where
  context : ∀ node context, cache.context? node = some context → context = graph.contextOf node
  nodeFeature : ∀ node feature, cache.nodeFeature? node = some feature →
    feature = graph.nodeFeatureOf node
  neighborFeature : ∀ node feature, cache.neighborFeature? node = some feature →
    feature = graph.neighborFeatureOf node

/-- What a graph holds for a node. -/
def Entry.ofGraph (graph : Graph) (node : NodeId) : Entry :=
  ⟨node, graph.contextOf node, graph.nodeFeatureOf node, graph.neighborFeatureOf node⟩

variable {cache : Cache} {graph : Graph}

theorem agrees_empty (graph : Graph) : empty.Agrees graph where
  context _ _ there := nomatch there
  nodeFeature _ _ there := nomatch there
  neighborFeature _ _ there := nomatch there

/-- A value that is put in under a node is found there, and the others as before. -/
theorem eq_of_getElem?_insert {α : Type} {map : NodeMap α} {value : NodeId → α} {node other : NodeId}
    {found : α} (before : ∀ other found, map[other]? = some found → found = value other)
    (there : (map.insert node (value node))[other]? = some found) : found = value other := by
  rw [Std.ExtTreeMap.getElem?_insert] at there
  split at there
  · next same =>
    cases there
    rw [Std.LawfulEqOrd.eq_of_compare same]
  · exact before other found there

theorem Agrees.insert (agrees : cache.Agrees graph) (node : NodeId) :
    (cache.insert (.ofGraph graph node)).Agrees graph where
  context other found there := by
    unfold Cache.context? Cache.insert at there
    dsimp only at there
    split at there
    · exact agrees.context other found there
    · exact eq_of_getElem?_insert agrees.context there
  nodeFeature _ _ there := eq_of_getElem?_insert agrees.nodeFeature there
  neighborFeature _ _ there := eq_of_getElem?_insert agrees.neighborFeature there

theorem Agrees.insertAll (agrees : cache.Agrees graph) (nodes : List NodeId) :
    (cache.insertAll (nodes.map (.ofGraph graph))).Agrees graph := by
  induction nodes generalizing cache with
  | nil => exact agrees
  | cons node nodes ih => exact ih (agrees.insert node)

/-- The features that a cache knows together are those of the graph. -/
theorem Agrees.features (agrees : cache.Agrees graph) {node : NodeId} {found : Feature × Feature}
    (there : cache.features? node = some found) :
    found = (graph.nodeFeatureOf node, graph.neighborFeatureOf node) := by
  unfold features? at there
  split at there
  · next ofNode ofNeighbor first second =>
    cases there
    rw [agrees.nodeFeature node _ first, agrees.neighborFeature node _ second]
  · cases there

end Cache

/-! ## Lookups -/

namespace Link

variable {σ : Type} {link : Link σ} {graph : Graph} {nodes : List NodeId} {cache : Cache}

/-- A lookup whose known entries are true gives the truth. -/
theorem lookup_of_true {α : Type} [Inhabited α] (known : NodeId → Option α) {value : NodeId → α}
    {make : List NodeId → Request} {take : Reply → Option (List α)}
    (positive : 0 < link.transport.shards)
    (answers : link.AnswersParts make take (fun _ => value) nodes)
    (agrees : ∀ node found, known node = some found → found = value node) (world : World σ) :
    (runFrom (link.lookup known make take nodes) world).1 = .ok (nodes.map value) := by
  rw [link.lookup_eq_ok positive answers world]
  refine congrArg Except.ok (List.map_congr_left fun node _ => ?_)
  cases found : known node with
  | none => rfl
  | some entry => exact agrees node entry found

/-- Both features of all nodes, when all of them are known together. -/
theorem runFrom_lookupFeatures_of_known (positive : 0 < link.transport.shards)
    (hits : (nodes.filter fun node => (cache.features? node).isNone) = []) (world : World σ) :
    runFrom (link.lookupFeatures cache nodes) world =
      (.ok (knownEntries (fun node => (cache.features? node).map Prod.fst) nodes,
        knownEntries (fun node => (cache.features? node).map Prod.snd) nodes), world) := by
  rw [lookupFeatures, unknownNodes_eq cache.features? positive,
    runFrom_bind_of_ok (runFrom_liftM _ world), if_pos (by rw [isEmpty_parcelsOf, hits]; rfl),
    runFrom_pure]

theorem runFrom_lookupFeatures_of_unknown (positive : 0 < link.transport.shards)
    (misses : (nodes.filter fun node => (cache.features? node).isNone) ≠ []) (world : World σ) :
    runFrom (link.lookupFeatures cache nodes) world =
      runFrom (do
        let answers ← link.fanOut Reply.features?
          (forOwners (ownerOf link.transport.shards) (fun node => (cache.features? node).isNone)
            nodes link.transport.shards fun _ => Request.features)
        liftM (gatherBoth (Batch.mk link.transport.shards
          (parcelsOf (ownerOf link.transport.shards) (fun node => (cache.features? node).isNone)
            nodes)).positions answers
          (knownEntries (fun node => (cache.features? node).map Prod.fst) nodes,
            knownEntries (fun node => (cache.features? node).map Prod.snd) nodes))) world := by
  rw [lookupFeatures, unknownNodes_eq cache.features? positive,
    runFrom_bind_of_ok (runFrom_liftM _ world),
    if_neg (by rwa [isEmpty_parcelsOf, List.isEmpty_iff]), requests_parcelsOf]

/-- Where both features are known, both entries for the time being are final. -/
theorem settled_knownFeatures (agrees : cache.Agrees graph) {position : Nat} {node : NodeId}
    (there : nodes[position]? = some node) (hit : (cache.features? node).isNone = false) :
    Settled (nodes.map graph.nodeFeatureOf)
        (knownEntries (fun node => (cache.features? node).map Prod.fst) nodes) position ∧
      Settled (nodes.map graph.neighborFeatureOf)
        (knownEntries (fun node => (cache.features? node).map Prod.snd) nodes) position := by
  cases found : cache.features? node with
  | none => rw [found] at hit; cases hit
  | some features =>
      unfold Settled
      simp only [knownEntries, List.getElem?_map, there, Option.map_some, found,
        agrees.features found]
      exact ⟨rfl, rfl⟩

/-- Both features from the owners of all unknown nodes, written back, are those of the graph. -/
theorem gatherBoth_eq_ok {shards : Nat} (positive : 0 < shards) (agrees : cache.Agrees graph)
    (nodes : List NodeId) :
    gatherBoth
        (Batch.mk shards
          (parcelsOf (ownerOf shards) (fun node => (cache.features? node).isNone) nodes)).positions
        (forOwners (ownerOf shards) (fun node => (cache.features? node).isNone) nodes shards
          fun _ part => (part.map graph.nodeFeatureOf, part.map graph.neighborFeatureOf))
        (knownEntries (fun node => (cache.features? node).map Prod.fst) nodes,
          knownEntries (fun node => (cache.features? node).map Prod.snd) nodes) =
      .ok (nodes.map graph.nodeFeatureOf, nodes.map graph.neighborFeatureOf) := by
  obtain ⟨out, run, ⟨length, length'⟩, settled⟩ := eachAnswer_settles
    (ownerOf shards) (fun node => (cache.features? node).isNone) nodes
    (fun node _ => ownerOf_lt positive node)
    (fun _ part => (part.map graph.nodeFeatureOf, part.map graph.neighborFeatureOf))
    (fun shard positions values out => do
      let (first, ofFirst) := gather shard positions values.1 out.1
      first
      let (second, ofSecond) := gather shard positions values.2 out.2
      second
      return (ofFirst, ofSecond))
    (fun out => out.1.length = (nodes.map graph.nodeFeatureOf).length ∧
      out.2.length = (nodes.map graph.neighborFeatureOf).length)
    (fun out position => Settled (nodes.map graph.nodeFeatureOf) out.1 position ∧
      Settled (nodes.map graph.neighborFeatureOf) out.2 position)
    (by
      rintro shard before ⟨length, length'⟩
      obtain ⟨first, run, kept, settles⟩ := gather_settles shard length
        (forall₂_parcelsOf (ownerOf shards)
          (fun node => (cache.features? node).isNone && ownerOf shards node == shard)
          graph.nodeFeatureOf fun _ _ => rfl)
      obtain ⟨second, run', kept', settles'⟩ := gather_settles shard length'
        (forall₂_parcelsOf (ownerOf shards)
          (fun node => (cache.features? node).isNone && ownerOf shards node == shard)
          graph.neighborFeatureOf fun _ _ => rfl)
      refine ⟨(first, second), ?_, ⟨kept, kept'⟩, fun position known => ⟨?_, ?_⟩⟩
      · dsimp only
        rw [run, run']
        rfl
      · exact settles position (known.imp_left And.left)
      · exact settles' position (known.imp_left And.right))
    (knownEntries (fun node => (cache.features? node).map Prod.fst) nodes,
      knownEntries (fun node => (cache.features? node).map Prod.snd) nodes)
    (by simp [knownEntries])
  have final : ∀ position node, nodes[position]? = some node →
      Settled (nodes.map graph.nodeFeatureOf) out.1 position ∧
        Settled (nodes.map graph.neighborFeatureOf) out.2 position := by
    intro position node there
    refine settled position node there ?_
    cases missing : (cache.features? node).isNone with
    | true => exact .inr rfl
    | false => exact .inl (settled_knownFeatures agrees there missing)
  exact run.trans (congrArg Except.ok (Prod.ext
    (eq_map_of_settled length fun position node there => (final position node there).1)
    (eq_map_of_settled length' fun position node there => (final position node there).2)))

/-- Both features of every node are those of the graph. -/
theorem lookupFeatures_eq_ok (holds : link.Holds graph nodes) (agrees : cache.Agrees graph)
    (world : World σ) :
    (runFrom (link.lookupFeatures cache nodes) world).1 =
      .ok (nodes.map graph.nodeFeatureOf, nodes.map graph.neighborFeatureOf) := by
  by_cases hits : (nodes.filter fun node => (cache.features? node).isNone) = []
  · rw [runFrom_lookupFeatures_of_known holds.positive hits]
    have known : ∀ (position : Nat) node, nodes[position]? = some node →
        (cache.features? node).isNone = false := fun position node there =>
      Bool.eq_false_iff.mpr (List.filter_eq_nil_iff.mp hits node (List.mem_of_getElem? there))
    refine congrArg Except.ok (Prod.ext
      (eq_map_of_settled (by simp [knownEntries]) fun position node there => ?_)
      (eq_map_of_settled (by simp [knownEntries]) fun position node there => ?_))
    · exact (settled_knownFeatures agrees there (known position node there)).1
    · exact (settled_knownFeatures agrees there (known position node there)).2
  · rw [runFrom_lookupFeatures_of_unknown holds.positive hits]
    have fetched := link.fanOut_forOwners (ownerOf link.transport.shards)
      (fun node => (cache.features? node).isNone)
      (fun _ part => (part.map graph.nodeFeatureOf, part.map graph.neighborFeatureOf))
      holds.features world
    rw [runFrom_bind_of_ok (Prod.ext fetched rfl), runFrom_liftM]
    exact gatherBoth_eq_ok holds.positive agrees nodes

/-! ## Filling a cache -/

theorem map_zip_eq_ofGraph (graph : Graph) (nodes : List NodeId) :
    ((((nodes.zip (nodes.map graph.contextOf)).zip (nodes.map graph.nodeFeatureOf)).zip
        (nodes.map graph.neighborFeatureOf)).map
      fun (((node, context), ofNode), ofNeighbor) => ⟨node, context, ofNode, ofNeighbor⟩) =
      nodes.map (Cache.Entry.ofGraph graph) := by
  induction nodes with
  | nil => rfl
  | cons node nodes ih => exact congrArg (Cache.Entry.ofGraph graph node :: ·) ih

/-- All that the shards know of some nodes is what the graph holds. -/
theorem fetchEntries_eq_ok (holds : link.Holds graph nodes) (world : World σ) :
    (runFrom (link.fetchEntries nodes) world).1 = .ok (nodes.map (.ofGraph graph)) := by
  have contexts := lookup_of_true (fun _ => none) holds.positive holds.contexts
    (fun _ _ there => nomatch there) world
  have features := lookupFeatures_eq_ok holds (Cache.agrees_empty graph)
    (runFrom (link.lookup (fun _ => none) .contexts Reply.contexts? nodes) world).2
  rw [fetchEntries, runFrom_bind_of_ok (Prod.ext contexts rfl),
    runFrom_bind_of_ok (Prod.ext features rfl), runFrom_pure]
  exact congrArg Except.ok (map_zip_eq_ofGraph graph nodes)

/-- No slice is longer than a page. -/
theorem length_le_of_mem_slicesOf {α : Type} {page : Nat} {items slice : List α}
    (member : slice ∈ slicesOf page items) : slice.length ≤ page := by
  obtain ⟨index, _, rfl⟩ := List.mem_map.mp member
  exact List.length_take_le _ _

/-- The cache of the hot nodes agrees with the graph, whatever nodes these are. -/
theorem agrees_of_fetchCache
    (holds : ∀ nodes : List NodeId, nodes.length < UInt64.size → link.Holds graph nodes)
    {page : Nat} (small : page < UInt64.size) {world later : World σ}
    (run : runFrom (link.fetchCache page) world = (.ok cache, later)) : cache.Agrees graph := by
  obtain ⟨nodes, between, _, fill⟩ := runFrom_bind_eq_ok run
  refine runFrom_foldlM_keeps (fun cache => cache.Agrees graph) ?_ (Cache.agrees_empty graph) fill
  intro slice member before state after later agrees step
  obtain ⟨entries, state', fetched, equal⟩ := runFrom_bind_eq_ok step
  have short := Nat.lt_of_le_of_lt (length_le_of_mem_slicesOf member) small
  have truth := fetchEntries_eq_ok (holds slice short) state
  rw [fetched] at truth
  cases truth
  cases equal
  exact agrees.insertAll slice

end Link

/-! ## Connecting -/

theorem Number.lt_of_readNat? {bound value : Nat} {text : List Char}
    (run : readNat? bound text = some value) : value < bound := by
  unfold readNat? at run
  dsimp only at run
  split at run
  · cases run
  · split at run
    · next small =>
      cases run
      exact small
    · cases run

theorem readPageSize_lt {shard size : Nat} {text : String}
    (run : readPageSize shard text = .ok size) : size < UInt64.size := by
  unfold readPageSize at run
  split at run
  · cases run
  · next value read =>
    split at run
    · cases run
    · cases run
      exact Number.lt_of_readNat? read

/-- The page size that shards agree on is one that some shard named. -/
theorem agreedPageSize_lt {texts : List String} {size : Nat}
    (run : agreedPageSize texts = .ok size) : size < UInt64.size := by
  obtain ⟨agreed, fold, last⟩ := except_bind_eq_ok.mp run
  have small := foldlM_keeps
    (fun _ (agreed : Option Nat) => ∀ size, agreed = some size → size < UInt64.size)
    (by
      rintro ⟨text, shard⟩ items before after kept step
      obtain ⟨named, read, agree⟩ := except_bind_eq_ok.mp step
      unfold agreeOn at agree
      split at agree
      · cases agree
        intro size there
        cases there
        exact readPageSize_lt read
      · split at agree
        · cases agree
          exact kept
        · cases agree)
    (fun size there => by cases there) fold
  cases agreed with
  | none => cases last
  | some named =>
      cases last
      exact small size rfl

namespace Cluster

variable {σ : Type} {transport : Transport σ} {config : Config} {cluster : Cluster σ}
  {world later : World σ}

/-- A client that has connected has shards, keeps its transport, and has fetched its cache in
pages of a size that fits a word. -/
theorem spec_of_connect
    (run : runFrom (connect transport config) world = (.ok cluster, later)) :
    0 < transport.shards ∧ cluster.link = ⟨transport, config.deadline?⟩ ∧
      cluster.pageSize < UInt64.size ∧ ∃ before after,
        runFrom (cluster.link.fetchCache cluster.pageSize) before = (.ok cluster.cache, after) := by
  unfold connect at run
  split at run
  · obtain ⟨_, _, failed, _⟩ := runFrom_bind_eq_ok run
    cases failed
  · next some =>
    obtain ⟨_, _, _, run⟩ := runFrom_bind_eq_ok run
    obtain ⟨pageSize, _, agreed, run⟩ := runFrom_bind_eq_ok run
    obtain ⟨_, _, _, run⟩ := runFrom_bind_eq_ok run
    obtain ⟨_, _, _, run⟩ := runFrom_bind_eq_ok run
    obtain ⟨_, _, _, run⟩ := runFrom_bind_eq_ok run
    obtain ⟨_, _, _, run⟩ := runFrom_bind_eq_ok run
    obtain ⟨cache, _, fetched, run⟩ := runFrom_bind_eq_ok run
    have small := agreedPageSize_lt (congrArg Prod.fst agreed)
    cases run
    exact ⟨Nat.pos_of_ne_zero some, rfl, small, _, _, fetched⟩

/-- A cluster over shards that hold a graph has a cache that agrees with it. -/
theorem agrees_of_connect {graph : Graph}
    (holds : ∀ nodes : List NodeId, nodes.length < UInt64.size →
      (⟨transport, config.deadline?⟩ : Link σ).Holds graph nodes)
    (run : runFrom (connect transport config) world = (.ok cluster, later)) :
    cluster.cache.Agrees graph := by
  obtain ⟨_, link, small, _, _, fetched⟩ := spec_of_connect run
  rw [link] at fetched
  exact Link.agrees_of_fetchCache holds small fetched

end Cluster

end ShardedGraph
