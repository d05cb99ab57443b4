import ShardedGraph.Partition
import ShardedGraph.Proofs.Lookup
import ShardedGraph.Proofs.Octets
import ShardedGraph.Proofs.Splitting

/-!
# Shards in one process

A shard in the same process is asked through the octets of its requests and replies. A request
that is read back reaches its service, and a reply that is read back reaches the client, at
once (`Transport.runFrom_serve`, `Link.value_ask_inProcess`).

Let the shards be partitions, each over its part of a graph. Then every shard answers the
nodes that it owns with what the whole graph holds for them (`Link.Holds`,
`Link.holds_toPartitions`). Nothing more is known about a cluster in what follows.
-/

set_option autoImplicit false

namespace ShardedGraph

/-! ## Services -/

namespace Error

variable {error : Error}

theorem ofShard_of_stops (shard : Nat) (stops : error.stops = true) :
    ofShard shard error = error :=
  if_pos stops

theorem ofShard_of_answered (shard : Nat) (answered : error.stops = false) :
    ofShard shard error = remote shard error :=
  if_neg (answered ▸ Bool.false_ne_true)

/-- A client in the same process hears a stop, or the report of an error. -/
theorem ofShard_splits (shard : Nat) (error : Error) :
    error.stops = true ∧ ofShard shard error = error ∨ ofShard shard error = remote shard error := by
  cases stops : error.stops with
  | true => exact .inl ⟨rfl, ofShard_of_stops shard stops⟩
  | false => exact .inr (ofShard_of_answered shard stops)

end Error

namespace Transport

/-- What comes of a request that is read back: the reply of the service as it arrives, or what its
client hears of its error. -/
theorem runFrom_serve (service : Service) (shard : Nat) {request : Request}
    (sent : Wire.request.Reads request) (stream : WordStream) :
    runFrom (serve service shard request) stream =
      match runFrom (service request) stream with
      | (.ok answer, later) => (throughWire Wire.reply answer, later)
      | (.error error, later) => (.error (.ofShard shard error), later) := by
  have adapted := runFrom_adapt (Error.ofShard shard) (service request) stream
  rw [serve, throughWire_eq_ok sent, runFrom_bind_of_ok (runFrom_liftM _ stream)]
  rcases answered : runFrom (service request) stream with ⟨result, later⟩
  rw [answered] at adapted
  cases result with
  | ok answer => exact (runFrom_bind_of_ok adapted).trans (runFrom_liftM _ _)
  | error error => exact runFrom_bind_of_error adapted

end Transport

namespace Link

open Transport

/-- What is answered at once is never late. -/
theorem value_ask_of_now {σ α : Type} {transport : Transport σ} {shard : Nat} {request : Request}
    {state later : σ} {answer : Except Error Reply}
    (called : (transport.call shard request).run state = (.now answer, later))
    (deadline : Option Nat) (take : Reply → Option α) :
    ((ask ⟨transport, deadline⟩ take shard request).run state).1.value =
      answer.bind (accept take request) := by
  change ((settle deadline shard ((transport.call shard request).run state).1).value.bind _) = _
  rw [called]
  cases deadline with
  | none => rfl
  | some limit => rfl

section InProcess

variable {α : Type} {services : List Service} {service : Service} {shard : Nat}

theorem value_ask_inProcess (there : services[shard]? = some service) (deadline : Option Nat)
    (take : Reply → Option α) (request : Request) (stream : WordStream) :
    ((ask ⟨inProcess services, deadline⟩ take shard request).run stream).1.value =
      (runFrom (serve service shard request) stream).1.bind (accept take request) := by
  refine @value_ask_of_now _ _ _ _ _ _ (runFrom (serve service shard request) stream).2 _ ?_ _ _
  dsimp only [inProcess]
  rw [there]
  rfl

/-- Nobody is heard in the place of a shard that is not there. -/
theorem value_ask_inProcess_of_none (nobody : services[shard]? = none) (deadline : Option Nat)
    (take : Reply → Option α) (request : Request) (stream : WordStream) :
    ((ask ⟨inProcess services, deadline⟩ take shard request).run stream).1.value =
      .error (.unknownShard shard services.length) := by
  refine @value_ask_of_now _ _ _ _ _ _ stream (.error (.unknownShard shard services.length)) ?_ _ _
  dsimp only [inProcess]
  rw [nobody]
  rfl

/-- A service that always gives the same reply is heard to give it. -/
theorem answers_inProcess (there : services[shard]? = some service) (deadline : Option Nat)
    {take : Reply → Option α} {request : Request} {answer : Reply} {value : α}
    (sent : Wire.request.Reads request)
    (answered : ∀ stream, (runFrom (service request) stream).1 = .ok answer)
    (heard : Wire.reply.Reads answer) (taken : take answer = some value) :
    (⟨inProcess services, deadline⟩ : Link WordStream).Answers take shard request value := by
  intro stream
  rw [value_ask_inProcess there deadline, runFrom_serve service shard sent]
  have result := answered stream
  rcases run : runFrom (service request) stream with ⟨_, later⟩
  rw [run] at result
  subst result
  dsimp only
  rw [throughWire_eq_ok heard]
  change accept take request answer = _
  rw [accept, taken]

end InProcess

/-! ## What the shards hold -/

/-- The shards of a link hold a graph: asked about nodes of a list that it owns, every shard
answers what the graph holds for them. -/
structure Holds {σ : Type} (link : Link σ) (graph : Graph) (nodes : List NodeId) : Prop where
  positive : 0 < link.transport.shards
  contexts : link.AnswersParts .contexts Reply.contexts?
    (fun _ node => (graph.context? node).getD []) nodes
  nodeFeatures : link.AnswersParts .nodeFeatures Reply.nodeFeatures?
    (fun _ node => featureOrAbsent (graph.nodeFeature? node)) nodes
  neighborFeatures : link.AnswersParts .neighborFeatures Reply.neighborFeatures?
    (fun _ node => featureOrAbsent (graph.neighborFeature? node)) nodes
  features : ∀ shard, shard < link.transport.shards → ∀ part : List NodeId, part.Sublist nodes →
    (∀ node ∈ part, ownerOf link.transport.shards node = shard) → part ≠ [] →
      link.Answers Reply.features? shard (.features part)
        (part.map fun node => featureOrAbsent (graph.nodeFeature? node),
          part.map fun node => featureOrAbsent (graph.neighborFeature? node))

end Link

/-! ## Partitions -/

/-- Settings that can work. -/
structure Config.Works (config : Config) : Prop where
  shards : config.shardCount ≠ 0
  shard : config.shard < config.shardCount
  threshold : 0 ≤ config.hotThreshold
  page : config.pageSize ≠ 0
  ranged : config.pathWalks = true → config.neighborKernel.supportsRange = true

/-- Exactly the settings that can work are accepted. -/
theorem Config.check_eq_ok_iff {config : Config} : config.check = .ok () ↔ config.Works := by
  unfold check
  constructor
  · intro checked
    split at checked
    · cases checked
    next shards =>
    split at checked
    · cases checked
    next shard =>
    split at checked
    · cases checked
    next threshold =>
    split at checked
    · cases checked
    next page =>
    split at checked
    · cases checked
    next ranged =>
    refine ⟨shards, UInt64.not_le.mp shard, Decidable.not_not.mp threshold, page, fun follows => ?_⟩
    simpa [follows] using ranged
  · intro works
    rw [if_neg works.shards, if_neg (UInt64.not_le.mpr works.shard),
      if_neg (Decidable.not_not.mpr works.threshold), if_neg works.page, if_neg]
    rw [Bool.and_eq_true]
    rintro ⟨follows, unranged⟩
    rw [works.ranged follows] at unranged
    cases unranged

/-- Settings that can work have shards. -/
theorem Config.Works.shardCount_pos {config : Config} (works : config.Works) :
    0 < config.shardCount.toNat :=
  UInt64.lt_iff_toNat_lt.mp (UInt64.pos_iff_ne_zero.mpr works.shards)

/-- A partition as it is put together over a graph: each of its pieces is made as the configuration
asks, and walks along namespaces are only for tables that draw from ranges. -/
structure Partition.Made (graph : Graph) (config : Config) (stream : WordStream)
    (partition : Partition) : Prop where
  checked : config.check = .ok ()
  graph_eq : partition.graph = graph
  negatives : NegativePools.build graph.source config.negativeKernel = .ok partition.negatives
  neighbors : NeighborTables.build graph.source config.neighborKernel = .ok partition.neighbors
  ranged : config.pathWalks = true → partition.neighbors.kind.supportsRange = true
  walker : partition.walker = ⟨partition.neighbors, config.pathWalks⟩
  hotNodes : HotNodes.select graph config.hotRule config.hotThreshold (config.workers?.getD 1)
    stream = .ok partition.hotNodes
  pageSize : partition.pageSize = config.pageSize

theorem Partition.made_of_build {graph : Graph} {config : Config} {stream : WordStream}
    {partition : Partition} (run : Partition.build graph config stream = .ok partition) :
    partition.Made graph config stream := by
  obtain ⟨⟨⟩, checked, run⟩ := except_bind_eq_ok.mp run
  obtain ⟨_, pools, run⟩ := except_bind_eq_ok.mp run
  obtain ⟨tables, built, run⟩ := except_bind_eq_ok.mp run
  dsimp only at run
  split at run
  · next follows =>
    obtain ⟨walker, following, run⟩ := except_bind_eq_ok.mp run
    obtain ⟨_, hot, run⟩ := except_bind_eq_ok.mp run
    cases run
    unfold Walker.withPaths at following
    split at following
    · next ranged =>
      have made := Except.ok.inj following
      exact ⟨checked, rfl, pools, built, fun _ => ranged, by rw [← made, follows], hot, rfl⟩
    · cases following
  · next free =>
    obtain ⟨walker, following, run⟩ := except_bind_eq_ok.mp run
    obtain ⟨_, hot, run⟩ := except_bind_eq_ok.mp run
    cases run
    have made := Except.ok.inj following
    have still := Bool.eq_false_iff.mpr free
    exact ⟨checked, rfl, pools, built, fun follows => absurd follows free,
      by rw [← made, still]; rfl, hot, rfl⟩

/-- A partition has the graph that it was built over, and walks over its neighbor tables. -/
theorem Partition.spec_of_build {graph : Graph} {config : Config} {stream : WordStream}
    {partition : Partition} (run : Partition.build graph config stream = .ok partition) :
    partition.graph = graph ∧
      NeighborTables.build graph.source config.neighborKernel = .ok partition.neighbors ∧
      partition.walker.tables = partition.neighbors := by
  have made := made_of_build run
  exact ⟨made.graph_eq, made.neighbors, congrArg Walker.tables made.walker⟩

section Owned

/-- Graphs that say the same of the nodes that a shard owns. -/
structure Graph.AgreesOwned (shards shard : Nat) (whole part : Graph) : Prop where
  context : ∀ node, ownerOf shards node = shard → part.context? node = whole.context? node
  nodeFeature : ∀ node, ownerOf shards node = shard →
    part.nodeFeature? node = whole.nodeFeature? node
  neighborFeature : ∀ node, ownerOf shards node = shard →
    part.neighborFeature? node = whole.neighborFeature? node

variable {shards shard : Nat} {whole : Graph} {partition : Partition} {nodes : List NodeId}

/-- A part of a graph says of the nodes that its shard owns what the whole graph does. -/
theorem Graph.IsPart.agreesOwned {part : Graph} (isPart : Graph.IsPart shards shard whole part) :
    Graph.AgreesOwned shards shard whole part where
  context node owned := by rw [isPart.context, if_pos owned]
  nodeFeature node owned := by rw [isPart.nodeFeature, if_pos owned]
  neighborFeature node owned := by rw [isPart.neighborFeature, if_pos owned]

/-- Of the nodes that its shard owns, a partition knows what a graph does that says the same. -/
theorem Partition.contextsPartial_of_owned
    (agrees : Graph.AgreesOwned shards shard whole partition.graph)
    (owned : ∀ node ∈ nodes, ownerOf shards node = shard) :
    partition.contextsPartial nodes = nodes.map fun node => (whole.context? node).getD [] :=
  List.map_congr_left fun node member => by rw [agrees.context node (owned node member)]

theorem Partition.nodeFeatures_of_owned
    (agrees : Graph.AgreesOwned shards shard whole partition.graph)
    (owned : ∀ node ∈ nodes, ownerOf shards node = shard) :
    partition.nodeFeatures nodes =
      nodes.map fun node => featureOrAbsent (whole.nodeFeature? node) :=
  List.map_congr_left fun node member => by rw [agrees.nodeFeature node (owned node member)]

theorem Partition.neighborFeatures_of_owned
    (agrees : Graph.AgreesOwned shards shard whole partition.graph)
    (owned : ∀ node ∈ nodes, ownerOf shards node = shard) :
    partition.neighborFeatures nodes =
      nodes.map fun node => featureOrAbsent (whole.neighborFeature? node) :=
  List.map_congr_left fun node member => by rw [agrees.neighborFeature node (owned node member)]

end Owned

/-! ## Lists that are sent -/

/-- Lists that belong to nodes are read back. -/
theorem Wire.reads_map {value : NodeId → List (UInt64 × Number.Single)}
    (each : ∀ node, (value node).length < UInt64.size) {nodes : List NodeId}
    (short : nodes.length < UInt64.size) : (Codec.list weighted).Reads (nodes.map value) := by
  refine reads_weightedLists (by rwa [List.length_map]) fun entries member => ?_
  obtain ⟨node, _, rfl⟩ := List.mem_map.mp member
  exact each node

section Fits

variable {graph : Graph} (fits : graph.Fits) (node : NodeId)

include fits

theorem Graph.Fits.length_context : ((graph.context? node).getD []).length < UInt64.size := by
  cases found : graph.context? node with
  | none => decide
  | some context => exact fits.context node context found

theorem Graph.Fits.length_nodeFeature :
    (featureOrAbsent (graph.nodeFeature? node)).length < UInt64.size := by
  cases found : graph.nodeFeature? node with
  | none => decide
  | some feature => exact fits.nodeFeature node feature found

theorem Graph.Fits.length_neighborFeature :
    (featureOrAbsent (graph.neighborFeature? node)).length < UInt64.size := by
  cases found : graph.neighborFeature? node with
  | none => decide
  | some feature => exact fits.neighborFeature node feature found

end Fits

/-! ## Partitions behind a link -/

/-- Partitions over the parts of a graph, in the order of the shards. -/
def PartsOf (whole : Graph) (partitions : List Partition) : Prop :=
  ∀ (shard : Nat) partition, partitions[shard]? = some partition →
    Graph.IsPart partitions.length shard whole partition.graph

/-- Partitions each of which says of the nodes that it owns what a graph does. -/
def OwnersOf (whole : Graph) (partitions : List Partition) : Prop :=
  ∀ (shard : Nat) partition, partitions[shard]? = some partition →
    Graph.AgreesOwned partitions.length shard whole partition.graph

namespace Link

open Transport Wire

variable {whole : Graph} {partitions : List Partition} {nodes : List NodeId}

/-- The link to partitions in the same process. -/
abbrev toPartitions (partitions : List Partition) (deadline : Option Nat) : Link WordStream :=
  ⟨inProcess (partitions.map Partition.answer), deadline⟩

theorem shards_toPartitions (partitions : List Partition) (deadline : Option Nat) :
    (toPartitions partitions deadline).transport.shards = partitions.length :=
  List.length_map _

theorem shards_toPartitions_pos (occupied : partitions ≠ []) (deadline : Option Nat) :
    0 < (toPartitions partitions deadline).transport.shards :=
  shards_toPartitions partitions deadline ▸ List.length_pos_iff.mpr occupied

/-- In the place of a shard is the service of its partition. -/
theorem getElem?_services {shard : Nat} {partition : Partition}
    (there : partitions[shard]? = some partition) :
    (partitions.map Partition.answer)[shard]? = some partition.answer := by
  rw [List.getElem?_map, there]
  rfl

/-- What a partition is heard to answer is in a reply that it has given, when all messages are read
back. -/
theorem exists_answer_of_heard {α : Type} {deadline : Option Nat} {shard : Nat} {request : Request}
    {take : Reply → Option α} {value : α} {stream : WordStream}
    (sent : Wire.request.Reads request)
    (reads : ∀ partition reply later, partitions[shard]? = some partition →
      runFrom (partition.answer request) stream = (.ok reply, later) → Wire.reply.Reads reply)
    (heard : (((toPartitions partitions deadline).ask take shard request).run stream).1.value =
      .ok value) :
    ∃ partition reply later, partitions[shard]? = some partition ∧
      runFrom (partition.answer request) stream = (.ok reply, later) ∧ take reply = some value := by
  cases there : partitions[shard]? with
  | none =>
      rw [value_ask_inProcess_of_none (by rw [List.getElem?_map, there]; rfl)] at heard
      cases heard
  | some partition =>
      rw [value_ask_inProcess (getElem?_services there), runFrom_serve _ _ sent] at heard
      rcases run : runFrom (partition.answer request) stream with ⟨result, later⟩
      rw [run] at heard
      cases result with
      | error error => cases heard
      | ok reply =>
          dsimp only at heard
          rw [throughWire_eq_ok (reads partition reply later there run)] at heard
          change accept take request reply = _ at heard
          unfold accept at heard
          split at heard
          · next taken =>
            cases heard
            exact ⟨partition, reply, later, rfl, run, taken⟩
          · cases heard

/-- Shards answer a question about nodes when partitions do and all messages are read back. -/
theorem answers_toPartitions {α : Type} {make : List NodeId → Request} {take : Reply → Option α}
    (reply : List NodeId → Reply) {value : List NodeId → α} (deadline : Option Nat)
    (short : nodes.length < UInt64.size)
    (sent : ∀ part : List NodeId, part.length < UInt64.size → Wire.request.Reads (make part))
    (heard : ∀ part : List NodeId, part.length < UInt64.size → Wire.reply.Reads (reply part))
    (answered : ∀ (shard : Nat) partition (part : List NodeId) stream,
      partitions[shard]? = some partition →
      (∀ node ∈ part, ownerOf partitions.length node = shard) →
        (runFrom (partition.answer (make part)) stream).1 = .ok (reply part))
    (taken : ∀ part, take (reply part) = some (value part)) :
    ∀ shard, shard < (toPartitions partitions deadline).transport.shards →
      ∀ part : List NodeId, part.Sublist nodes →
        (∀ node ∈ part, ownerOf (toPartitions partitions deadline).transport.shards node = shard) →
          part ≠ [] →
            (toPartitions partitions deadline).Answers take shard (make part) (value part) := by
  intro shard inside part sub owned _
  rw [shards_toPartitions] at inside owned
  have small : part.length < UInt64.size := Nat.lt_of_le_of_lt sub.length_le short
  have here := List.getElem?_eq_getElem inside
  exact answers_inProcess (getElem?_services here) deadline (sent part small)
    (fun stream => answered shard _ part stream here owned) (heard part small) (taken part)

/-- Partitions that know of their nodes what a graph does hold the graph. -/
theorem holds_of_owners (owners : OwnersOf whole partitions) (fits : whole.Fits)
    (occupied : partitions ≠ []) (deadline : Option Nat) (short : nodes.length < UInt64.size) :
    (toPartitions partitions deadline).Holds whole nodes where
  positive := shards_toPartitions_pos occupied deadline
  contexts := by
    refine answers_toPartitions (fun part => .contexts (part.map _)) deadline short ?_ ?_ ?_
      fun _ => rfl
    · intro part small
      exact reads_request 8 Wire.nodes .contexts (by decide) rfl (fun _ => rfl) (reads_nodes small)
    · intro part small
      exact reads_reply 7 (.list weighted) .contexts (by decide) rfl (fun _ => rfl)
        (reads_map fits.length_context small)
    · intro shard partition part stream there owned
      exact congrArg (fun found => Except.ok (Reply.contexts found))
        (Partition.contextsPartial_of_owned (owners shard partition there) owned)
  nodeFeatures := by
    refine answers_toPartitions (fun part => .nodeFeatures (part.map _)) deadline short ?_ ?_ ?_
      fun _ => rfl
    · intro part small
      exact reads_request 6 Wire.nodes .nodeFeatures (by decide) rfl (fun _ => rfl)
        (reads_nodes small)
    · intro part small
      exact reads_reply 5 (.list weighted) .nodeFeatures (by decide) rfl (fun _ => rfl)
        (reads_map fits.length_nodeFeature small)
    · intro shard partition part stream there owned
      exact congrArg (fun found => Except.ok (Reply.nodeFeatures found))
        (Partition.nodeFeatures_of_owned (owners shard partition there) owned)
  neighborFeatures := by
    refine answers_toPartitions (fun part => .neighborFeatures (part.map _)) deadline short ?_ ?_ ?_
      fun _ => rfl
    · intro part small
      exact reads_request 7 Wire.nodes .neighborFeatures (by decide) rfl (fun _ => rfl)
        (reads_nodes small)
    · intro part small
      exact reads_reply 6 (.list weighted) .neighborFeatures (by decide) rfl (fun _ => rfl)
        (reads_map fits.length_neighborFeature small)
    · intro shard partition part stream there owned
      exact congrArg (fun found => Except.ok (Reply.neighborFeatures found))
        (Partition.neighborFeatures_of_owned (owners shard partition there) owned)
  features := by
    refine answers_toPartitions (fun part => .features (part.map _) (part.map _)) deadline short
      ?_ ?_ ?_ fun _ => rfl
    · intro part small
      exact reads_request 5 Wire.nodes .features (by decide) rfl (fun _ => rfl) (reads_nodes small)
    · intro part small
      exact reads_features (reads_map fits.length_nodeFeature small)
        (reads_map fits.length_neighborFeature small)
    · intro shard partition part stream there owned
      have agrees := owners shard partition there
      exact congrArg₂ (fun ofNodes ofNeighbors => Except.ok (Reply.features ofNodes ofNeighbors))
        (Partition.nodeFeatures_of_owned agrees owned)
        (Partition.neighborFeatures_of_owned agrees owned)

/-- Partitions over the parts of a graph hold the graph. -/
theorem holds_toPartitions (parts : PartsOf whole partitions) (fits : whole.Fits)
    (occupied : partitions ≠ []) (deadline : Option Nat) (short : nodes.length < UInt64.size) :
    (toPartitions partitions deadline).Holds whole nodes :=
  holds_of_owners (fun shard partition there => (parts shard partition there).agreesOwned) fits
    occupied deadline short

end Link

end ShardedGraph
