import ShardedGraph.Proofs.Blame
import ShardedGraph.Proofs.Built
import ShardedGraph.Proofs.Scans

/-!
# Filling the cache of a client

A client that connects asks the shards for their hot nodes, cuts these into slices of a page and asks
the owners of each slice for all that they know. This works for any built partitions, whether or not
they are parts of one graph: what their owners know of the nodes is a graph of its own
(`Graph.ofOwners`).

**Values.** The cache has the features of every hot node, as its owner answers them, and its context
unless it is empty, and nothing else (`Cache.IsFaithful`).

**Calls.** An act that succeeds on the record makes certain calls (`Yields`), and the calls of acts
that follow one another are put together. Each slice asks each owner once for the nodes that it owns,
so that every hot node is asked for once, and no call asks for no node or for more than a page
(`AsksOnce`).
-/

set_option autoImplicit false

namespace ShardedGraph

/-! ## What owners know -/

namespace Graph

/-- What the owners of nodes have: of the map at each place the entries of the nodes that belong to
this place. -/
def ownedOf {α : Type} (maps : List (NodeMap α)) : NodeMap α :=
  maps.zipIdx.foldr
    (fun entry joined =>
      entry.1.filter (fun node _ => ownerOf maps.length node == entry.2) ∪ joined)
    ∅

theorem getElem?_ownedOf {α : Type} (maps : List (NodeMap α)) (node : NodeId) :
    (ownedOf maps)[node]? = maps[ownerOf maps.length node]?.bind fun map => map[node]? := by
  generalize owned : ownerOf maps.length node = owner
  have fold : ∀ (rest : List (NodeMap α)) (first : Nat),
      ((rest.zipIdx first).foldr (fun entry joined =>
        entry.1.filter (fun node _ => ownerOf maps.length node == entry.2) ∪ joined)
        (∅ : NodeMap α))[node]? =
      if first ≤ owner then rest[owner - first]?.bind fun map => map[node]? else none := by
    intro rest
    induction rest with
    | nil => simp
    | cons map rest ih =>
        intro first
        rw [List.zipIdx_cons, List.foldr_cons, Std.ExtTreeMap.getElem?_union, ih,
          Std.ExtTreeMap.getElem?_filter', owned]
        rcases Nat.lt_trichotomy owner first with before | rfl | after
        · have other : (owner == first) = false := beq_false_of_ne (Nat.ne_of_lt before)
          simp [other, Nat.not_le.mpr before, Nat.not_le.mpr (Nat.lt_succ_of_lt before)]
        · have all : ∀ found : Option α, found.filter (fun _ => true) = found := fun found => by
            cases found <;> rfl
          simp [all]
        · have other : (owner == first) = false := beq_false_of_ne (Nat.ne_of_gt after)
          have less : owner - first = owner - (first + 1) + 1 := by omega
          rw [if_pos (Nat.le_of_lt after), if_pos (Nat.succ_le_of_lt after), less,
            List.getElem?_cons_succ]
          simp [other]
  have all := fold maps 0
  rwa [if_pos (Nat.zero_le _)] at all

/-- The graph of what owners know of their nodes. -/
def ofOwners (partitions : List Partition) : Graph where
  namespaces := .single
  contexts := ownedOf (partitions.map fun partition => partition.graph.contexts)
  nodeFeatures := ownedOf (partitions.map fun partition => partition.graph.nodeFeatures)
  neighborFeatures := ownedOf (partitions.map fun partition => partition.graph.neighborFeatures)
  references := ∅
  pools := []

theorem getElem?_ownedOf_map {α : Type} (partitions : List Partition)
    (map : Partition → NodeMap α) (node : NodeId) :
    (ownedOf (partitions.map map))[node]? =
      partitions[ownerOf partitions.length node]?.bind fun owner => (map owner)[node]? := by
  rw [getElem?_ownedOf, List.length_map, List.getElem?_map]
  cases partitions[ownerOf partitions.length node]? with
  | none => rfl
  | some owner => rfl

theorem owners_ofOwners (partitions : List Partition) :
    OwnersOf (ofOwners partitions) partitions := by
  intro shard partition there
  refine ⟨fun node owned => ?_, fun node owned => ?_, fun node owned => ?_⟩
  · have known := getElem?_ownedOf_map partitions (fun partition => partition.graph.contexts) node
    rw [owned, there] at known
    exact known.symm
  · have known := getElem?_ownedOf_map partitions
      (fun partition => partition.graph.nodeFeatures) node
    rw [owned, there] at known
    exact known.symm
  · have known := getElem?_ownedOf_map partitions
      (fun partition => partition.graph.neighborFeatures) node
    rw [owned, there] at known
    exact known.symm

theorem fits_ofOwners {partitions : List Partition}
    (fits : ∀ partition ∈ partitions, partition.graph.Fits) : (ofOwners partitions).Fits := by
  have known : ∀ {α : Type} {map : Partition → NodeMap α} {node : NodeId} {found : α},
      (ownedOf (partitions.map map))[node]? = some found →
        ∃ owner ∈ partitions, (map owner)[node]? = some found := by
    intro α map node found there
    rw [getElem?_ownedOf_map] at there
    obtain ⟨owner, here, there⟩ := Option.bind_eq_some_iff.mp there
    exact ⟨owner, List.mem_of_getElem? here, there⟩
  refine ⟨fun node context there => ?_, fun node feature there => ?_, fun node feature there => ?_⟩
  · obtain ⟨owner, member, there⟩ := known there
    exact (fits owner member).context node context there
  · obtain ⟨owner, member, there⟩ := known there
    exact (fits owner member).nodeFeature node feature there
  · obtain ⟨owner, member, there⟩ := known there
    exact (fits owner member).neighborFeature node feature there

end Graph

/-! ## What is cached -/

namespace Cache

variable {graph : Graph}

/-- What is put in for a node, if anything, is there when the node was put in. -/
theorem read_insertAll {α : Type} {read : Cache → Option α} {node : NodeId} {value : Option α}
    (each : ∀ cache other, read (cache.insert (.ofGraph graph other)) =
      if other = node then value.or (read cache) else read cache)
    (nodes : List NodeId) (cache : Cache) :
    read (cache.insertAll (nodes.map (.ofGraph graph))) =
      if node ∈ nodes then value.or (read cache) else read cache := by
  induction nodes generalizing cache with
  | nil => rfl
  | cons other nodes ih =>
      have rest := ih (cache.insert (.ofGraph graph other))
      rw [each] at rest
      refine rest.trans ?_
      by_cases same : other = node
      · rw [if_pos same, if_pos (List.mem_cons.mpr (.inl same.symm))]
        split
        · rw [← Option.or_assoc, Option.or_self]
        · rfl
      · have other : node ∈ other :: nodes ↔ node ∈ nodes := by simp [Ne.symm same]
        rw [if_neg same, if_congr other rfl rfl]

theorem getElem?_insert_eq_ite {α : Type} (map : NodeMap α) (value : NodeId → α)
    (other node : NodeId) :
    (map.insert other (value other))[node]? =
      if other = node then (some (value node)).or map[node]? else map[node]? := by
  rw [Std.ExtTreeMap.getElem?_insert]
  by_cases same : other = node
  · rw [same, if_pos Std.ReflCmp.compare_self, if_pos rfl]
    rfl
  · rw [if_neg (fun equal => same (Std.LawfulEqOrd.eq_of_compare equal)), if_neg same]

variable (graph) (nodes : List NodeId) (node : NodeId)

/-- Cached nodes have their features. -/
theorem nodeFeature?_insertAll :
    (empty.insertAll (nodes.map (.ofGraph graph))).nodeFeature? node =
      if node ∈ nodes then some (graph.nodeFeatureOf node) else none :=
  @read_insertAll graph _ (nodeFeature? · node) node (some _)
    (fun cache other => getElem?_insert_eq_ite cache.nodeFeatures graph.nodeFeatureOf other node)
    nodes empty

theorem neighborFeature?_insertAll :
    (empty.insertAll (nodes.map (.ofGraph graph))).neighborFeature? node =
      if node ∈ nodes then some (graph.neighborFeatureOf node) else none :=
  @read_insertAll graph _ (neighborFeature? · node) node (some _)
    (fun cache other =>
      getElem?_insert_eq_ite cache.neighborFeatures graph.neighborFeatureOf other node)
    nodes empty

/-- Cached nodes have their contexts, unless these are empty. -/
theorem context?_insertAll :
    (empty.insertAll (nodes.map (.ofGraph graph))).context? node =
      if node ∈ nodes then
        if (graph.contextOf node).isEmpty then none else some (graph.contextOf node)
      else none := by
  refine (@read_insertAll graph _ (context? · node) node
    (if (graph.contextOf node).isEmpty then none else some (graph.contextOf node))
    (fun cache other => ?_) nodes empty).trans ?_
  · have put : (cache.insert (.ofGraph graph other)).context? node =
        if (graph.contextOf other).isEmpty then cache.context? node
        else (cache.contexts.insert other (graph.contextOf other))[node]? := by
      unfold context? Cache.insert
      exact apply_ite (fun map : NodeMap Context => map[node]?) _ _ _
    rw [put, getElem?_insert_eq_ite]
    by_cases same : other = node
    · simp only [same, reduceIte]
      split <;> rfl
    · simp only [if_neg same]
      split <;> rfl
  · split
    · exact Option.or_none
    · rfl

end Cache

/-- The owner of a node always answers a request so. -/
def OwnerAnswers (partitions : List Partition) (node : NodeId) (request : Request) (reply : Reply) :
    Prop :=
  ∃ owner, partitions[ownerOf partitions.length node]? = some owner ∧
    ∀ stream, (runFrom (owner.answer request) stream).1 = .ok reply

/-- A node that some partition has among its hot ones. -/
def IsHot (partitions : List Partition) (node : NodeId) : Prop :=
  ∃ partition ∈ partitions, node ∈ partition.hotNodes

/-- A cache has both features of every hot node, its context unless that is empty, all as its owner
answers them, and nothing else. -/
structure Cache.IsFaithful (cache : Cache) (partitions : List Partition) : Prop where
  features : ∀ node, IsHot partitions node → (cache.features? node).isSome = true
  nodeFeature : ∀ node feature, cache.nodeFeature? node = some feature ↔
    IsHot partitions node ∧
      OwnerAnswers partitions node (.nodeFeatures [node]) (.nodeFeatures [feature])
  neighborFeature : ∀ node feature, cache.neighborFeature? node = some feature ↔
    IsHot partitions node ∧
      OwnerAnswers partitions node (.neighborFeatures [node]) (.neighborFeatures [feature])
  context : ∀ node context, cache.context? node = some context ↔
    IsHot partitions node ∧ context ≠ [] ∧
      OwnerAnswers partitions node (.contexts [node]) (.contexts [context])

section Faithful

variable {partitions : List Partition} {node : NodeId}

/-- There is an owner, so that nothing else is answered. -/
theorem ownerAnswers_iff (occupied : partitions ≠ []) {request : Request} {reply answer : Reply}
    (answered : ∀ owner, partitions[ownerOf partitions.length node]? = some owner →
      ∀ stream, (runFrom (owner.answer request) stream).1 = .ok answer) :
    OwnerAnswers partitions node request reply ↔ reply = answer := by
  constructor
  · rintro ⟨owner, there, given⟩
    exact Except.ok.inj ((given (.cycle #[])).symm.trans (answered owner there (.cycle #[])))
  · rintro rfl
    have inside := ownerOf_lt (List.length_pos_iff.mpr occupied) node
    exact ⟨_, List.getElem?_eq_getElem inside, answered _ (List.getElem?_eq_getElem inside)⟩

/-- A cache that was filled with what owners know of the hot nodes is faithful. -/
theorem Cache.isFaithful_insertAll (occupied : partitions ≠ []) {nodes : List NodeId}
    (all : ∀ node, node ∈ nodes ↔ IsHot partitions node) :
    (empty.insertAll (nodes.map (.ofGraph (.ofOwners partitions)))).IsFaithful partitions := by
  have owners := Graph.owners_ofOwners partitions
  refine ⟨fun node hot => ?_, fun node feature => ?_, fun node feature => ?_,
    fun node context => ?_⟩
  · rw [features?, nodeFeature?_insertAll, neighborFeature?_insertAll,
      if_pos ((all node).mpr hot), if_pos ((all node).mpr hot)]
    rfl
  · have answered := @ownerAnswers_iff partitions node occupied (.nodeFeatures [node])
      (.nodeFeatures [feature]) (.nodeFeatures [(Graph.ofOwners partitions).nodeFeatureOf node])
      fun owner there _ =>
        congrArg (fun found => Except.ok (Reply.nodeFeatures [featureOrAbsent found]))
          ((owners _ owner there).nodeFeature node rfl)
    rw [nodeFeature?_insertAll, answered]
    simp [all node, eq_comm]
  · have answered := @ownerAnswers_iff partitions node occupied (.neighborFeatures [node])
      (.neighborFeatures [feature])
      (.neighborFeatures [(Graph.ofOwners partitions).neighborFeatureOf node])
      fun owner there _ =>
        congrArg (fun found => Except.ok (Reply.neighborFeatures [featureOrAbsent found]))
          ((owners _ owner there).neighborFeature node rfl)
    rw [neighborFeature?_insertAll, answered]
    simp [all node, eq_comm]
  · have answered := @ownerAnswers_iff partitions node occupied (.contexts [node])
      (.contexts [context]) (.contexts [(Graph.ofOwners partitions).contextOf node])
      fun owner there _ =>
        congrArg (fun found => Except.ok (Reply.contexts [Option.getD found []]))
          ((owners _ owner there).context node rfl)
    rw [context?_insertAll, answered]
    by_cases hot : node ∈ nodes
    · rw [if_pos hot]
      have hot := (all node).mp hot
      split
      · next nothing =>
        have same : (Graph.ofOwners partitions).contextOf node = [] := List.isEmpty_iff.mp nothing
        refine iff_of_false nofun ?_
        rintro ⟨-, some, equal⟩
        cases equal
        exact some same
      · next some =>
        constructor
        · rintro ⟨⟩
          exact ⟨hot, fun nothing => some (List.isEmpty_iff.mpr nothing), rfl⟩
        · rintro ⟨-, -, equal⟩
          cases equal
          rfl
    · rw [if_neg hot]
      exact iff_of_false nofun fun given => hot ((all node).mpr given.1)

end Faithful

/-! ## What is asked -/

namespace Request

/-- The nodes whose contexts are asked for. -/
def contextsOf? : Request → Option (List NodeId)
  | contexts nodes => some nodes
  | _ => none

/-- The nodes both of whose features are asked for. -/
def featuresOf? : Request → Option (List NodeId)
  | features nodes => some nodes
  | _ => none

end Request

/-- Of all calls, those of one kind ask for each of some nodes once. They go to owners, and none of
them asks for no node or for more than a page. -/
structure AsksOnce (asked : Request → Option (List NodeId)) (shards page : Nat)
    (nodes : List NodeId) (calls : List (Nat × Request)) : Prop where
  sized : ∀ shard request part, (shard, request) ∈ calls → asked request = some part →
    1 ≤ part.length ∧ part.length ≤ page
  owned : ∀ shard request part, (shard, request) ∈ calls → asked request = some part →
    ∀ node ∈ part, ownerOf shards node = shard
  once : (calls.filterMap fun call => asked call.2).flatten.Perm nodes

/-- The items of a list, sorted by their owners. -/
theorem perm_flatMap_filter {α : Type} (owner : α → Nat) (items : List α) (shards : Nat) :
    ((List.range shards).flatMap fun shard => items.filter fun item => owner item == shard).Perm
      (items.filter fun item => decide (owner item < shards)) := by
  induction shards with
  | zero => simp
  | succ shards ih =>
      rw [List.range_succ, List.flatMap_append, List.flatMap_singleton]
      refine (ih.append_right _).trans ?_
      have parts := List.filter_append_perm (fun item => decide (owner item < shards))
        (items.filter fun item => decide (owner item < shards + 1))
      rw [List.filter_filter, List.filter_filter] at parts
      have before : (fun item => decide (owner item < shards) && decide (owner item < shards + 1)) =
          fun item => decide (owner item < shards) := by
        funext item
        rw [← Bool.decide_and]
        exact decide_eq_decide.mpr ⟨And.left, fun less => ⟨less, Nat.lt_succ_of_lt less⟩⟩
      have last : (fun item => !decide (owner item < shards) && decide (owner item < shards + 1)) =
          fun item => owner item == shards := by
        funext item
        rw [← decide_not, ← Bool.decide_and, beq_eq_decide]
        exact decide_eq_decide.mpr (by omega)
      rwa [before, last] at parts

namespace AsksOnce

variable {asked : Request → Option (List NodeId)} {shards page : Nat} {nodes nodes' : List NodeId}
  {calls calls' : List (Nat × Request)}

/-- Calls of other kinds ask for nothing. -/
theorem of_none (others : ∀ shard request, (shard, request) ∈ calls → asked request = none) :
    AsksOnce asked shards page [] calls where
  sized shard request part called given := nomatch (others shard request called).symm.trans given
  owned shard request part called given := nomatch (others shard request called).symm.trans given
  once := by
    rw [List.filterMap_eq_nil_iff.mpr fun call called => others call.1 call.2 called]
    exact .refl _

theorem append (first : AsksOnce asked shards page nodes calls)
    (second : AsksOnce asked shards page nodes' calls') :
    AsksOnce asked shards page (nodes ++ nodes') (calls ++ calls') where
  sized shard request part called :=
    (List.mem_append.mp called).elim (first.sized shard request part)
      (second.sized shard request part)
  owned shard request part called :=
    (List.mem_append.mp called).elim (first.owned shard request part)
      (second.owned shard request part)
  once := by
    rw [List.filterMap_append, List.flatten_append]
    exact first.once.append second.once

theorem flatMap {α : Type} {items : List α} {nodesOf : α → List NodeId}
    {callsOf : α → List (Nat × Request)}
    (each : ∀ item ∈ items, AsksOnce asked shards page (nodesOf item) (callsOf item)) :
    AsksOnce asked shards page (items.flatMap nodesOf) (items.flatMap callsOf) := by
  induction items with
  | nil => exact of_none nofun
  | cons item items ih =>
      obtain ⟨here, others⟩ := List.forall_mem_cons.mp each
      exact here.append (ih others)

/-- One call to each owner about the nodes that it owns asks for every node once. -/
theorem callsTo {make : List NodeId → Request} (made : ∀ part, asked (make part) = some part)
    (positive : 0 < shards) (short : nodes.length ≤ page) :
    AsksOnce asked shards page nodes
      (callsTo (ownerOf shards) (fun _ => true) make shards nodes) := by
  have call : ∀ {shard request part},
      (shard, request) ∈ ShardedGraph.callsTo (ownerOf shards) (fun _ => true) make shards nodes →
        asked request = some part →
          part ≠ [] ∧ part = nodes.filter fun node => true && ownerOf shards node == shard := by
    intro shard request part called given
    obtain ⟨place, _, there⟩ := List.mem_filterMap.mp called
    dsimp only at there
    split at there
    · cases there
    · next some =>
      cases there
      obtain rfl := Option.some.inj (given.symm.trans (made _))
      exact ⟨fun none => some (List.isEmpty_iff.mpr none), rfl⟩
  refine ⟨fun shard request part called given => ?_,
    fun shard request part called given node member => ?_, ?_⟩
  · obtain ⟨some, rfl⟩ := call called given
    exact ⟨List.length_pos_iff.mpr some, Nat.le_trans (List.length_filter_le _ _) short⟩
  · obtain ⟨-, rfl⟩ := call called given
    exact eq_of_beq (Bool.and_eq_true_iff.mp (List.mem_filter.mp member).2).2
  · have all : nodes.filter (fun node => decide (ownerOf shards node < shards)) = nodes :=
      List.filter_eq_self.mpr fun node _ => decide_eq_true (ownerOf_lt positive node)
    have sorted := perm_flatMap_filter (ownerOf shards) nodes shards
    rw [all] at sorted
    refine List.Perm.trans (List.Perm.of_eq ?_) sorted
    rw [ShardedGraph.callsTo, List.filterMap_filterMap]
    induction List.range shards with
    | nil => rfl
    | cons shard places ih =>
        rw [List.filterMap_cons, List.flatMap_cons, ← ih]
        by_cases none : (nodes.filter fun node => ownerOf shards node == shard) = []
        · simp [none]
        · simp [none, made]

end AsksOnce

/-! ## Acts on the record -/

/-- An act gives a value; on the record it does the same, and makes these calls. -/
structure Yields {σ α : Type} (act : Exchange σ α) (recorded : Exchange (Rehearsal σ) α)
    (world later : World σ) (value : α) (calls : List (Nat × Request)) : Prop where
  run : runFrom act world = (.ok value, later)
  recording : ∀ earlier, runFrom recorded (world.recorded earlier) =
    (.ok value, later.recorded (calls.reverse ++ earlier))

namespace Yields

variable {σ α β : Type} {world between later : World σ}

theorem pure (value : α) : Yields (Pure.pure value) (Pure.pure value) world world value [] :=
  ⟨rfl, fun _ => rfl⟩

theorem liftM {result : Except Error α} {value : α} (ok : result = .ok value) :
    Yields (liftM result) (liftM result) world world value [] := by
  rw [ok]
  exact pure value

/-- An act has one outcome. -/
theorem unique {act : Exchange σ α} {recorded : Exchange (Rehearsal σ) α} {value value' : α}
    {calls calls' : List (Nat × Request)} {later' : World σ}
    (yields : Yields act recorded world later value calls)
    (yields' : Yields act recorded world later' value' calls') :
    value = value' ∧ later = later' ∧ calls = calls' := by
  cases yields.run.symm.trans yields'.run
  have same := congrArg (fun run => run.2.network.calls)
    ((yields.recording []).symm.trans (yields'.recording []))
  simp only [World.recorded, List.append_nil, List.reverse_inj] at same
  exact ⟨rfl, rfl, same⟩

/-- Acts that follow one another make their calls one after the other. -/
theorem bind {act : Exchange σ α} {recorded : Exchange (Rehearsal σ) α} {value : α}
    {calls : List (Nat × Request)} {next : α → Exchange σ β}
    {recordedNext : α → Exchange (Rehearsal σ) β} {value' : β} {calls' : List (Nat × Request)}
    (first : Yields act recorded world between value calls)
    (second : Yields (next value) (recordedNext value) between later value' calls') :
    Yields (act >>= next) (recorded >>= recordedNext) world later value' (calls ++ calls') := by
  refine ⟨(runFrom_bind_of_ok first.run).trans second.run, fun earlier => ?_⟩
  refine (runFrom_bind_of_ok (first.recording earlier)).trans ?_
  rw [second.recording, List.reverse_append, List.append_assoc]

/-- A fold makes the calls of its steps. -/
theorem foldlM {step : β → α → Exchange σ β} {recordedStep : β → α → Exchange (Rehearsal σ) β}
    {next : β → α → β} {calls : α → List (Nat × Request)} {items : List α} {first : β}
    (each : ∀ item ∈ items, ∀ before world, ∃ later,
      Yields (step before item) (recordedStep before item) world later (next before item)
        (calls item)) (world : World σ) :
    ∃ later, Yields (items.foldlM step first) (items.foldlM recordedStep first) world later
      (items.foldl next first) (items.flatMap calls) := by
  induction items generalizing first world with
  | nil => exact ⟨world, pure first⟩
  | cons item items ih =>
      obtain ⟨here, others⟩ := List.forall_mem_cons.mp each
      obtain ⟨between, yields⟩ := here first world
      obtain ⟨later, yields'⟩ := @ih (next first item) others between
      rw [List.foldlM_cons, List.foldlM_cons]
      exact ⟨later, yields.bind yields'⟩

end Yields

namespace Link

variable {σ : Type} {link : Link σ} {graph : Graph} {nodes : List NodeId}

/-- A fan-out that succeeds makes the calls that its requests ask for. -/
theorem fanOut_yields {α : Type} {take : Reply → Option α} {requests : List (Option Request)}
    {answers : List (Option α)} {world later : World σ}
    (counts : requests.length = link.transport.shards)
    (run : runFrom (link.fanOut take requests) world = (.ok answers, later)) :
    Yields (link.fanOut take requests) (link.recording.fanOut take requests) world later answers
      (callsOf requests) :=
  ⟨run, fun earlier => by rw [link.fanOut_recording take counts, run]⟩

/-- A lookup that succeeds makes its calls. -/
theorem lookup_yields {α : Type} [Inhabited α] {known : NodeId → Option α}
    {make : List NodeId → Request} {take : Reply → Option (List α)} {values : List α}
    {world : World σ} (positive : 0 < link.transport.shards)
    (found : (runFrom (link.lookup known make take nodes) world).1 = .ok values) :
    ∃ later, Yields (link.lookup known make take nodes)
      (link.recording.lookup known make take nodes) world later values
      (callsAbout known make link.transport.shards nodes) := by
  refine ⟨_, Prod.ext found rfl, fun earlier => ?_⟩
  rw [link.lookup_recording positive, found]

theorem lookupFeatures_yields {cache : Cache} {values : List Feature × List Feature}
    {world : World σ} (positive : 0 < link.transport.shards)
    (found : (runFrom (link.lookupFeatures cache nodes) world).1 = .ok values) :
    ∃ later, Yields (link.lookupFeatures cache nodes) (link.recording.lookupFeatures cache nodes)
      world later values
      (callsTo (ownerOf link.transport.shards) (fun node => (cache.features? node).isNone) .features
        link.transport.shards nodes) := by
  refine ⟨_, Prod.ext found rfl, fun earlier => ?_⟩
  rw [(allOrNothing_lookupFeatures positive cache).calls, found]

/-- The calls that fetch all that is known of some nodes. -/
def entryCalls (shards : Nat) (nodes : List NodeId) : List (Nat × Request) :=
  callsTo (ownerOf shards) (fun _ => true) .contexts shards nodes ++
    callsTo (ownerOf shards) (fun _ => true) .features shards nodes

/-- Entries are fetched from the owners of their nodes, contexts first. -/
theorem fetchEntries_yields (holds : link.Holds graph nodes) (world : World σ) :
    ∃ later, Yields (link.fetchEntries nodes) (link.recording.fetchEntries nodes) world later
      (nodes.map (.ofGraph graph)) (entryCalls link.transport.shards nodes) := by
  obtain ⟨between, contexts⟩ := lookup_yields holds.positive
    (lookup_of_true (fun _ => none) holds.positive holds.contexts (fun _ _ there => nomatch there)
      world)
  obtain ⟨later, features⟩ := lookupFeatures_yields holds.positive
    (lookupFeatures_eq_ok holds (Cache.agrees_empty graph) between)
  refine ⟨later, ?_⟩
  rw [entryCalls, ← List.append_nil (callsTo _ _ .features _ _), ← map_zip_eq_ofGraph]
  exact contexts.bind (features.bind (Yields.pure _))

/-- A scan of partitions gives their hot nodes, each once, and asks for nothing but pages. -/
theorem scanHotNodes_yields {partitions : List Partition} (serves : link.ServesPages partitions)
    {page : Nat} (positive : 0 < page) (small : page < UInt64.size)
    (short : ∀ partition ∈ partitions, partition.hotNodes.length < UInt64.size)
    (world : World σ) : ∃ scanned calls later,
      Yields (link.scanHotNodes page) (link.recording.scanHotNodes page) world later scanned calls ∧
      scanned.Nodup ∧
      (∀ node, node ∈ scanned ↔ ∃ partition ∈ partitions, node ∈ partition.hotNodes) ∧
      ∀ shard request, (shard, request) ∈ calls → ∃ query, request = .hotNodes query := by
  have enough : Scan.roundsOf page (hotLists partitions) ≤ Scan.roundLimit page := by
    apply Scan.roundsOf_le
    intro list member
    obtain ⟨partition, there, rfl⟩ := List.mem_map.mp member
    exact Nat.le_sub_one_of_lt (short partition there)
  have start : Scan.start link.transport.shards =
      Scan.afterRounds page (hotLists partitions) 0 := by
    rw [← Scan.start_eq_afterRounds, List.length_map, serves.shards]
  have start' : Scan.start link.recording.transport.shards =
      Scan.afterRounds page (hotLists partitions) 0 := start
  obtain ⟨last, later, rfl, run, -⟩ := scanRounds_served serves small short positive
    (Nat.zero_add _) enough world []
  refine ⟨(Scan.afterRounds page (hotLists partitions)
      (Scan.roundsOf page (hotLists partitions))).seen,
    Scan.callsIn page (hotLists partitions) (Scan.roundsOf page (hotLists partitions)),
    later, ⟨?_, fun earlier => ?_⟩, nodup_seen_afterRounds _ _, fun node => ?_, ?_⟩
  · rw [← start] at run
    exact runFrom_bind_of_ok run
  · obtain ⟨last, later', rfl, again, recorded⟩ := scanRounds_served serves small short positive
      (Nat.zero_add _) enough world earlier
    cases run.symm.trans again
    rw [← start', ← List.range_eq_range'] at recorded
    exact runFrom_bind_of_ok recorded
  · rw [Scan.mem_seen_afterRounds positive]
    simp
  · intro shard request called
    obtain ⟨_, _, _, _, rfl⟩ := Scan.exists_of_mem_callsIn called
    exact ⟨_, rfl⟩

/-- The cache of scanned nodes is filled with what a graph holds for them, slice by slice. -/
theorem fetchCache_yields
    (holds : ∀ nodes : List NodeId, nodes.length < UInt64.size → link.Holds graph nodes)
    {page : Nat} (positive : 0 < page) (small : page < UInt64.size) {scanned : List NodeId}
    {calls : List (Nat × Request)} {world between : World σ}
    (scan : Yields (link.scanHotNodes page) (link.recording.scanHotNodes page) world between
      scanned calls) :
    ∃ later, Yields (link.fetchCache page) (link.recording.fetchCache page) world later
      (Cache.empty.insertAll (scanned.map (.ofGraph graph)))
      (calls ++ (slicesOf page scanned).flatMap (entryCalls link.transport.shards)) := by
  obtain ⟨later, fill⟩ := @Yields.foldlM σ (List NodeId) Cache
    (fun cache nodes => do return cache.insertAll (← link.fetchEntries nodes))
    (fun cache nodes => do return cache.insertAll (← link.recording.fetchEntries nodes))
    (fun cache nodes => cache.insertAll (nodes.map (.ofGraph graph)))
    (entryCalls link.transport.shards) (slicesOf page scanned) .empty
    (fun slice member before world => by
      have short := Nat.lt_of_le_of_lt (length_le_of_mem_slicesOf member) small
      obtain ⟨later, entries⟩ := fetchEntries_yields (holds slice short) world
      refine ⟨later, ?_⟩
      rw [← List.append_nil (entryCalls _ _)]
      exact entries.bind (Yields.pure _)) between
  have filled : (slicesOf page scanned).foldl
      (fun cache nodes => cache.insertAll (nodes.map (Cache.Entry.ofGraph graph))) Cache.empty =
        Cache.empty.insertAll (scanned.map (.ofGraph graph)) := by
    unfold Cache.insertAll
    rw [← flatten_slicesOf positive scanned, List.map_flatten, List.foldl_flatten, List.foldl_map,
      flatten_slicesOf positive]
  rw [filled] at fill
  exact ⟨later, scan.bind fill⟩

section EntryCalls

variable {shards page : Nat} (positive : 0 < shards)

include positive

/-- A slice of no more than a page is asked for once, contexts as well as features. -/
theorem asksOnce_entryCalls (short : nodes.length ≤ page) :
    AsksOnce Request.contextsOf? shards page nodes (entryCalls shards nodes) ∧
      AsksOnce Request.featuresOf? shards page nodes (entryCalls shards nodes) := by
  have made : ∀ {make : List NodeId → Request} {shard : Nat} {request : Request},
      (shard, request) ∈ callsTo (ownerOf shards) (fun _ => true) make shards nodes →
        ∃ part, request = make part := by
    intro make shard request called
    obtain ⟨place, _, there⟩ := List.mem_filterMap.mp called
    dsimp only at there
    split at there
    · cases there
    · cases there
      exact ⟨_, rfl⟩
  constructor
  · have others : AsksOnce Request.contextsOf? shards page []
        (callsTo (ownerOf shards) (fun _ => true) .features shards nodes) := by
      refine .of_none fun shard request called => ?_
      obtain ⟨_, rfl⟩ := made called
      rfl
    have both := (@AsksOnce.callsTo Request.contextsOf? shards page nodes .contexts (fun _ => rfl)
      positive short).append others
    rwa [List.append_nil] at both
  · have others : AsksOnce Request.featuresOf? shards page []
        (callsTo (ownerOf shards) (fun _ => true) .contexts shards nodes) := by
      refine .of_none fun shard request called => ?_
      obtain ⟨_, rfl⟩ := made called
      rfl
    exact others.append (AsksOnce.callsTo (fun _ => rfl) positive short)

/-- Slice by slice, every node is asked for once. -/
theorem asksOnce_slices (some : 0 < page) (nodes : List NodeId) :
    AsksOnce Request.contextsOf? shards page nodes
        ((slicesOf page nodes).flatMap (entryCalls shards)) ∧
      AsksOnce Request.featuresOf? shards page nodes
        ((slicesOf page nodes).flatMap (entryCalls shards)) := by
  have whole : (slicesOf page nodes).flatMap id = nodes := by
    rw [List.flatMap_id, flatten_slicesOf some]
  have each : ∀ slice ∈ slicesOf page nodes, slice.length ≤ page :=
    fun slice member => length_le_of_mem_slicesOf member
  constructor
  · have all := @AsksOnce.flatMap Request.contextsOf? shards page _ _ id (entryCalls shards)
      fun slice member => (asksOnce_entryCalls positive (each slice member)).1
    rwa [whole] at all
  · have all := @AsksOnce.flatMap Request.featuresOf? shards page _ _ id (entryCalls shards)
      fun slice member => (asksOnce_entryCalls positive (each slice member)).2
    rwa [whole] at all

end EntryCalls

end Link

end ShardedGraph
