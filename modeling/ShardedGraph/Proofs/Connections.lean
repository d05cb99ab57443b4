import ShardedGraph.Proofs.Mirrors

/-!
# Connections

A client that connects learns a page size, the number of slots, the spread of each slot over the
shards, and a cache (`Knowledge`).

**One process.** Over built partitions in the same process, no step of this fails, except that the
partitions may name different page sizes or report different numbers of slots (`Link.learn_splits`).
So a client connects exactly when these are the same (`Cluster.connects_iff`).

**Other transports.** What is learned over a truthful transport is learned in one process too
(`Link.mirrors_learn`), so a client that has connected has a faithful cache, and has asked for each
hot node once (`Cluster.cache_faithful`).
-/

set_option autoImplicit false

namespace ShardedGraph

open Number

/-! ## What is learned -/

/-- What a client learns when it connects. -/
structure Knowledge where
  pageSize : Nat
  slots : Nat
  shares : List (Option Kernel.AliasTable)
  cache : Cache

/-- Learns all that a client has to know of the shards. -/
def Link.learn {σ : Type} (link : Link σ) : Exchange σ Knowledge := do
  let pageSize ← agreedPageSize (← link.broadcast Reply.metaValue? (.metaValue pageSizeKey))
  let reports ← readReports (← link.broadcast Reply.metaValue? (.metaValue totalsKey))
  let slots ← checkSlots reports
  let shares ← sharesOf reports slots
  let cache ← link.fetchCache pageSize
  return { pageSize, slots, shares, cache }

/-- The client that knows this. -/
def Cluster.ofKnowledge {σ : Type} (link : Link σ) (knowledge : Knowledge) : Cluster σ where
  link := link
  pageSize := knowledge.pageSize
  slots := knowledge.slots
  shares := knowledge.shares
  cache := knowledge.cache

/-- A client connects to shards by learning from them. -/
theorem Cluster.connect_eq {σ : Type} {transport : Transport σ} (positive : 0 < transport.shards)
    (config : Config) : connect transport config = do
      return ofKnowledge ⟨transport, config.deadline?⟩
        (← Link.learn ⟨transport, config.deadline?⟩) := by
  unfold connect Link.learn
  rw [if_neg (Nat.ne_of_gt positive)]
  simp only [bind_assoc, pure_bind]
  rfl

/-! ## Texts -/

/-- Sizes are all the one that was agreed on, or one of them is the first that differs. -/
theorem foldlM_agreeOn_splits (first : Nat) (sizes : List Nat) :
    (∀ size ∈ sizes, size = first) ∧ sizes.foldlM agreeOn (some first) = .ok (some first) ∨
      ∃ size ∈ sizes, size ≠ first ∧
        sizes.foldlM agreeOn (some first) = .error (.pageSizesDiffer first size) := by
  induction sizes with
  | nil => exact .inl ⟨nofun, rfl⟩
  | cons size sizes ih =>
      rw [List.foldlM_cons, agreeOn]
      by_cases same : first = size
      · rw [if_pos same]
        rcases ih with ⟨all, run⟩ | ⟨other, member, differs, run⟩
        · exact .inl ⟨List.forall_mem_cons.mpr ⟨same.symm, all⟩, run⟩
        · exact .inr ⟨other, List.mem_cons_of_mem _ member, differs, run⟩
      · rw [if_neg same]
        exact .inr ⟨size, List.mem_cons_self, Ne.symm same, rfl⟩

namespace Partition

/-- A slot that a partition does not have has no total. -/
theorem getD_totals_of_le {partition : Partition} {slot : Nat}
    (outside : partition.graph.slots ≤ slot) : partition.graph.totals.getD slot 0 = 0 :=
  List.getD_eq_default _ _ (by rwa [Graph.totals, List.length_map])

/-- In any slot, a partition has the total of a count. -/
theorem IsBuilt.exists_isTotal {partition : Partition} (built : partition.IsBuilt) (slot : Nat) :
    ∃ count, Graph.IsTotal count (partition.graph.totals.getD slot 0) := by
  rcases Nat.lt_or_ge slot partition.graph.slots with inside | outside
  · rw [built.totals_eq, List.getD_eq_getElem?_getD, List.getElem?_map, List.getElem?_range inside]
    exact ⟨_, built.isTotal slot⟩
  · rw [getD_totals_of_le outside]
    exact ⟨0, by decide +kernel, by decide +kernel, by decide +kernel, by decide +kernel⟩

end Partition

section Texts

variable {partitions : List Partition} (built : ∀ partition ∈ partitions, partition.IsBuilt)

include built

/-- Page sizes are read as they are. -/
theorem foldlM_readPageSize (shard : Nat) (agreed : Option Nat) :
    ((partitions.map fun partition => toString partition.pageSize).zipIdx shard).foldlM
      (fun agreed (text, shard) => do agreeOn agreed (← readPageSize shard text)) agreed =
    (partitions.map fun partition => partition.pageSize.toNat).foldlM agreeOn agreed := by
  induction partitions generalizing shard agreed with
  | nil => rfl
  | cons partition partitions ih =>
      obtain ⟨here, others⟩ := List.forall_mem_cons.mp built
      simp only [List.map_cons, List.zipIdx_cons, List.foldlM_cons]
      rw [here.readPageSize_eq shard]
      exact congrArg (agreeOn agreed _ >>= ·) (funext fun agreed => ih others (shard + 1) agreed)

/-- The page sizes of shards are agreed on, unless one of them differs from the first. -/
theorem agreedPageSize_splits (occupied : partitions ≠ []) :
    (∃ size, (∀ partition ∈ partitions, partition.pageSize.toNat = size) ∧
      agreedPageSize (partitions.map fun partition => toString partition.pageSize) = .ok size) ∨
    ∃ first ∈ partitions, ∃ other ∈ partitions, other.pageSize.toNat ≠ first.pageSize.toNat ∧
      agreedPageSize (partitions.map fun partition => toString partition.pageSize) =
        .error (.pageSizesDiffer first.pageSize.toNat other.pageSize.toNat) := by
  rw [agreedPageSize, foldlM_readPageSize built 0 none]
  obtain ⟨first, others, rfl⟩ := List.exists_cons_of_ne_nil occupied
  rw [List.map_cons, List.foldlM_cons]
  rcases foldlM_agreeOn_splits first.pageSize.toNat
      (others.map fun partition => partition.pageSize.toNat) with
    ⟨all, run⟩ | ⟨size, member, differs, run⟩
  · refine .inl ⟨first.pageSize.toNat, List.forall_mem_cons.mpr ⟨rfl, fun other among =>
      all _ (List.mem_map_of_mem among)⟩, ?_⟩
    change (List.foldlM agreeOn (some first.pageSize.toNat) _ >>= _) = _
    rw [run]
    rfl
  · obtain ⟨other, among, rfl⟩ := List.mem_map.mp member
    refine .inr ⟨first, List.mem_cons_self, other, List.mem_cons_of_mem _ among, differs, ?_⟩
    change (List.foldlM agreeOn (some first.pageSize.toNat) _ >>= _) = _
    rw [run]
    rfl

/-- Totals are read as they are. -/
theorem readReports_of_built :
    readReports (partitions.map Partition.totalsText) =
      .ok (partitions.map fun partition => partition.graph.totals) := by
  rw [readReports, mapM_eq_ok_iff, forall₂_iff_getElem?]
  refine ⟨by simp, ?_⟩
  rintro position ⟨text, shard⟩ totals here there
  rw [List.getElem?_zipIdx, List.getElem?_map, Option.map_map] at here
  rw [List.getElem?_map] at there
  obtain ⟨partition, place, rfl⟩ := Option.map_eq_some_iff.mp there
  rw [place] at here
  cases here
  exact (built partition (List.mem_of_getElem? place)).readTotals_eq _

/-- A slot is spread over the shards exactly when some of them has nodes of it, unless there are too
many shards for that. -/
theorem shareOf_of_built (slot : Nat) :
    (∃ share, shareOf (partitions.map fun partition => partition.graph.totals) slot = .ok share ∧
      (share.isSome = true ↔ ∃ partition ∈ partitions, 0 < partition.graph.totals.getD slot 0)) ∨
    UInt32.size ≤ partitions.length ∧
      (∃ partition ∈ partitions, 0 < partition.graph.totals.getD slot 0) ∧
      shareOf (partitions.map fun partition => partition.graph.totals) slot =
        .error (.tableTooLarge .aliased partitions.length) := by
  have spread : (∃ report ∈ partitions.map (fun partition => partition.graph.totals),
      0 < (report.getD slot 0).narrow) ↔
        ∃ partition ∈ partitions, 0 < partition.graph.totals.getD slot 0 := by
    simp only [List.mem_map, exists_exists_and_eq_and]
    refine exists_congr fun partition => and_congr_right fun member => ?_
    obtain ⟨count, total⟩ := (built partition member).exists_isTotal slot
    exact total.positive_narrow.trans total.positive.symm
  have splits := @shareOf_splits (partitions.map fun partition => partition.graph.totals) slot (by
    intro report member
    obtain ⟨partition, among, rfl⟩ := List.mem_map.mp member
    obtain ⟨count, total⟩ := (built partition among).exists_isTotal slot
    exact total.isWeight)
  rwa [spread, List.length_map] at splits

/-- Each slot can be spread over shards that report the same number of slots, unless there are too
many shards for that. -/
theorem sharesOf_splits {slots : Nat}
    (same : ∀ partition ∈ partitions, partition.graph.slots = slots) :
    (∃ shares, sharesOf (partitions.map fun partition => partition.graph.totals) slots = .ok shares ∧
      ∀ slot, (shares.getD slot none).isSome = true ↔
        ∃ partition ∈ partitions, 0 < partition.graph.totals.getD slot 0) ∨
    UInt32.size ≤ partitions.length ∧
      (∃ slot, ∃ partition ∈ partitions, 0 < partition.graph.totals.getD slot 0) ∧
      sharesOf (partitions.map fun partition => partition.graph.totals) slots =
        .error (.tableTooLarge .aliased partitions.length) := by
  rcases mapM_splits (shareOf (partitions.map fun partition => partition.graph.totals))
      (List.range slots) with ⟨shares, made⟩ | ⟨_, slot, error, _, failed, refused, _⟩
  · refine .inl ⟨shares, made, fun slot => ?_⟩
    obtain ⟨length, each⟩ := forall₂_iff_getElem?.mp (mapM_eq_ok_iff.mp made)
    rw [List.length_range] at length
    rw [List.getD_eq_getElem?_getD]
    by_cases inside : slot < slots
    · have there := List.getElem?_eq_getElem (Nat.lt_of_lt_of_eq inside length)
      have given := each slot slot _ (List.getElem?_range inside) there
      rw [there]
      rcases shareOf_of_built built slot with ⟨share, known, spread⟩ | ⟨-, -, failed⟩
      · cases given.symm.trans known
        exact spread
      · cases given.symm.trans failed
    · rw [List.getElem?_eq_none (length ▸ Nat.le_of_not_lt inside)]
      refine iff_of_false Bool.false_ne_true ?_
      rintro ⟨partition, member, some⟩
      have outside : partition.graph.slots ≤ slot := same partition member ▸ Nat.le_of_not_lt inside
      rw [Partition.getD_totals_of_le outside] at some
      exact absurd some (by decide +kernel)
  · rcases shareOf_of_built built slot with ⟨share, known, -⟩ | ⟨many, some, tooLarge⟩
    · cases known.symm.trans failed
    · cases tooLarge.symm.trans failed
      exact .inr ⟨many, ⟨slot, some⟩, refused⟩

/-- The numbers of slots are the same, or one differs from the first. -/
theorem checkSlots_splits (occupied : partitions ≠ []) :
    (∃ slots, (∀ partition ∈ partitions, partition.graph.slots = slots) ∧
      checkSlots (partitions.map fun partition => partition.graph.totals) = .ok slots) ∨
    ∃ first ∈ partitions, ∃ other ∈ partitions, other.graph.slots ≠ first.graph.slots ∧
      ∃ shard, checkSlots (partitions.map fun partition => partition.graph.totals) =
        .error (.namespaceCount shard other.graph.slots first.graph.slots) := by
  obtain ⟨first, others, rfl⟩ := List.exists_cons_of_ne_nil occupied
  have length : ∀ partition : Partition,
      partition.graph.totals.length = partition.graph.slots := fun _ => List.length_map _
  have positive := Nat.ne_of_gt (built first List.mem_cons_self).slots_mem.1
  have here : (((first :: others).map fun partition => partition.graph.totals).head?.map
      List.length).getD 0 = first.graph.slots := length first
  rw [checkSlots, here, if_neg positive]
  split
  · next report shard found =>
    obtain ⟨differs, member⟩ := And.intro (List.find?_some found) (List.mem_of_find?_eq_some found)
    obtain ⟨other, among, rfl⟩ := List.mem_map.mp (List.fst_mem_of_mem_zipIdx member)
    dsimp only at differs
    rw [length, bne_iff_ne] at differs
    exact .inr ⟨first, List.mem_cons_self, other, among, differs, shard, by rw [length]⟩
  · next none =>
    refine .inl ⟨first.graph.slots, fun partition member => ?_, rfl⟩
    obtain ⟨position, place⟩ := List.getElem?_of_mem member
    have entry := List.find?_eq_none.mp none (partition.graph.totals, position)
      (List.mem_zipIdx_iff_getElem?.mpr (by rw [List.getElem?_map, place]; rfl))
    simpa [length] using entry

end Texts

/-! ## Learning in one process -/

/-- Partitions have the same number of something. -/
def Concur (partitions : List Partition) (value : Partition → Nat) : Prop :=
  ∀ first ∈ partitions, ∀ other ∈ partitions, value first = value other

theorem concur_of_forall {partitions : List Partition} {value : Partition → Nat} {common : Nat}
    (all : ∀ partition ∈ partitions, value partition = common) : Concur partitions value :=
  fun first member other among => (all first member).trans (all other among).symm

/-- Why a client does not connect to built partitions, with the class of the error. -/
inductive RefusedWith (partitions : List Partition) : ErrorKind → Prop where
  | pageSizes (differ : ¬Concur partitions fun partition => partition.pageSize.toNat) :
      RefusedWith partitions .config
  | slots (sizes : Concur partitions fun partition => partition.pageSize.toNat)
      (differ : ¬Concur partitions fun partition => partition.graph.slots) :
      RefusedWith partitions .data
  | tooMany (sizes : Concur partitions fun partition => partition.pageSize.toNat)
      (slots : Concur partitions fun partition => partition.graph.slots)
      (many : UInt32.size ≤ partitions.length)
      (some : ∃ slot, ∃ partition ∈ partitions, 0 < partition.graph.totals.getD slot 0) :
      RefusedWith partitions .capacity

/-- Calls about hot nodes: contexts as well as features of each are asked for once. -/
def AsksForHot (partitions : List Partition) (page : Nat) (calls : List (Nat × Request)) : Prop :=
  ∃ nodes : List NodeId, nodes.Nodup ∧ (∀ node, node ∈ nodes ↔ IsHot partitions node) ∧
    AsksOnce Request.contextsOf? partitions.length page nodes calls ∧
    AsksOnce Request.featuresOf? partitions.length page nodes calls

/-- Calls of other kinds may have been made before. -/
theorem AsksForHot.after {partitions : List Partition} {page : Nat}
    {before calls : List (Nat × Request)} (asks : AsksForHot partitions page calls)
    (others : ∀ shard request, (shard, request) ∈ before →
      request.contextsOf? = none ∧ request.featuresOf? = none) :
    AsksForHot partitions page (before ++ calls) := by
  obtain ⟨nodes, nodup, all, contexts, features⟩ := asks
  exact ⟨nodes, nodup, all,
    (AsksOnce.of_none fun shard request called => (others shard request called).1).append contexts,
    (AsksOnce.of_none fun shard request called => (others shard request called).2).append features⟩

/-- What is known of partitions is true. -/
structure Knowledge.IsTrue (knowledge : Knowledge) (partitions : List Partition) : Prop where
  pageSize : ∀ partition ∈ partitions, partition.pageSize.toNat = knowledge.pageSize
  slots : ∀ partition ∈ partitions, partition.graph.slots = knowledge.slots
  shares : ∀ slot, (knowledge.shares.getD slot none).isSome = true ↔
    ∃ partition ∈ partitions, 0 < partition.graph.totals.getD slot 0
  cache : knowledge.cache.IsFaithful partitions

namespace Link

variable {partitions : List Partition}

/-- When every answer is there, the answers are what was heard. -/
theorem mapM_answered {σ α : Type} {hear : Option α × Nat → Exchange σ α}
    (heard : ∀ value shard, hear (some value, shard) = pure value) (values : List α) (shard : Nat) :
    ((values.map some).zipIdx shard).mapM hear = pure values := by
  induction values generalizing shard with
  | nil => rfl
  | cons value values ih =>
      rw [List.map_cons, List.zipIdx_cons, List.mapM_cons, ih, heard]
      rfl

/-- The calls of a broadcast for a key are about no nodes. -/
theorem mem_callsOf_metaValue {key : String} {shards shard : Nat} {request : Request}
    (called : (shard, request) ∈ callsOf (List.replicate shards (some (.metaValue key)))) :
    request.contextsOf? = none ∧ request.featuresOf? = none := by
  obtain ⟨⟨asked, place⟩, member, made⟩ := List.mem_filterMap.mp called
  cases List.eq_of_mem_replicate (List.fst_mem_of_mem_zipIdx member)
  cases made
  exact ⟨rfl, rfl⟩

section Built

variable (built : ∀ partition ∈ partitions, partition.IsBuilt) (deadline : Option Nat)

include built

/-- A partition that is asked for a key gives its value. -/
theorem answers_metaValue {key value : String} {shard : Nat} {partition : Partition}
    (short : (Text.writeUtf8 key).length < UInt64.size)
    (there : partitions[shard]? = some partition) (known : partition.metaValue key = .ok value) :
    (toPartitions partitions deadline).Answers Reply.metaValue? shard (.metaValue key) value := by
  have fits := (built partition (List.mem_of_getElem? there)).length_metaValue known
  refine answers_inProcess (getElem?_services there) deadline (Wire.isExact_request.reads _ ?_)
    (fun stream => ?_) (Wire.isExact_reply.reads (.metaValue value) ?_) rfl
  · simpa [Request.lengths] using short
  · change (runFrom (do return Reply.metaValue (← partition.metaValue key)) stream).1 = _
    rw [known]
    rfl
  · simpa [Reply.lengths] using fits

/-- A broadcast for a key gives the values of all partitions. -/
theorem broadcast_yields {key : String} {valueOf : Partition → String}
    (short : (Text.writeUtf8 key).length < UInt64.size)
    (known : ∀ partition : Partition, partition.metaValue key = .ok (valueOf partition))
    (world : World WordStream) : ∃ later,
      Yields ((toPartitions partitions deadline).broadcast Reply.metaValue? (.metaValue key))
        ((toPartitions partitions deadline).recording.broadcast Reply.metaValue? (.metaValue key))
        world later (partitions.map valueOf)
        (callsOf (List.replicate (toPartitions partitions deadline).transport.shards
          (some (.metaValue key)))) := by
  have counts := shards_toPartitions partitions deadline
  have heard := @fanOut_eq_ok _ _ (toPartitions partitions deadline) Reply.metaValue?
    (List.replicate (toPartitions partitions deadline).transport.shards (some (.metaValue key)))
    ((partitions.map valueOf).map some) List.length_replicate
    (by rw [List.length_map, List.length_map, List.length_replicate, counts])
    (by
      intro shard request asked
      obtain ⟨inside, -⟩ := List.getElem?_eq_some_iff.mp asked
      rw [List.length_replicate, counts] at inside
      have there := List.getElem?_eq_getElem inside
      cases List.eq_of_mem_replicate (List.mem_of_getElem? asked)
      refine ⟨valueOf partitions[shard], ?_, answers_metaValue built deadline short there (known _)⟩
      rw [List.getElem?_map, List.getElem?_map, there]
      rfl)
    (by
      intro shard asked
      cases List.eq_of_mem_replicate (List.mem_of_getElem? asked))
    world
  obtain ⟨later, run⟩ := exists_of_toOption_eq_some (except_toOption_eq_some.mpr heard)
  refine ⟨later, ?_⟩
  rw [← List.append_nil (callsOf _)]
  refine (fanOut_yields List.length_replicate run).bind ?_
  rw [mapM_answered fun _ _ => rfl, mapM_answered fun _ _ => rfl]
  exact .pure _

/-- The cache that is fetched from partitions is faithful, and each hot node is asked for once. -/
theorem fetchCache_faithful (occupied : partitions ≠ []) {page : Nat} (positive : 0 < page)
    (small : page < UInt64.size) (world : World WordStream) : ∃ cache calls later,
      Yields ((toPartitions partitions deadline).fetchCache page)
        ((toPartitions partitions deadline).recording.fetchCache page) world later cache calls ∧
      cache.IsFaithful partitions ∧ AsksForHot partitions page calls := by
  have short : ∀ partition ∈ partitions, partition.hotNodes.length < UInt64.size :=
    fun partition member => (built partition member).length_hotNodes
  have holds : ∀ nodes : List NodeId, nodes.length < UInt64.size →
      (toPartitions partitions deadline).Holds (.ofOwners partitions) nodes := fun nodes =>
    holds_of_owners (Graph.owners_ofOwners partitions)
      (Graph.fits_ofOwners fun partition member => (built partition member).fits) occupied deadline
  obtain ⟨scanned, asked, between, scan, nodup, all, pages⟩ :=
    scanHotNodes_yields (servesPages_toPartitions short deadline) positive small short world
  obtain ⟨later, fetched⟩ := fetchCache_yields holds positive small scan
  obtain ⟨contexts, features⟩ :=
    asksOnce_slices (shards_toPartitions_pos occupied deadline) positive scanned
  rw [shards_toPartitions] at fetched contexts features
  refine ⟨_, _, later, fetched, Cache.isFaithful_insertAll occupied all,
    AsksForHot.after ⟨scanned, nodup, all, contexts, features⟩ fun shard request called => ?_⟩
  obtain ⟨query, rfl⟩ := pages shard request called
  exact ⟨rfl, rfl⟩

/-- What is learned of partitions that agree is true. Partitions that do not agree are refused, for
their page sizes first, and so are more of them than can share a slot. -/
theorem learn_splits (occupied : partitions ≠ []) (world : World WordStream) :
    (∃ knowledge calls later,
      Yields (toPartitions partitions deadline).learn
        (toPartitions partitions deadline).recording.learn world later knowledge calls ∧
      knowledge.IsTrue partitions ∧ AsksForHot partitions knowledge.pageSize calls) ∨
    ∃ error, (runFrom (toPartitions partitions deadline).learn world).1 = .error error ∧
      RefusedWith partitions error.kind := by
  have sizeKey : (Text.writeUtf8 pageSizeKey).length < UInt64.size := by decide +kernel
  have totalKey : (Text.writeUtf8 totalsKey).length < UInt64.size := by decide +kernel
  obtain ⟨first, named⟩ := @broadcast_yields partitions built deadline pageSizeKey
    (fun partition => toString partition.pageSize) sizeKey (fun _ => rfl) world
  obtain ⟨second, told⟩ := @broadcast_yields partitions built deadline totalsKey
    Partition.totalsText totalKey (fun _ => rfl) first
  rcases agreedPageSize_splits built occupied with
    ⟨size, sizes, agreed⟩ | ⟨partition, member, other, among, differs, refused⟩
  · rcases checkSlots_splits built occupied with
      ⟨slots, same, checked⟩ | ⟨partition, member, other, among, differs, shard, refused⟩
    · rcases sharesOf_splits built same with ⟨shares, made, spread⟩ | ⟨many, some, refused⟩
      case inr =>
        refine .inr ⟨.tableTooLarge .aliased partitions.length, ?_,
          .tooMany (concur_of_forall sizes) (concur_of_forall same) many some⟩
        rw [learn, runFrom_bind_of_ok named.run, runFrom_bind_of_ok (Yields.liftM agreed).run,
          runFrom_bind_of_ok told.run,
          runFrom_bind_of_ok (Yields.liftM (readReports_of_built built)).run,
          runFrom_bind_of_ok (Yields.liftM checked).run, refused]
        rfl
      obtain ⟨partition, member⟩ := List.exists_mem_of_ne_nil partitions occupied
      have positive : 0 < size := sizes partition member ▸ (built partition member).pageSize_pos
      have small : size < UInt64.size := sizes partition member ▸ partition.pageSize.toNat_lt
      obtain ⟨cache, calls, later, fetched, faithful, hot⟩ :=
        fetchCache_faithful built deadline occupied positive small second
      refine .inl ⟨⟨size, slots, shares, cache⟩, _, later,
        named.bind <| (Yields.liftM agreed).bind <| told.bind <|
          (Yields.liftM (readReports_of_built built)).bind <| (Yields.liftM checked).bind <|
            (Yields.liftM made).bind <| fetched.bind <| .pure _,
        ⟨sizes, same, spread, faithful⟩, ?_⟩
      rw [List.append_nil]
      exact (hot.after fun _ _ => mem_callsOf_metaValue).after fun _ _ => mem_callsOf_metaValue
    · refine .inr ⟨.namespaceCount shard other.graph.slots partition.graph.slots, ?_,
        .slots (concur_of_forall sizes) fun agree => differs (agree other among partition member)⟩
      rw [learn, runFrom_bind_of_ok named.run, runFrom_bind_of_ok (Yields.liftM agreed).run,
        runFrom_bind_of_ok told.run,
        runFrom_bind_of_ok (Yields.liftM (readReports_of_built built)).run, refused]
      rfl
  · refine .inr ⟨.pageSizesDiffer partition.pageSize.toNat other.pageSize.toNat, ?_,
      .pageSizes fun agree => differs (agree other among partition member)⟩
    rw [learn, runFrom_bind_of_ok named.run, refused]
    rfl

end Built

/-- Over a truthful transport, no more is learned than in one process. -/
theorem mirrors_learn {σ σ' : Type} {link : Link σ} {other : Link σ'}
    (mirrored : link.MirroredBy other partitions) (positive : 0 < link.transport.shards) :
    Mirrors link.learn link.recording.learn other.learn other.recording.learn := by
  unfold learn
  refine .bind (mirrors_broadcast mirrored (.metaValue partitions (by decide +kernel)))
    fun _ texts _ _ => .bind (.liftM _) fun _ size _ agreed => ?_
  have small := agreedPageSize_lt (congrArg Prod.fst agreed)
  exact .bind (mirrors_broadcast mirrored (.metaValue partitions (by decide +kernel)))
    fun _ texts _ _ => .bind (.liftM _) fun _ reports _ _ => .bind (.liftM _) fun _ slots _ _ =>
      .bind (.liftM _) fun _ shares _ _ =>
        .bind (mirrors_fetchCache mirrored positive small) fun _ _ _ _ => .pure _

end Link

/-! ## Connecting -/

namespace Cluster

/-- A client connects to built partitions in its process exactly when they have the same page size
and the same number of slots, provided that 32 bits can number the partitions. It then has these
numbers, and a table for each slot of which some partition has nodes. Otherwise it fails, for the
page sizes first. Nothing else keeps it from connecting but that there are too many partitions. -/
theorem connects_iff {partitions : List Partition} (occupied : partitions ≠ [])
    (built : ∀ partition ∈ partitions, partition.IsBuilt) (config : Config)
    (world : World WordStream) :
    (partitions.length < UInt32.size →
      ((∃ cluster later,
          runFrom (connect (.inProcess (partitions.map Partition.answer)) config) world =
            (.ok cluster, later)) ↔
        Concur partitions (fun partition => partition.pageSize.toNat) ∧
          Concur partitions (fun partition => partition.graph.slots))) ∧
    (∀ cluster later,
      runFrom (connect (.inProcess (partitions.map Partition.answer)) config) world =
        (.ok cluster, later) →
      (∀ partition ∈ partitions, partition.pageSize.toNat = cluster.pageSize) ∧
        (∀ partition ∈ partitions, partition.graph.slots = cluster.slots) ∧
          ∀ slot, (cluster.shares.getD slot none).isSome = true ↔
            ∃ partition ∈ partitions, 0 < partition.graph.totals.getD slot 0) ∧
    (¬Concur partitions (fun partition => partition.pageSize.toNat) →
      ∃ error, (runFrom (connect (.inProcess (partitions.map Partition.answer)) config) world).1 =
        .error error ∧ error.kind = .config) ∧
    (Concur partitions (fun partition => partition.pageSize.toNat) →
      ¬Concur partitions (fun partition => partition.graph.slots) →
        ∃ error, (runFrom (connect (.inProcess (partitions.map Partition.answer)) config) world).1 =
          .error error ∧ error.kind = .data) ∧
    ∀ error, (runFrom (connect (.inProcess (partitions.map Partition.answer)) config) world).1 =
      .error error → RefusedWith partitions error.kind := by
  have positive := Link.shards_toPartitions_pos occupied config.deadline?
  rcases Link.learn_splits built config.deadline? occupied world with
    ⟨knowledge, calls, later, learned, known, -⟩ | ⟨error, failed, why⟩
  · have run : runFrom (connect (.inProcess (partitions.map Partition.answer)) config) world =
        (.ok (ofKnowledge (.toPartitions partitions config.deadline?) knowledge), later) := by
      rw [connect_eq positive]
      exact runFrom_bind_of_ok learned.run
    have sizes := concur_of_forall known.pageSize
    have slots := concur_of_forall known.slots
    refine ⟨fun _ => iff_of_true ⟨_, _, run⟩ ⟨sizes, slots⟩, fun cluster after same => ?_,
      fun differ => absurd sizes differ, fun _ differ => absurd slots differ, fun error failed => ?_⟩
    · cases run.symm.trans same
      exact ⟨known.pageSize, known.slots, known.shares⟩
    · cases (congrArg Prod.fst run).symm.trans failed
  · have run : (runFrom (connect (.inProcess (partitions.map Partition.answer)) config) world).1 =
        .error error := by
      rw [connect_eq positive, runFrom_bind]
      rcases learned : runFrom (Link.toPartitions partitions config.deadline?).learn world with
        ⟨result, later⟩
      rw [learned] at failed
      cases failed
      rfl
    have never : ∀ cluster later,
        runFrom (connect (.inProcess (partitions.map Partition.answer)) config) world ≠
          (.ok cluster, later) := by
      intro cluster later same
      rw [same] at run
      cases run
    generalize same : error.kind = kind at why
    refine ⟨fun few => iff_of_false (fun ⟨_, _, same⟩ => never _ _ same) ?_,
      fun _ _ same => absurd same (never _ _), fun differ => ⟨error, run, ?_⟩,
      fun sizes differ => ⟨error, run, ?_⟩, fun other failed => ?_⟩
    · rintro ⟨sizes, slots⟩
      cases why with
      | pageSizes differ => exact differ sizes
      | slots _ differ => exact differ slots
      | tooMany _ _ many _ => exact Nat.not_le_of_lt few many
    · cases why with
      | pageSizes _ => exact same
      | slots sizes _ => exact absurd sizes differ
      | tooMany sizes _ _ _ => exact absurd sizes differ
    · cases why with
      | pageSizes differ => exact absurd sizes differ
      | slots _ _ => exact same
      | tooMany _ slots _ _ => exact absurd slots differ
    · cases run.symm.trans failed
      exact same ▸ why

/-- Two partitions with the same page size, and with nodes in their only slot. -/
theorem connects_iff_mixed :
    ([evenPartition, oddPartition] ≠ [] ∧
      ∀ partition ∈ [evenPartition, oddPartition], partition.IsBuilt) ∧
    ∃ cluster later, runFrom (connect (.inProcess ([evenPartition, oddPartition].map
        Partition.answer)) uniformConfig) ⟨.cycle #[], .cycle #[]⟩ = (.ok cluster, later) ∧
      cluster.slots = 1 ∧ (cluster.shares.getD 0 none).isSome = true := by
  obtain ⟨exactly, learned, -⟩ := connects_iff (List.cons_ne_nil evenPartition [oddPartition])
    isBuilt_mixed uniformConfig ⟨.cycle #[], .cycle #[]⟩
  have sizes : ∀ partition ∈ [evenPartition, oddPartition],
      partition.pageSize.toNat = evenPartition.pageSize.toNat := by decide +kernel
  have slots : ∀ partition ∈ [evenPartition, oddPartition], partition.graph.slots = 1 := by
    decide +kernel
  obtain ⟨cluster, later, run⟩ :=
    (exactly (by decide)).mpr ⟨concur_of_forall sizes, concur_of_forall slots⟩
  obtain ⟨-, same, spread⟩ := learned cluster later run
  refine ⟨⟨List.cons_ne_nil _ _, isBuilt_mixed⟩, cluster, later, run, ?_,
    (spread 0).mpr (by decide +kernel)⟩
  exact (same evenPartition List.mem_cons_self).symm.trans
    (slots evenPartition List.mem_cons_self)

/-- What a client has cached when it has connected over a truthful transport is what the owners
answer for the hot nodes; it has asked for each of these once, at most a page at a time. -/
theorem cache_faithful {σ : Type} {transport : Transport σ} {partitions : List Partition}
    {config : Config} {cluster : Cluster σ} {world later : World σ}
    (built : ∀ partition ∈ partitions, partition.IsBuilt)
    (truthful : transport.IsTruthful partitions)
    (run : runFrom (connect transport config) world = (.ok cluster, later)) :
    (∀ partition ∈ partitions, partition.pageSize.toNat = cluster.pageSize) ∧
      cluster.cache.IsFaithful partitions ∧
      ∃ calls, runFrom (connect (Transport.rehearsed transport) config) (world.recorded []) =
          (.ok cluster.recording, later.recorded calls.reverse) ∧
        AsksForHot partitions cluster.pageSize calls := by
  have positive := (spec_of_connect run).1
  rw [connect_eq positive] at run
  rw [@connect_eq _ (Transport.rehearsed transport) positive]
  obtain ⟨knowledge, between, learned, made⟩ := runFrom_bind_eq_ok run
  cases made
  have occupied : partitions ≠ [] := by
    rintro rfl
    exact absurd truthful.shards (Nat.ne_of_gt positive)
  have mirrored := Link.mirroredBy_toPartitions truthful built config.deadline? none
  obtain ⟨calls, yields, others⟩ := Link.mirrors_learn mirrored positive _ _ _ learned
  obtain ⟨later', same⟩ := others ⟨.cycle #[], .cycle #[]⟩
  rcases Link.learn_splits built none occupied ⟨.cycle #[], .cycle #[]⟩ with
    ⟨knowledge', calls', later'', yields', known, hot⟩ | ⟨error, failed, -⟩
  · obtain ⟨rfl, -, rfl⟩ := same.unique yields'
    refine ⟨known.pageSize, known.cache, calls, ?_, hot⟩
    have recorded := yields.recording []
    rw [List.append_nil] at recorded
    exact runFrom_bind_of_ok recorded
  · cases (congrArg Prod.fst same.run).symm.trans failed

/-- Two partitions in the same process, each with one hot node. -/
theorem cache_faithful_mixed :
    (∀ partition ∈ [evenPartition, oddPartition], partition.IsBuilt) ∧
    (Transport.inProcess [evenPartition.answer, oddPartition.answer]).IsTruthful
      [evenPartition, oddPartition] ∧
    ∃ cluster later,
      runFrom (connect (.inProcess [evenPartition.answer, oddPartition.answer]) uniformConfig)
        ⟨.cycle #[], .cycle #[]⟩ = (.ok cluster, later) ∧
      cluster.cache.context? 3 = some [(2, 1)] ∧
      ∃ calls, AsksForHot [evenPartition, oddPartition] cluster.pageSize calls := by
  have truthful := (Transport.isHonest_inProcess isBuilt_mixed).toIsTruthful
  obtain ⟨cluster, later, connected⟩ := connects_mixed
  obtain ⟨-, faithful, calls, -, hot⟩ := cache_faithful isBuilt_mixed truthful connected
  have known : oddPartition.contextsPartial [3] = [[(2, 1)]] := by decide +kernel
  refine ⟨isBuilt_mixed, truthful, cluster, later, connected, ?_, calls, hot⟩
  exact (faithful.context 3 _).mpr ⟨⟨oddPartition, by simp, by decide +kernel⟩,
    List.cons_ne_nil _ _, oddPartition, rfl,
    fun stream => congrArg (fun found => Except.ok (Reply.contexts found)) known⟩

end Cluster

end ShardedGraph
