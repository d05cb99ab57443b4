import ShardedGraph.Proofs.Neighborhoods
import ShardedGraph.Proofs.Occurrences

/-!
# What a built graph holds

A graph is built unless an insertion names a node, as a key or as a neighbor, whose namespace has no
name. Every built graph represents its insertions (`Graph.build_represents`): its keys are the nodes
that were given a context, each context lists the neighbors that were inserted for its key, and the
lists by namespace are statistics of the contexts (`Graph.Represents`).

**Weights.** A context is sorted before equal neighbors are added up. The sort is stable, so the
weights of one neighbor stay in the order of insertion, and they are added from the first one on
(`mem_normalize`). The order matters, because weights are floating-point numbers.

**Statistics.** A node occurs once as a key and once for each key whose context names it
(`Graph.mentions`). All occurrences together are the keys and the entries of all contexts, since
every node that a graph holds belongs to a slot. The in-degree of a node is what 32 bits hold of the
number of these keys (`Graph.inDegree_of_build`), and so the number itself as long as they hold it.
-/

set_option autoImplicit false

namespace ShardedGraph

open Number

/-! ## Insertions of neighbors -/

namespace Insertion

/-- The neighbors that an insertion brings. -/
def neighbors? : Insertion → Option Context
  | context _ neighbors => some neighbors
  | _ => none

/-- The nodes that an insertion of a context names: the node and its neighbors. -/
def named : Insertion → List NodeId
  | context node neighbors => node :: neighbors.map Prod.fst
  | _ => []

end Insertion

/-- The contexts that insertions bring for a node, in order. -/
def broughtContexts (insertions : List Insertion) (node : NodeId) : List Context :=
  (insertions.filter fun insertion => insertion.node = node).filterMap Insertion.neighbors?

/-- The weights of a neighbor in a context, in order. -/
def weightsOf (context : Context) (neighbor : NodeId) : List Single :=
  (context.filter fun entry => entry.1 = neighbor).map Prod.snd

/-- Weights added up from the first one on; no weights have no sum. -/
def addedUp? : List Single → Option Single
  | [] => none
  | first :: rest => some (rest.foldl (· + ·) first)

theorem mem_broughtContexts {insertions : List Insertion} {node : NodeId} {neighbors : Context} :
    neighbors ∈ broughtContexts insertions node ↔ .context node neighbors ∈ insertions := by
  rw [broughtContexts, List.mem_filterMap]
  constructor
  · rintro ⟨insertion, member, brought⟩
    obtain ⟨among, about⟩ := List.mem_filter.mp member
    cases insertion with
    | context other found =>
        cases brought
        cases of_decide_eq_true about
        exact among
    | nodeFeature other feature => cases brought
    | neighborFeature other feature => cases brought
  · intro member
    exact ⟨_, List.mem_filter.mpr ⟨member, decide_eq_true rfl⟩, rfl⟩

/-- What insertions about one node say of its context are all neighbors that they bring. -/
theorem context_foldl_hear (insertions : List Insertion) :
    (insertions.foldl Said.hear Said.nothing).context =
      if insertions.filterMap Insertion.neighbors? = [] then none
      else some (insertions.filterMap Insertion.neighbors?).flatten := by
  induction insertions using List.reverseRecOn with
  | nil => rfl
  | append_singleton insertions last ih =>
      rw [List.foldl_append, List.filterMap_append]
      cases last with
      | context node neighbors =>
          simp only [List.foldl_cons, List.foldl_nil, Said.hear, ih]
          by_cases first : insertions.filterMap Insertion.neighbors? = []
          · simp [first, Insertion.neighbors?]
          · simp [first, Insertion.neighbors?]
      | nodeFeature node feature =>
          rw [show [Insertion.nodeFeature node feature].filterMap Insertion.neighbors? = [] from rfl,
            List.append_nil]
          exact ih
      | neighborFeature node feature =>
          rw [show [Insertion.neighborFeature node feature].filterMap Insertion.neighbors? = []
            from rfl, List.append_nil]
          exact ih

/-- A draft has a context for the nodes that were given one. -/
theorem Draft.context_ofInsertions (insertions : List Insertion) (node : NodeId) :
    (ofInsertions insertions).contexts[node]? =
      if broughtContexts insertions node = [] then none
      else some (broughtContexts insertions node).flatten := by
  have said : (ofInsertions insertions).contexts[node]? =
      ((ofInsertions insertions).saidOf node).context := rfl
  rw [said, saidOf_ofInsertions]
  exact context_foldl_hear _

/-! ## Built contexts -/

theorem weightsOf_cons (entry : NodeId × Single) (context : Context) (neighbor : NodeId) :
    weightsOf (entry :: context) neighbor =
      if entry.1 = neighbor then entry.2 :: weightsOf context neighbor
      else weightsOf context neighbor := by
  rw [weightsOf, List.filter_cons]
  by_cases same : entry.1 = neighbor
  · rw [if_pos (decide_eq_true same), if_pos same]
    rfl
  · rw [if_neg (by simpa using same), if_neg same]
    rfl

theorem weightsOf_eq_nil {context : Context} {neighbor : NodeId} :
    weightsOf context neighbor = [] ↔ neighbor ∉ context.map Prod.fst := by
  rw [weightsOf, List.map_eq_nil_iff, List.filter_eq_nil_iff, List.mem_map, not_exists]
  refine forall_congr' fun entry => ?_
  rw [decide_eq_true_eq, not_and]

theorem exists_addedUp {weights : List Single} :
    (∃ weight, addedUp? weights = some weight) ↔ weights ≠ [] := by
  cases weights <;> simp [addedUp?]

/-- Sorting leaves entries that are all tied with each other in their order. -/
theorem filter_mergeSort {α : Type} {le : α → α → Bool}
    (trans : ∀ x y z, le x y = true → le y z = true → le x z = true)
    (total : ∀ x y, (le x y || le y x) = true) (keep : α → Bool)
    (tied : ∀ x y, keep x = true → keep y = true → le x y = true) (list : List α) :
    (list.mergeSort le).filter keep = list.filter keep := by
  have kept : (list.filter keep).Sublist (list.mergeSort le) := by
    refine List.sublist_mergeSort trans total ?_ List.filter_sublist
    refine List.pairwise_of_forall_mem_list fun x member y member' => ?_
    exact tied x y (List.mem_filter.mp member).2 (List.mem_filter.mp member').2
  have all := kept.filter keep
  rw [List.filter_filter] at all
  simp only [Bool.and_self] at all
  exact (all.eq_of_length ((List.mergeSort_perm list le).filter keep).length_eq.symm).symm

/-- Sorting leaves the weights of a neighbor in their order. -/
theorem weightsOf_mergeSort (context : Context) (neighbor : NodeId) :
    weightsOf (context.mergeSort fun x y => decide (x.1 ≤ y.1)) neighbor =
      weightsOf context neighbor := by
  refine congrArg (List.map Prod.snd) (filter_mergeSort decide_le_trans decide_le_total _ ?_ context)
  intro x y here here'
  rw [of_decide_eq_true here, of_decide_eq_true here']
  exact decide_eq_true (UInt64.le_refl _)

/-- Adding equal neighbors of an ascending context up gives each the sum of its weights. -/
theorem mem_mergeEqual {context : Context} (ascending : Ascending context) {neighbor : NodeId}
    {weight : Single} :
    (neighbor, weight) ∈ mergeEqual context ↔
      addedUp? (weightsOf context neighbor) = some weight := by
  fun_induction mergeEqual context with
  | case1 => simp [weightsOf, addedUp?]
  | case2 entry =>
      rw [List.mem_singleton, weightsOf_cons, Prod.ext_iff]
      by_cases here : entry.1 = neighbor
      · simp [here, weightsOf, addedUp?, eq_comm]
      · simp [here, Ne.symm here, weightsOf, addedUp?]
  | case3 first second rest same ih =>
      rw [ih (ascending.merged same _)]
      simp only [weightsOf_cons, ← same]
      by_cases here : first.1 = neighbor
      · simp only [if_pos here]
        rfl
      · simp only [if_neg here]
  | case4 first second rest different ih =>
      rw [List.mem_cons, ih ascending.tail, weightsOf_cons first, Prod.ext_iff]
      by_cases here : first.1 = neighbor
      · have absent : weightsOf (second :: rest) neighbor = [] :=
          weightsOf_eq_nil.mpr (here ▸ ascending.not_mem different)
        simp [here, absent, addedUp?, eq_comm]
      · simp [here, Ne.symm here]

/-- A built context has an entry for every neighbor of a context, with its weights added up in
order. -/
theorem mem_normalize {context : Context} {neighbor : NodeId} {weight : Single} :
    (neighbor, weight) ∈ normalize context ↔
      addedUp? (weightsOf context neighbor) = some weight := by
  rw [← weightsOf_mergeSort]
  exact mem_mergeEqual (ascending_mergeSort context)

theorem mem_map_fst_normalize {context : Context} {neighbor : NodeId} :
    neighbor ∈ (normalize context).map Prod.fst ↔ neighbor ∈ context.map Prod.fst := by
  have entry : neighbor ∈ (normalize context).map Prod.fst ↔
      ∃ weight, (neighbor, weight) ∈ normalize context := by
    simp
  rw [entry, ← not_iff_not (b := neighbor ∈ context.map Prod.fst), ← weightsOf_eq_nil]
  simp only [mem_normalize, exists_addedUp, not_not]

/-- A built context is strictly ascending by neighbor. -/
theorem pairwise_lt_normalize (context : Context) :
    ((normalize context).map Prod.fst).Pairwise (· < ·) := by
  have ascending := List.pairwise_map.mpr (ascending_normalize context)
  exact (ascending.and (nodup_normalize context)).imp fun both =>
    UInt64.lt_of_le_of_ne both.1 both.2

/-- A namespace that has a name has a slot. -/
theorem NamespaceTable.toNat_lt_slots {table : NamespaceTable} {ns : NamespaceId}
    (configured : table.contains ns = true) : ns.toNat < table.slots := by
  have key : ns ∈ table.names.keys :=
    Std.ExtTreeMap.mem_keys.mpr (Std.ExtTreeMap.contains_iff_mem.mp configured)
  unfold slots
  split
  · next largest last =>
    obtain ⟨before, split⟩ := List.getLast?_eq_some_iff.mp last
    have ordered := @Std.ExtTreeMap.ordered_keys _ _ _ table.names _
    rw [split] at key ordered
    rcases List.mem_append.mp key with earlier | final
    · have less := (List.pairwise_append.mp ordered).2.2 ns earlier largest List.mem_cons_self
      exact Nat.lt_succ_of_lt (UInt16.lt_iff_toNat_lt.mp (Std.compare_eq_lt.mp less))
    · rw [List.mem_singleton.mp final]
      exact Nat.lt_succ_self _
  · next none =>
    rw [List.getLast?_eq_none_iff.mp none] at key
    exact absurd key List.not_mem_nil

namespace Graph

/-! ## Which insertions are refused -/

variable {namespaces : NamespaceTable} {insertions : List Insertion} {graph : Graph}

/-- The namespaces of a draft have names when those of every named node do. -/
theorem checkNamespaces_ofInsertions :
    checkNamespaces namespaces (Draft.ofInsertions insertions).contexts = .ok () ↔
      ∀ insertion ∈ insertions, ∀ node ∈ insertion.named,
        namespaces.contains (namespaceOf node) = true := by
  rw [checkNamespaces_eq_ok_iff]
  constructor
  · intro all insertion member node named
    cases insertion with
    | context key neighbors =>
        have brought := mem_broughtContexts.mpr member
        have there := Draft.context_ofInsertions insertions key
        rw [if_neg (List.ne_nil_of_mem brought)] at there
        obtain ⟨own, others⟩ := all key _ there
        rcases List.mem_cons.mp named with rfl | neighbor
        · exact own
        · obtain ⟨entry, here, rfl⟩ := List.mem_map.mp neighbor
          exact others entry (List.mem_flatten.mpr ⟨neighbors, brought, here⟩)
    | nodeFeature key feature => exact absurd named List.not_mem_nil
    | neighborFeature key feature => exact absurd named List.not_mem_nil
  · intro all node context there
    rw [Draft.context_ofInsertions] at there
    split at there
    · cases there
    · next some =>
      cases there
      obtain ⟨neighbors, brought⟩ := List.exists_mem_of_ne_nil _ some
      refine ⟨all _ (mem_broughtContexts.mp brought) node List.mem_cons_self, ?_⟩
      intro entry member
      obtain ⟨neighbors, brought, here⟩ := List.mem_flatten.mp member
      exact all _ (mem_broughtContexts.mp brought) entry.1
        (List.mem_cons_of_mem _ (List.mem_map_of_mem here))

/-- Nothing but the namespaces can keep a graph from being built. -/
theorem build_eq_error_iff_checkNamespaces :
    (∃ error, build namespaces insertions = .error error) ↔
      ¬checkNamespaces namespaces (Draft.ofInsertions insertions).contexts = .ok () := by
  unfold build ofDraft
  cases checkNamespaces namespaces (Draft.ofInsertions insertions).contexts with
  | ok done => exact iff_of_false (fun failed => nomatch failed) (fun refused => refused rfl)
  | error error => exact iff_of_true ⟨error, rfl⟩ (fun done => nomatch done)

/-- A graph is not built exactly when some named node has a namespace without a name. -/
theorem build_eq_error_iff :
    (∃ error, build namespaces insertions = .error error) ↔
      ∃ insertion ∈ insertions, ∃ node ∈ insertion.named,
        namespaces.contains (namespaceOf node) = false := by
  rw [build_eq_error_iff_checkNamespaces, checkNamespaces_ofInsertions]
  simp

/-! ## Statistics -/

/-- The neighbors that a graph has for a node; a node without a context has none. -/
def neighbors (graph : Graph) (node : NodeId) : List NodeId :=
  ((graph.context? node).getD []).map Prod.fst

/-- How many keys have a node as a neighbor. -/
def namers (graph : Graph) (node : NodeId) : Nat :=
  graph.keys.countP fun key => decide (node ∈ graph.neighbors key)

/-- How often a node is mentioned: as a key, and in the contexts of keys. -/
def mentions (graph : Graph) (node : NodeId) : Nat :=
  (if node ∈ graph.keys then 1 else 0) + graph.namers node

/-- The lists of a slot: the nodes of its namespace that are mentioned, strictly ascending, the
numbers of their mentions as 32-bit numbers, and the sum of these numbers. The sum, added up from
the first number on in 64-bit numbers, is exact while it is at most 2 to the power of 53. -/
structure IsSlot (graph : Graph) (slot : Nat) (nodes : List NodeId) (frequencies : List Single)
    (total : Double) : Prop where
  ascending : nodes.Pairwise (· < ·)
  mem : ∀ node, node ∈ nodes ↔ (namespaceOf node).toNat = slot ∧
    (node ∈ graph.keys ∨ ∃ key ∈ graph.keys, node ∈ graph.neighbors key)
  frequencies : frequencies = (nodes.map graph.mentions).map Binary.ofNat
  total : (nodes.map graph.mentions).sum ≤ 2 ^ 53 →
    total = ((nodes.map graph.mentions).map Binary.ofNat).foldl (· + ·) (.zero true) ∧
      total.isFinite = true ∧ total.signedUnits =
        (((nodes.map graph.mentions).sum * 2 ^ Format.double.unitExponent : Nat) : Int)

/-- What a graph holds that represents insertions. -/
structure Represents (graph : Graph) (namespaces : NamespaceTable) (insertions : List Insertion) :
    Prop where
  keys_ascending : graph.keys.Pairwise (· < ·)
  mem_keys : ∀ node, node ∈ graph.keys ↔ ∃ neighbors, .context node neighbors ∈ insertions
  isSome_context : ∀ node, (graph.context? node).isSome ↔ node ∈ graph.keys
  neighbors_ascending : ∀ node, (graph.neighbors node).Pairwise (· < ·)
  mem_context : ∀ node context, graph.context? node = some context → ∀ neighbor weight,
    (neighbor, weight) ∈ context ↔
      addedUp? (weightsOf (broughtContexts insertions node).flatten neighbor) = some weight
  inDegree : ∀ node, graph.namers node < UInt32.size → graph.inDegree node = graph.namers node
  slots : graph.slots = namespaces.slots
  slot : ∀ slot < graph.slots, ∃ nodes frequencies total, graph.nodes[slot]? = some nodes ∧
    graph.frequencies[slot]? = some frequencies ∧ graph.totals[slot]? = some total ∧
      graph.IsSlot slot nodes frequencies total
  mentions : (graph.nodes.map fun nodes => (nodes.map graph.mentions).sum).sum =
    graph.keys.length + (graph.keys.map graph.outDegree).sum
  totals : graph.keys.length + (graph.keys.map graph.outDegree).sum ≤ 2 ^ 53 →
    graph.totals.foldl (· + ·) (.zero true) =
      totalOf (graph.keys.length + (graph.keys.map graph.outDegree).sum)

theorem pairwise_lt_toList {α : Type} (map : NodeMap α) :
    (map.toList.map Prod.fst).Pairwise (· < ·) :=
  List.pairwise_map.mpr (Std.ExtTreeMap.ordered_keys_toList.imp Std.compare_eq_lt.mp)

theorem keys_eq_map_toList (graph : Graph) : graph.keys = graph.contexts.toList.map Prod.fst :=
  Std.ExtTreeMap.map_fst_toList_eq_keys.symm

theorem mem_keys_iff {node : NodeId} :
    node ∈ graph.keys ↔ ∃ context, graph.context? node = some context := by
  rw [keys, Std.ExtTreeMap.mem_keys, Std.ExtTreeMap.mem_iff_isSome_getElem?,
    Option.isSome_iff_exists]
  rfl

theorem neighbors_of_mem {entry : NodeId × Context} (member : entry ∈ graph.contexts.toList) :
    graph.neighbors entry.1 = entry.2.map Prod.fst := by
  have there : graph.context? entry.1 = some entry.2 :=
    Std.ExtTreeMap.mem_toList_iff_getElem?_eq_some.mp member
  rw [neighbors, there]
  rfl

theorem outDegree_eq_length (graph : Graph) (node : NodeId) :
    graph.outDegree node = (graph.neighbors node).length := by
  rw [outDegree, neighbors, List.length_map]
  cases graph.context? node with
  | none => rfl
  | some context => rfl

/-- What is named in the contexts of a graph are its keys and their neighbors. -/
theorem mem_named_iff {node : NodeId} :
    node ∈ named graph.contexts ↔
      node ∈ graph.keys ∨ ∃ key ∈ graph.keys, node ∈ graph.neighbors key := by
  rw [named, keys_eq_map_toList]
  simp only [List.mem_flatMap, List.mem_cons, List.mem_map]
  constructor
  · rintro ⟨entry, member, rfl | neighbor⟩
    · exact .inl ⟨entry, member, rfl⟩
    · refine .inr ⟨entry.1, ⟨entry, member, rfl⟩, ?_⟩
      rw [neighbors_of_mem member]
      exact List.mem_map.mpr neighbor
  · rintro (⟨entry, member, rfl⟩ | ⟨_, ⟨entry, member, rfl⟩, neighbor⟩)
    · exact ⟨entry, member, .inl rfl⟩
    · rw [neighbors_of_mem member] at neighbor
      exact ⟨entry, member, .inr (List.mem_map.mp neighbor)⟩

/-- What is named are as many nodes as there are keys and neighbors of keys. -/
theorem length_named (graph : Graph) :
    (named graph.contexts).length = graph.keys.length + (graph.keys.map graph.outDegree).sum := by
  have degrees : graph.contexts.toList.map (List.length ∘ fun entry => entry.2.map Prod.fst) =
      graph.contexts.toList.map (graph.outDegree ∘ Prod.fst) := by
    refine List.map_congr_left fun entry member => ?_
    rw [Function.comp_apply, Function.comp_apply, outDegree_eq_length, neighbors_of_mem member]
  rw [← (perm_named graph.contexts).length_eq, List.length_append, Nat.add_comm,
    values_eq_map_toList, List.flatMap_map, List.length_flatMap]
  rw [keys_eq_map_toList, List.map_map, ← degrees, ← Std.ExtTreeMap.map_fst_toList_eq_keys]
  rfl

/-- Every node with an owner is counted at one of the owners. -/
theorem sum_countP_owner {items : List NodeId} {owner : NodeId → Nat} {bound : Nat}
    (owned : ∀ item ∈ items, owner item < bound) :
    ((List.range bound).map fun place => items.countP fun item => owner item == place).sum =
      items.length := by
  have sums := sum_countP_filter owner (fun item => [item]) (fun _ => true) owned
  simpa only [List.flatMap_singleton', List.countP_true, ← List.countP_eq_length_filter] using sums

section Built

variable (run : build namespaces insertions = .ok graph)
include run

/-- The context of a node of a built graph holds all neighbors that were brought for it. -/
theorem context?_of_build (node : NodeId) :
    graph.context? node = if broughtContexts insertions node = [] then none
      else some (normalize (broughtContexts insertions node).flatten) := by
  have said : ((Draft.ofInsertions insertions).saidOf node).context = _ :=
    Draft.context_ofInsertions insertions node
  rw [(answers_of_build run node).1, said]
  split
  · rfl
  · rfl

theorem mem_keys_of_build {node : NodeId} :
    node ∈ graph.keys ↔ ∃ neighbors, .context node neighbors ∈ insertions := by
  simp only [mem_keys_iff, context?_of_build run, ← mem_broughtContexts]
  by_cases brought : broughtContexts insertions node = []
  · simp [brought]
  · simpa [brought] using List.exists_mem_of_ne_nil _ brought

/-- Neighbors of a node are those that were inserted for it. -/
theorem named_of_mem_neighbors {key node : NodeId} (member : node ∈ graph.neighbors key) :
    ∃ insertion ∈ insertions, node ∈ insertion.named := by
  rw [neighbors, context?_of_build run] at member
  split at member
  · exact absurd member List.not_mem_nil
  · rw [Option.getD_some, mem_map_fst_normalize] at member
    obtain ⟨entry, among, rfl⟩ := List.mem_map.mp member
    obtain ⟨neighbors, brought, here⟩ := List.mem_flatten.mp among
    exact ⟨_, mem_broughtContexts.mp brought, List.mem_cons_of_mem _ (List.mem_map_of_mem here)⟩

/-- Every node that is named in the contexts of a built graph has a slot. -/
theorem toNat_lt_slots_of_mem_named {node : NodeId} (member : node ∈ named graph.contexts) :
    (namespaceOf node).toNat < namespaces.slots := by
  have configured := checkNamespaces_ofInsertions.mp (checkNamespaces_of_build run)
  apply NamespaceTable.toNat_lt_slots
  rcases mem_named_iff.mp member with key | ⟨key, -, neighbor⟩
  · obtain ⟨neighbors, among⟩ := (mem_keys_of_build run).mp key
    exact configured _ among node List.mem_cons_self
  · obtain ⟨insertion, among, named⟩ := named_of_mem_neighbors run neighbor
    exact configured insertion among node named

theorem neighbors_ascending_of_build (node : NodeId) :
    (graph.neighbors node).Pairwise (· < ·) := by
  rw [neighbors, context?_of_build run]
  split
  · exact List.Pairwise.nil
  · exact pairwise_lt_normalize _

/-- The contexts name a node once for each key that has it as a neighbor. -/
theorem count_neighbors_of_build (node : NodeId) :
    (graph.contexts.values.flatMap fun context => context.map Prod.fst).count node =
      graph.namers node := by
  have once : graph.contexts.toList.map (List.count node ∘ fun entry => entry.2.map Prod.fst) =
      graph.contexts.toList.map fun entry => if node ∈ graph.neighbors entry.1 then 1 else 0 := by
    refine List.map_congr_left fun entry member => ?_
    have distinct := (neighbors_ascending_of_build run entry.1).imp UInt64.ne_of_lt
    rw [neighbors_of_mem member] at distinct ⊢
    exact List.Nodup.count distinct
  rw [values_eq_map_toList, List.flatMap_map, List.count_flatMap]
  rw [show (fun entry : NodeId × Context => entry.2.map Prod.fst) = _ from rfl] at once
  rw [once, namers, keys_eq_map_toList, List.countP_map, List.countP_eq_length_filter,
    List.sum_map_ite]
  simp [Function.comp_def]

/-- The in-degree of a node is what 32 bits hold of the number of keys that have it as a neighbor. -/
theorem inDegree_of_build (node : NodeId) :
    graph.inDegree node = graph.namers node % UInt32.size := by
  rw [inDegree, references_eq_of_build run, countReferences, ← List.foldl_flatMap,
    getElem?_foldl_countOne, count_neighbors_of_build run]
  split
  · next never =>
    rw [never]
    rfl
  · simpa using toNat_iterate_add_one (graph.namers node)

/-- A node is named as often as it is mentioned. -/
theorem count_named_of_build (node : NodeId) :
    (named graph.contexts).count node = graph.mentions node := by
  have distinct : graph.contexts.keys.Nodup := Std.ExtTreeMap.nodup_keys
  rw [← (perm_named graph.contexts).count_eq, List.count_append, count_neighbors_of_build run,
    distinct.count, Nat.add_comm]
  rfl

/-- The pool of a slot has the nodes of its namespace that are mentioned, with their numbers of
mentions. -/
theorem exists_pool_of_build {slot : Nat} (inside : slot < namespaces.slots) :
    ∃ pool, graph.pools[slot]? = some pool ∧ (pool.map Prod.fst).Pairwise (· < ·) ∧
      ∀ node count, (node, count) ∈ pool ↔
        (namespaceOf node).toNat = slot ∧ count = graph.mentions node ∧ count ≠ 0 := by
  refine ⟨(countOccurrences graph.contexts).toList.filter fun entry =>
    (namespaceOf entry.1).toNat == slot, ?_, ?_, ?_⟩
  · rw [pools_eq_of_build run, poolsOf, List.getElem?_map, List.getElem?_range inside]
    rfl
  · exact (pairwise_lt_toList _).sublist (List.filter_sublist.map _)
  · intro node count
    rw [List.mem_filter, Std.ExtTreeMap.mem_toList_iff_getElem?_eq_some, getElem?_countOccurrences,
      count_named_of_build run, beq_iff_eq, and_comm]
    refine and_congr_right fun _ => ?_
    split
    · next never => simp [never]
    · next some =>
      rw [Option.some.injEq, eq_comm]
      exact ⟨fun same => ⟨same, same ▸ some⟩, And.left⟩

/-- The numbers of a pool are the mentions of its nodes. -/
theorem map_mentions_of_mem_pools {pool : List (NodeId × Nat)} (member : pool ∈ graph.pools) :
    (pool.map Prod.fst).map graph.mentions = pool.map Prod.snd := by
  rw [pools_eq_of_build run] at member
  obtain ⟨slot, -, rfl⟩ := List.mem_map.mp member
  rw [List.map_map]
  refine List.map_congr_left fun entry among => ?_
  rw [Function.comp_apply, ← count_named_of_build run]
  exact (counted_of_mem (List.mem_filter.mp among).1).2.symm

theorem poolTotal_of_mem_pools {pool : List (NodeId × Nat)} (member : pool ∈ graph.pools) :
    poolTotal pool = totalOf (pool.map Prod.snd).sum := by
  obtain ⟨slot, there⟩ := List.getElem?_of_mem member
  have shown := totals_of_build run slot
  rw [totals, occurrencesIn, List.getD_eq_getElem?_getD, List.getElem?_map,
    List.getD_eq_getElem?_getD, there] at shown
  exact shown

/-- All numbers of all pools together are the keys and the entries of their contexts. -/
theorem sum_pools_of_build :
    (graph.pools.map fun pool => (pool.map Prod.snd).sum).sum =
      graph.keys.length + (graph.keys.map graph.outDegree).sum := by
  rw [← length_named, ← sum_countP_owner fun node => toNat_lt_slots_of_mem_named run,
    pools_eq_of_build run, poolsOf, List.map_map]
  refine congrArg List.sum (List.map_congr_left fun slot _ => ?_)
  exact sum_filter_countOccurrences graph.contexts fun node => (namespaceOf node).toNat == slot

/-- The lists of a slot are statistics of its nodes. -/
theorem isSlot_of_build {slot : Nat} (inside : slot < graph.slots) :
    ∃ nodes frequencies total, graph.nodes[slot]? = some nodes ∧
      graph.frequencies[slot]? = some frequencies ∧ graph.totals[slot]? = some total ∧
        graph.IsSlot slot nodes frequencies total := by
  obtain ⟨pool, there, ascending, spec⟩ := exists_pool_of_build run (slots_eq_of_build run ▸ inside)
  have member := List.mem_of_getElem? there
  have counts := map_mentions_of_mem_pools run member
  refine ⟨pool.map Prod.fst, pool.map fun entry => .ofNat entry.2, poolTotal pool, ?_, ?_, ?_, ?_⟩
  · rw [nodes, List.getElem?_map, there]
    rfl
  · rw [frequencies, List.getElem?_map, there]
    rfl
  · rw [totals, List.getElem?_map, there]
    rfl
  constructor
  case ascending => exact ascending
  case mem =>
    intro node
    rw [← mem_named_iff, ← @List.count_pos_iff _ _ _ node (named graph.contexts),
      count_named_of_build run, Nat.pos_iff_ne_zero]
    simp [spec]
  case frequencies =>
    rw [counts, List.map_map]
    rfl
  case total =>
    rw [counts, poolTotal_of_mem_pools run member]
    intro small
    refine ⟨?_, units_totalOf small⟩
    rw [← foldl_totalOf small]
    refine congrArg (List.foldl (· + ·) _) (List.map_congr_left fun count among => ?_)
    obtain ⟨entry, here, rfl⟩ := List.mem_map.mp among
    exact if_neg ((spec entry.1 entry.2).mp here).2.2

end Built

/-- **What a built graph holds.** Insertions are refused exactly when they give a context to a node,
or a neighbor to a node, whose namespace has no name. A graph that is built from insertions
represents them. In-degrees are counted in 32 bits: that of a node is the number of keys that name
it as long as there are fewer of them than 32 bits can tell apart. -/
theorem build_represents (namespaces : NamespaceTable) (insertions : List Insertion) :
    ((∃ error, build namespaces insertions = .error error) ↔
      ∃ insertion ∈ insertions, ∃ node ∈ insertion.named,
        namespaces.contains (namespaceOf node) = false) ∧
    ∀ graph, build namespaces insertions = .ok graph →
      graph.Represents namespaces insertions := by
  refine ⟨build_eq_error_iff, fun graph run => ?_⟩
  constructor
  case keys_ascending =>
    rw [keys_eq_map_toList]
    exact pairwise_lt_toList _
  case mem_keys => exact fun node => mem_keys_of_build run
  case isSome_context => exact fun node => Option.isSome_iff_exists.trans mem_keys_iff.symm
  case neighbors_ascending => exact neighbors_ascending_of_build run
  case mem_context =>
    intro node context there neighbor weight
    rw [context?_of_build run] at there
    split at there
    · cases there
    · cases there
      exact mem_normalize
  case inDegree => exact fun node few => (inDegree_of_build run node).trans (Nat.mod_eq_of_lt few)
  case slots => exact slots_eq_of_build run
  case slot => exact fun slot inside => isSlot_of_build run inside
  case mentions =>
    rw [← sum_pools_of_build run, nodes, List.map_map]
    refine congrArg List.sum (List.map_congr_left fun pool member => ?_)
    exact congrArg List.sum (map_mentions_of_mem_pools run member)
  case totals =>
    rw [← sum_pools_of_build run]
    intro small
    rw [← foldl_totalOf small, totals, List.map_map]
    refine congrArg (List.foldl (· + ·) _) (List.map_congr_left fun pool member => ?_)
    exact poolTotal_of_mem_pools run member

/-- Two contexts for one node, which name a neighbor twice, and an empty one for another node. -/
def repeatedInsertions : List Insertion :=
  [.context 5 [(7, .ofNat 1), (6, .ofNat 2)], .context 6 [], .context 5 [(7, .ofNat 4)]]

/-- The graph of these insertions. -/
def repeatedGraph : Graph :=
  ((build .single repeatedInsertions).toOption).get (by decide)

/-- The weights of a neighbor that is inserted twice are added up, and one key names it. A neighbor
whose namespace has no name is refused. -/
theorem build_represents_repeated :
    (build .single repeatedInsertions = .ok repeatedGraph ∧
      repeatedGraph.Represents .single repeatedInsertions ∧
      (∃ context, repeatedGraph.context? 5 = some context ∧ (7, .ofNat 5) ∈ context) ∧
      repeatedGraph.namers 7 = 1 ∧ repeatedGraph.inDegree 7 = 1) ∧
    ∃ error, build .single [.context 5 [(4503599627370496, .ofNat 1)]] = .error error := by
  have run : build .single repeatedInsertions = .ok repeatedGraph :=
    except_toOption_eq_some.mp (Option.some_get _).symm
  have represents := (build_represents .single repeatedInsertions).2 repeatedGraph run
  have key : (5 : NodeId) ∈ repeatedGraph.keys :=
    (represents.mem_keys 5).mpr ⟨_, List.mem_cons_self⟩
  obtain ⟨context, there⟩ := Option.isSome_iff_exists.mp ((represents.isSome_context 5).mpr key)
  have heavy : (7, .ofNat 5) ∈ context :=
    (represents.mem_context 5 context there 7 (.ofNat 5)).mpr (by decide)
  have one : repeatedGraph.namers 7 = 1 := by
    have keys : repeatedGraph.keys = [5, 6] := by decide +kernel
    have none : repeatedGraph.neighbors 6 = [] := by decide +kernel
    have some : 7 ∈ repeatedGraph.neighbors 5 := by
      rw [neighbors, there]
      exact List.mem_map_of_mem heavy
    simp [namers, keys, none, some]
  refine ⟨⟨run, represents, ⟨context, there, heavy⟩, one, ?_⟩, ?_⟩
  · exact (represents.inDegree 7 (by rw [one]; decide)).trans one
  · refine (build_represents .single _).1.mpr ⟨_, List.mem_cons_self, 4503599627370496, ?_, ?_⟩
    · exact List.mem_cons_of_mem _ List.mem_cons_self
    · decide

end Graph

end ShardedGraph
