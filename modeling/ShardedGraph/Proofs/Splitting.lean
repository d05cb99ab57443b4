import ShardedGraph.Graph.Load
import ShardedGraph.Proofs.Running

/-!
# Splitting a graph among shards

What a draft says of a node depends on the insertions about this node alone, taken in their
order (`Draft.saidOf_ofInsertions`). A shard keeps exactly the insertions about the nodes that
it owns. So its graph says of an owned node what the whole graph says of it, and of any other
node nothing (`Graph.isPart_of_build`).

When every shard can build its graph, the whole graph can be built as well
(`Graph.exists_build`): each context of it stands in the graph of a shard, where its
namespaces were found to have names. No list of a built graph is longer than all the entries
that were inserted (`Graph.fits_of_build`).
-/

set_option autoImplicit false

namespace ShardedGraph

/-! ## What is said of a node -/

/-- What is said of a node. -/
structure Said where
  context : Option Context
  nodeFeature : Option Feature
  neighborFeature : Option Feature

namespace Said

/-- Nothing said. -/
def nothing : Said := ⟨none, none, none⟩

/-- Takes an insertion about the node. -/
def hear (said : Said) : Insertion → Said
  | .context _ neighbors => { said with context := some (said.context.getD [] ++ neighbors) }
  | .nodeFeature _ feature => { said with nodeFeature := some feature }
  | .neighborFeature _ feature => { said with neighborFeature := some feature }

/-- No list that is said of the node is longer than a bound. -/
structure AtMost (bound : Nat) (said : Said) : Prop where
  context : ∀ context, said.context = some context → context.length ≤ bound
  nodeFeature : ∀ feature, said.nodeFeature = some feature → feature.length ≤ bound
  neighborFeature : ∀ feature, said.neighborFeature = some feature → feature.length ≤ bound

end Said

/-- The entries of an insertion. -/
def Insertion.entries : Insertion → List (UInt64 × Number.Single)
  | context _ entries | nodeFeature _ entries | neighborFeature _ entries => entries

namespace Said

theorem atMost_nothing : nothing.AtMost 0 where
  context _ there := nomatch there
  nodeFeature _ there := nomatch there
  neighborFeature _ there := nomatch there

theorem AtMost.mono {said : Said} {bound larger : Nat} (most : said.AtMost bound)
    (le : bound ≤ larger) : said.AtMost larger where
  context context there := Nat.le_trans (most.context context there) le
  nodeFeature feature there := Nat.le_trans (most.nodeFeature feature there) le
  neighborFeature feature there := Nat.le_trans (most.neighborFeature feature there) le

theorem AtMost.hear {said : Said} {bound : Nat} (most : said.AtMost bound)
    (insertion : Insertion) : (said.hear insertion).AtMost (bound + insertion.entries.length) := by
  have kept := most.mono (Nat.le_add_right bound insertion.entries.length)
  cases insertion with
  | context node neighbors =>
      refine ⟨fun context there => ?_, kept.nodeFeature, kept.neighborFeature⟩
      cases there
      rw [List.length_append]
      refine Nat.add_le_add_right ?_ _
      cases before : said.context with
      | none => exact Nat.zero_le _
      | some context => exact most.context context before
  | nodeFeature node feature =>
      refine ⟨kept.context, fun found there => ?_, kept.neighborFeature⟩
      cases there
      exact Nat.le_add_left _ _
  | neighborFeature node feature =>
      refine ⟨kept.context, kept.nodeFeature, fun found there => ?_⟩
      cases there
      exact Nat.le_add_left _ _

end Said

namespace Draft

/-- What a draft says of a node. -/
def saidOf (draft : Draft) (node : NodeId) : Said :=
  ⟨draft.contexts[node]?, draft.nodeFeatures[node]?, draft.neighborFeatures[node]?⟩

/-- An insertion changes what is said of its node, and of no other one. -/
theorem saidOf_insert (draft : Draft) (insertion : Insertion) (node : NodeId) :
    (draft.insert insertion).saidOf node =
      if insertion.node = node then (draft.saidOf node).hear insertion else draft.saidOf node := by
  by_cases same : insertion.node = node
  · subst same
    rw [if_pos rfl]
    cases insertion with
    | context node neighbors =>
        simp [saidOf, insert, Said.hear, Insertion.node]
    | nodeFeature node feature => simp [saidOf, insert, Said.hear, Insertion.node]
    | neighborFeature node feature => simp [saidOf, insert, Said.hear, Insertion.node]
  · rw [if_neg same]
    cases insertion with
    | context other neighbors =>
        have different : ¬compare other node = .eq := fun equal =>
          same (Std.LawfulEqOrd.eq_of_compare equal)
        simp only [saidOf, insert, Std.ExtTreeMap.getElem?_alter, if_neg different]
    | nodeFeature other feature =>
        have different : ¬compare other node = .eq := fun equal =>
          same (Std.LawfulEqOrd.eq_of_compare equal)
        simp only [saidOf, insert, Std.ExtTreeMap.getElem?_insert, if_neg different]
    | neighborFeature other feature =>
        have different : ¬compare other node = .eq := fun equal =>
          same (Std.LawfulEqOrd.eq_of_compare equal)
        simp only [saidOf, insert, Std.ExtTreeMap.getElem?_insert, if_neg different]

theorem saidOf_foldl (insertions : List Insertion) (draft : Draft) (node : NodeId) :
    (insertions.foldl insert draft).saidOf node =
      (insertions.filter fun insertion => insertion.node = node).foldl Said.hear
        (draft.saidOf node) := by
  induction insertions generalizing draft with
  | nil => rfl
  | cons insertion insertions ih =>
      rw [List.foldl_cons, ih, saidOf_insert, List.filter_cons]
      by_cases same : insertion.node = node
      · rw [if_pos same, if_pos (decide_eq_true same), List.foldl_cons]
      · rw [if_neg same, if_neg (by simpa using same)]

/-- What is said of a node depends on the insertions about it alone. -/
theorem saidOf_ofInsertions (insertions : List Insertion) (node : NodeId) :
    (ofInsertions insertions).saidOf node =
      (insertions.filter fun insertion => insertion.node = node).foldl Said.hear Said.nothing :=
  saidOf_foldl insertions empty node

/-- The insertions of a shard say of an owned node what all insertions do, and of any other
node nothing. -/
theorem saidOf_ownedInsertions (shards shard : Nat) (insertions : List Insertion) (node : NodeId) :
    (ofInsertions (Graph.ownedInsertions shards shard insertions)).saidOf node =
      if ownerOf shards node = shard then (ofInsertions insertions).saidOf node
      else Said.nothing := by
  rw [saidOf_ofInsertions, saidOf_ofInsertions, Graph.ownedInsertions, List.filter_filter]
  by_cases owned : ownerOf shards node = shard
  · rw [if_pos owned]
    refine congrArg (List.foldl Said.hear Said.nothing) (List.filter_congr fun insertion _ => ?_)
    by_cases same : insertion.node = node
    · simp [same, owned]
    · simp [same]
  · rw [if_neg owned]
    have none : (insertions.filter fun insertion =>
        decide (insertion.node = node) && ownerOf shards insertion.node == shard) = [] := by
      refine List.filter_eq_nil_iff.mpr fun insertion _ both => owned ?_
      obtain ⟨same, mine⟩ := Bool.and_eq_true_iff.mp both
      rw [← of_decide_eq_true same]
      exact eq_of_beq mine
    rw [none]
    rfl

/-- Nothing that is said of a node is longer than all entries together. -/
theorem atMost_ofInsertions (insertions : List Insertion) (node : NodeId) :
    ((ofInsertions insertions).saidOf node).AtMost
      (insertions.flatMap Insertion.entries).length := by
  have fold : ∀ (insertions : List Insertion) (draft : Draft) bound,
      (draft.saidOf node).AtMost bound → ((insertions.foldl insert draft).saidOf node).AtMost
        (bound + (insertions.flatMap Insertion.entries).length) := by
    intro insertions
    induction insertions with
    | nil => exact fun draft bound most => most
    | cons insertion insertions ih =>
        intro draft bound most
        rw [List.foldl_cons, List.flatMap_cons, List.length_append, ← Nat.add_assoc]
        refine ih _ _ ?_
        rw [saidOf_insert]
        split
        · exact most.hear insertion
        · exact most.mono (Nat.le_add_right _ _)
  rw [← Nat.zero_add (insertions.flatMap Insertion.entries).length]
  exact fold insertions empty 0 Said.atMost_nothing

end Draft

/-! ## Built contexts -/

theorem length_mergeEqual_le (context : Context) : (mergeEqual context).length ≤ context.length := by
  fun_induction mergeEqual context with
  | case1 => exact Nat.le_refl _
  | case2 entry => exact Nat.le_refl _
  | case3 first second rest same ih =>
      exact Nat.le_trans ih (Nat.le_succ _)
  | case4 first second rest different ih => exact Nat.succ_le_succ ih

theorem length_normalize_le (context : Context) : (normalize context).length ≤ context.length := by
  refine Nat.le_trans (length_mergeEqual_le _) ?_
  exact Nat.le_of_eq (List.length_mergeSort context)

/-! ## Built graphs -/

namespace Graph

/-- Every list of a graph can be sent: its length fits in 64 bits. -/
structure Fits (graph : Graph) : Prop where
  context : ∀ node context, graph.context? node = some context → context.length < UInt64.size
  nodeFeature : ∀ node feature, graph.nodeFeature? node = some feature →
    feature.length < UInt64.size
  neighborFeature : ∀ node feature, graph.neighborFeature? node = some feature →
    feature.length < UInt64.size

/-- A graph says of the nodes that a shard owns what the whole graph does, and of the other
nodes nothing. -/
structure IsPart (shards shard : Nat) (whole part : Graph) : Prop where
  context : ∀ node, part.context? node =
    if ownerOf shards node = shard then whole.context? node else none
  nodeFeature : ∀ node, part.nodeFeature? node =
    if ownerOf shards node = shard then whole.nodeFeature? node else none
  neighborFeature : ∀ node, part.neighborFeature? node =
    if ownerOf shards node = shard then whole.neighborFeature? node else none

/-- The search for a namespace without a name succeeds nowhere exactly when there is none. -/
theorem checkNamespaces_eq_ok_iff_named {namespaces : NamespaceTable}
    {contexts : NodeMap Context} :
    checkNamespaces namespaces contexts = .ok () ↔
      ∀ found ∈ contexts.toList.flatMap fun entry => entry.1 :: entry.2.map Prod.fst,
        namespaces.contains (namespaceOf found) = true := by
  unfold checkNamespaces
  dsimp only
  split
  · next found there =>
    refine iff_of_false (fun equal => by cases equal) fun all => ?_
    have bad := List.find?_some there
    rw [all found (List.mem_of_find?_eq_some there)] at bad
    cases bad
  · next nowhere =>
    refine ⟨fun _ found member => ?_, fun _ => rfl⟩
    simpa using List.find?_eq_none.mp nowhere found member

/-- All namespaces have names exactly when those of every context do. -/
theorem checkNamespaces_eq_ok_iff {namespaces : NamespaceTable} {contexts : NodeMap Context} :
    checkNamespaces namespaces contexts = .ok () ↔
      ∀ node context, contexts[node]? = some context →
        namespaces.contains (namespaceOf node) = true ∧
          ∀ entry ∈ context, namespaces.contains (namespaceOf entry.1) = true := by
  rw [checkNamespaces_eq_ok_iff_named]
  constructor
  · intro all node context there
    have among := Std.ExtTreeMap.mem_toList_iff_getElem?_eq_some.mpr there
    refine ⟨all node (List.mem_flatMap.mpr ⟨_, among, List.mem_cons_self⟩), fun entry member => ?_⟩
    exact all entry.1 (List.mem_flatMap.mpr
      ⟨_, among, List.mem_cons_of_mem _ (List.mem_map_of_mem member)⟩)
  · intro all found member
    obtain ⟨⟨node, context⟩, among, member⟩ := List.mem_flatMap.mp member
    obtain ⟨ofNode, ofEntries⟩ := all node context
      (Std.ExtTreeMap.mem_toList_iff_getElem?_eq_some.mp among)
    rcases List.mem_cons.mp member with rfl | member
    · exact ofNode
    · obtain ⟨entry, here, rfl⟩ := List.mem_map.mp member
      exact ofEntries entry here

section Build

variable {namespaces : NamespaceTable} {insertions : List Insertion} {graph : Graph}

/-- A built graph says of a node what its draft does, with the context in order. -/
theorem answers_of_build (run : build namespaces insertions = .ok graph) (node : NodeId) :
    graph.context? node = ((Draft.ofInsertions insertions).saidOf node).context.map normalize ∧
      graph.nodeFeature? node = ((Draft.ofInsertions insertions).saidOf node).nodeFeature ∧
      graph.neighborFeature? node =
        ((Draft.ofInsertions insertions).saidOf node).neighborFeature := by
  obtain ⟨_, _, built⟩ := except_bind_eq_ok.mp run
  cases built
  exact ⟨Std.ExtTreeMap.getElem?_map, rfl, rfl⟩

theorem checkNamespaces_of_build (run : build namespaces insertions = .ok graph) :
    checkNamespaces namespaces (Draft.ofInsertions insertions).contexts = .ok () := by
  obtain ⟨⟨⟩, checked, _⟩ := except_bind_eq_ok.mp run
  exact checked

theorem fits_of_build (run : build namespaces insertions = .ok graph)
    (small : (insertions.flatMap Insertion.entries).length < UInt64.size) : graph.Fits where
  context node context there := by
    rw [(answers_of_build run node).1, Option.map_eq_some_iff] at there
    obtain ⟨said, here, rfl⟩ := there
    exact Nat.lt_of_le_of_lt (Nat.le_trans (length_normalize_le said)
      ((Draft.atMost_ofInsertions insertions node).context said here)) small
  nodeFeature node feature there := by
    rw [(answers_of_build run node).2.1] at there
    exact Nat.lt_of_le_of_lt
      ((Draft.atMost_ofInsertions insertions node).nodeFeature feature there) small
  neighborFeature node feature there := by
    rw [(answers_of_build run node).2.2] at there
    exact Nat.lt_of_le_of_lt
      ((Draft.atMost_ofInsertions insertions node).neighborFeature feature there) small

/-- The graph of a shard is the part of the whole graph about its nodes. -/
theorem isPart_of_build {shards shard : Nat} {part : Graph}
    (whole : build namespaces insertions = .ok graph)
    (run : build namespaces (ownedInsertions shards shard insertions) = .ok part) :
    IsPart shards shard graph part := by
  have both : ∀ node, part.context? node =
        (if ownerOf shards node = shard then graph.context? node else none) ∧
      part.nodeFeature? node =
        (if ownerOf shards node = shard then graph.nodeFeature? node else none) ∧
      part.neighborFeature? node =
        (if ownerOf shards node = shard then graph.neighborFeature? node else none) := by
    intro node
    obtain ⟨context, nodeFeature, neighborFeature⟩ := answers_of_build run node
    obtain ⟨context', nodeFeature', neighborFeature'⟩ := answers_of_build whole node
    rw [context, nodeFeature, neighborFeature, context', nodeFeature', neighborFeature',
      Draft.saidOf_ownedInsertions]
    split
    · exact ⟨rfl, rfl, rfl⟩
    · exact ⟨rfl, rfl, rfl⟩
  exact ⟨fun node => (both node).1, fun node => (both node).2.1, fun node => (both node).2.2⟩

/-- When every shard can build its graph, the whole graph can be built. -/
theorem exists_build {shards : Nat} (positive : 0 < shards)
    (parts : ∀ shard, shard < shards →
      ∃ part, build namespaces (ownedInsertions shards shard insertions) = .ok part) :
    ∃ whole, build namespaces insertions = .ok whole := by
  have checked : checkNamespaces namespaces (Draft.ofInsertions insertions).contexts = .ok () := by
    refine checkNamespaces_eq_ok_iff.mpr fun node context there => ?_
    obtain ⟨part, run⟩ := parts (ownerOf shards node) (Nat.mod_lt _ positive)
    refine checkNamespaces_eq_ok_iff.mp (checkNamespaces_of_build run) node context ?_
    have same := Draft.saidOf_ownedInsertions shards (ownerOf shards node) insertions node
    rw [if_pos rfl] at same
    exact (congrArg Said.context same).trans there
  exact ⟨_, by rw [build, ofDraft, checked]; rfl⟩

end Build

end Graph

end ShardedGraph
