import ShardedGraph.Proofs.Features
import ShardedGraph.Proofs.Representation

/-!
# Rearranged insertions

What a graph says of a node depends on the insertions about this node alone: on its contexts, in
their order, and on the feature of each kind that came last. So insertions about different nodes may
change places, and so may insertions of different kinds (`Agree`). A context may also be inserted in
two portions, if no other context of its node comes between them (`Rearranged`). A graph that is
built from rearranged insertions is the same (`Graph.build_rearranged`), and so is a partition that
is loaded from a graph file with rearranged lines.

The contexts of one node may not change places. The weights of a neighbor are floating-point numbers
and are added up in the order in which they were inserted.

**Listings.** The contexts of a graph and the counts of its nodes have no order of their own. A
graph is what is collected from any listing of them (`Graph.CollectedFrom`): keys and pools are
sorted by node, and counting does not depend on the order.
-/

set_option autoImplicit false

namespace ShardedGraph

open Number

/-! ## Kinds of insertions -/

namespace Insertion

/-- What an insertion adds to. -/
inductive Kind where
  | context
  | nodeFeature
  | neighborFeature
  deriving DecidableEq, Repr

/-- What the insertion adds to. -/
def kind : Insertion → Kind
  | context _ _ => .context
  | nodeFeature _ _ => .nodeFeature
  | neighborFeature _ _ => .neighborFeature

end Insertion

/-- The insertions of a kind about a node, in their order. -/
def insertionsOf (insertions : List Insertion) (node : NodeId) (kind : Insertion.Kind) :
    List Insertion :=
  insertions.filter fun insertion => insertion.node = node ∧ insertion.kind = kind

/-- Insertions that are in the same order for each node and each kind. -/
def Agree (first second : List Insertion) : Prop :=
  ∀ node kind, insertionsOf first node kind = insertionsOf second node kind

/-- Insertions that come from each other by changing places and by cutting and joining contexts. -/
inductive Rearranged : List Insertion → List Insertion → Prop
  | reorder {first second} (agree : Agree first second) : Rearranged first second
  | cut (before middle after : List Insertion) (node : NodeId) (head tail : Context)
      (apart : insertionsOf middle node .context = []) :
      Rearranged (before ++ .context node (head ++ tail) :: (middle ++ after))
        (before ++ .context node head :: (middle ++ .context node tail :: after))
  | symm {first second} (rearranged : Rearranged first second) : Rearranged second first
  | trans {first second third} (earlier : Rearranged first second)
      (later : Rearranged second third) : Rearranged first third

/-! ## What is said of each node -/

section Kinds

variable {α : Type} {brought : Insertion → Option α} {kind : Insertion.Kind}
  (only : ∀ insertion : Insertion, insertion.kind ≠ kind → brought insertion = none)

include only

/-- Insertions of other kinds bring nothing. -/
theorem filterMap_insertionsOf (insertions : List Insertion) (node : NodeId) :
    (insertions.filter fun insertion => insertion.node = node).filterMap brought =
      (insertionsOf insertions node kind).filterMap brought := by
  rw [insertionsOf, List.filterMap_filter, List.filterMap_filter]
  refine List.filterMap_congr fun insertion _ => ?_
  by_cases same : insertion.kind = kind
  · simp [same]
  · simp [same, only insertion same]

theorem Agree.filterMap_eq {first second : List Insertion} (agree : Agree first second)
    (node : NodeId) :
    (first.filter fun insertion => insertion.node = node).filterMap brought =
      (second.filter fun insertion => insertion.node = node).filterMap brought := by
  rw [filterMap_insertionsOf only, filterMap_insertionsOf only, agree]

end Kinds

namespace Insertion

theorem neighbors?_of_kind (insertion : Insertion) (other : insertion.kind ≠ .context) :
    insertion.neighbors? = none := by
  cases insertion with
  | context node neighbors => exact absurd rfl other
  | nodeFeature node feature => rfl
  | neighborFeature node feature => rfl

theorem nodeFeature?_of_kind (insertion : Insertion) (other : insertion.kind ≠ .nodeFeature) :
    insertion.nodeFeature? = none := by
  cases insertion with
  | context node neighbors => rfl
  | nodeFeature node feature => exact absurd rfl other
  | neighborFeature node feature => rfl

theorem neighborFeature?_of_kind (insertion : Insertion)
    (other : insertion.kind ≠ .neighborFeature) : insertion.neighborFeature? = none := by
  cases insertion with
  | context node neighbors => rfl
  | nodeFeature node feature => rfl
  | neighborFeature node feature => exact absurd rfl other

end Insertion

theorem broughtContexts_append (first second : List Insertion) (node : NodeId) :
    broughtContexts (first ++ second) node =
      broughtContexts first node ++ broughtContexts second node := by
  rw [broughtContexts, List.filter_append, List.filterMap_append]
  rfl

theorem broughtContexts_context (about : NodeId) (neighbors : Context)
    (insertions : List Insertion) (node : NodeId) :
    broughtContexts (.context about neighbors :: insertions) node =
      if about = node then neighbors :: broughtContexts insertions node
      else broughtContexts insertions node := by
  rw [broughtContexts, List.filter_cons]
  change (if decide (about = node) = true then _ else _ : List Insertion).filterMap _ = _
  by_cases same : about = node
  · rw [if_pos same, if_pos (decide_eq_true same)]
    rfl
  · rw [if_neg same, if_neg (by simpa using same)]
    rfl

namespace Draft

/-- What insertions say of a node are the contexts and the last features that they bring for it. -/
theorem saidOf_ofInsertions_eq (insertions : List Insertion) (node : NodeId) :
    (ofInsertions insertions).saidOf node =
      ⟨if broughtContexts insertions node = [] then none
        else some (broughtContexts insertions node).flatten,
      lastFeature Insertion.nodeFeature? insertions node,
      lastFeature Insertion.neighborFeature? insertions node⟩ := by
  obtain ⟨ofNode, ofNeighbor⟩ := Graph.features_foldl_hear
    (insertions.filter fun insertion => insertion.node = node)
  have context : ((ofInsertions insertions).saidOf node).context = _ :=
    context_ofInsertions insertions node
  rw [saidOf_ofInsertions] at context ⊢
  rw [lastFeature, lastFeature, ← ofNode, ← ofNeighbor, ← context]

/-- A draft is what it says of each node. -/
theorem ext_saidOf {first second : Draft} (same : ∀ node, first.saidOf node = second.saidOf node) :
    first = second := by
  obtain ⟨contexts, nodeFeatures, neighborFeatures⟩ := first
  obtain ⟨contexts', nodeFeatures', neighborFeatures'⟩ := second
  obtain rfl : contexts = contexts' :=
    Std.ExtTreeMap.ext_getElem? fun {node} => congrArg Said.context (same node)
  obtain rfl : nodeFeatures = nodeFeatures' :=
    Std.ExtTreeMap.ext_getElem? fun {node} => congrArg Said.nodeFeature (same node)
  obtain rfl : neighborFeatures = neighborFeatures' :=
    Std.ExtTreeMap.ext_getElem? fun {node} => congrArg Said.neighborFeature (same node)
  rfl

/-- Insertions that agree say the same of every node. -/
theorem saidOf_of_agree {first second : List Insertion} (agree : Agree first second)
    (node : NodeId) : (ofInsertions first).saidOf node = (ofInsertions second).saidOf node := by
  have contexts : broughtContexts first node = broughtContexts second node :=
    agree.filterMap_eq Insertion.neighbors?_of_kind node
  have ofNode : lastFeature Insertion.nodeFeature? first node =
      lastFeature Insertion.nodeFeature? second node :=
    congrArg List.getLast? (agree.filterMap_eq Insertion.nodeFeature?_of_kind node)
  have ofNeighbor : lastFeature Insertion.neighborFeature? first node =
      lastFeature Insertion.neighborFeature? second node :=
    congrArg List.getLast? (agree.filterMap_eq Insertion.neighborFeature?_of_kind node)
  rw [saidOf_ofInsertions_eq, saidOf_ofInsertions_eq, contexts, ofNode, ofNeighbor]

/-- A context brings no feature, in one portion or in two. -/
theorem lastFeature_of_cut {brought : Insertion → Option Feature}
    (ignored : ∀ node neighbors, brought (.context node neighbors) = none)
    (before middle after : List Insertion) (about : NodeId) (head tail : Context)
    (node : NodeId) :
    lastFeature brought (before ++ .context about (head ++ tail) :: (middle ++ after)) node =
      lastFeature brought
        (before ++ .context about head :: (middle ++ .context about tail :: after)) node := by
  simp only [lastFeature, List.filterMap_filter, List.filterMap_append, List.filterMap_cons,
    ignored, ite_self]

/-- A context says the same in two portions: the second portion is appended to the first, since
nothing else is appended before it comes. -/
theorem saidOf_of_cut (before middle after : List Insertion) (about : NodeId)
    (head tail : Context) (apart : insertionsOf middle about .context = [])
    (node : NodeId) :
    (ofInsertions (before ++ .context about (head ++ tail) :: (middle ++ after))).saidOf node =
      (ofInsertions (before ++ .context about head ::
        (middle ++ .context about tail :: after))).saidOf node := by
  have ofNode := @lastFeature_of_cut Insertion.nodeFeature? (fun _ _ => rfl) before middle after
    about head tail node
  have ofNeighbor := @lastFeature_of_cut Insertion.neighborFeature? (fun _ _ => rfl) before middle
    after about head tail node
  rw [saidOf_ofInsertions_eq, saidOf_ofInsertions_eq, ofNode, ofNeighbor]
  simp only [broughtContexts_append, broughtContexts_context]
  by_cases same : about = node
  · subst same
    have nothing : broughtContexts middle about = [] := by
      rw [broughtContexts, filterMap_insertionsOf Insertion.neighbors?_of_kind, apart]
      rfl
    simp [nothing]
  · simp only [if_neg same]

end Draft

/-- Rearranged insertions say the same of every node. -/
theorem Rearranged.saidOf_eq {first second : List Insertion} (rearranged : Rearranged first second)
    (node : NodeId) :
    (Draft.ofInsertions first).saidOf node = (Draft.ofInsertions second).saidOf node := by
  induction rearranged with
  | reorder agree => exact Draft.saidOf_of_agree agree node
  | cut before middle after about head tail apart =>
      exact Draft.saidOf_of_cut before middle after about head tail apart node
  | symm rearranged ih => exact ih.symm
  | trans earlier later ih ih' => exact ih.trans ih'

theorem Rearranged.ofInsertions_eq {first second : List Insertion}
    (rearranged : Rearranged first second) :
    Draft.ofInsertions first = Draft.ofInsertions second :=
  Draft.ext_saidOf rearranged.saidOf_eq

namespace Graph

/-! ## Loading rearranged lines -/

/-- A shard builds the same from rearranged insertions, whatever else is inserted after them. -/
theorem build_ownedInsertions_eq {first second : List Insertion}
    (rearranged : Rearranged first second) (rest : List Insertion) (namespaces : NamespaceTable)
    (shards shard : Nat) :
    build namespaces (ownedInsertions shards shard (first ++ rest)) =
      build namespaces (ownedInsertions shards shard (second ++ rest)) := by
  have same : Draft.ofInsertions (first ++ rest) = Draft.ofInsertions (second ++ rest) := by
    rw [Draft.ofInsertions, List.foldl_append, Draft.ofInsertions, List.foldl_append]
    exact congrArg (List.foldl Draft.insert · rest) rearranged.ofInsertions_eq
  refine congrArg (ofDraft namespaces) (Draft.ext_saidOf fun node => ?_)
  rw [Draft.saidOf_ownedInsertions, Draft.saidOf_ownedInsertions, same]

/-- A graph does not change with the file of its contexts when the lines are rearranged. -/
theorem load_eq_of_rearranged {folder : Folder} {config : Config} {path path' : Option String}
    {first second : List Insertion} (positive : 0 < config.shardCount.toNat)
    (read : readInsertions folder .context path = .ok first)
    (read' : readInsertions folder .context path' = .ok second)
    (rearranged : Rearranged first second) :
    load folder { config with graphFile := path } =
      load folder { config with graphFile := path' } := by
  rw [@load_eq { config with graphFile := path } positive,
    @load_eq { config with graphFile := path' } positive, readAll, readAll]
  dsimp only
  rw [read, read']
  cases loadNamespaces folder config.namespaceFile with
  | error error => rfl
  | ok namespaces =>
  cases readInsertions folder .nodeFeature config.nodeFeatureFile with
  | error error => rfl
  | ok nodeFeatures =>
  cases readInsertions folder .neighborFeature config.neighborFeatureFile with
  | error error => rfl
  | ok neighborFeatures =>
      change build _ (ownedInsertions _ _ (first ++ nodeFeatures ++ neighborFeatures)) =
        build _ (ownedInsertions _ _ (second ++ nodeFeatures ++ neighborFeatures))
      rw [List.append_assoc, List.append_assoc]
      exact build_ownedInsertions_eq rearranged _ _ _ _

/-- A partition serves the same graph, and draws from it alike, when the lines are rearranged. -/
theorem partition_load_eq_of_rearranged {folder : Folder} {path path' : Option String}
    {first second : List Insertion} (read : readInsertions folder .context path = .ok first)
    (read' : readInsertions folder .context path' = .ok second)
    (rearranged : Rearranged first second) (config : Config) (stream : WordStream) :
    Partition.load folder { config with graphFile := path } stream =
      Partition.load folder { config with graphFile := path' } stream := by
  have unaffected : ∀ path, Partition.load folder { config with graphFile := path } stream =
      config.check >>= fun _ => load folder { config with graphFile := path } >>= fun graph =>
        Partition.build graph config stream := fun _ => rfl
  rw [unaffected, unaffected]
  cases checked : config.check with
  | error error => rfl
  | ok done =>
      have positive := (Config.check_eq_ok_iff.mp checked).shardCount_pos
      rw [load_eq_of_rearranged positive read read' rearranged]

/-! ## Listings -/

/-- A list that is sorted by a key, with each key once, is the sorted list of any of its
permutations. -/
theorem mergeSort_eq_of_perm {α : Type} {key : α → NodeId} {listed sorted : List α}
    (ascending : (sorted.map key).Pairwise (· < ·)) (perm : listed.Perm sorted) :
    (listed.mergeSort fun x y => decide (key x ≤ key y)) = sorted := by
  have merged := @List.pairwise_mergeSort α (fun x y => decide (key x ≤ key y))
    (fun x y z first second =>
      decide_eq_true (UInt64.le_trans (of_decide_eq_true first) (of_decide_eq_true second)))
    (fun x y => by simpa using UInt64.le_total (key x) (key y)) listed
  have perm := (List.mergeSort_perm listed fun x y => decide (key x ≤ key y)).trans perm
  have distinct : (sorted.map key).Nodup := ascending.imp UInt64.ne_of_lt
  refine perm.eq_of_pairwise (fun x y member member' below above => ?_)
    (merged.imp of_decide_eq_true) ((List.pairwise_map.mp ascending).imp UInt64.le_of_lt)
  exact List.inj_on_of_nodup_map distinct (perm.subset member) member'
    (UInt64.le_antisymm below above)

/-- What listed contexts name: every key, followed by its neighbors. -/
def namedIn (entries : List (NodeId × Context)) : List NodeId :=
  entries.flatMap fun entry => entry.1 :: entry.2.map Prod.fst

/-- A graph is what is collected from listed contexts, however they are listed and however the
counts of a slot are listed before they are sorted. -/
structure CollectedFrom (graph : Graph) (namespaces : NamespaceTable)
    (entries : List (NodeId × Context)) : Prop where
  context : ∀ entry ∈ entries, graph.context? entry.1 = some entry.2
  keys : ((entries.map Prod.fst).mergeSort fun x y => decide (x ≤ y)) = graph.keys
  references : (entries.flatMap fun entry => entry.2.map Prod.fst).foldl countOne ∅ =
    graph.references
  pools : poolsOf namespaces.slots ((namedIn entries).foldl countOne ∅) = graph.pools
  pool : ∀ pool ∈ graph.pools, ∀ counted : List (NodeId × Nat), counted.Perm pool →
    (counted.mergeSort fun x y => decide (x.1 ≤ y.1)) = pool

section Listed

variable {namespaces : NamespaceTable} {insertions : List Insertion}
  {entries : List (NodeId × Context)}
  (listed : entries.Perm (Draft.ofInsertions insertions).contexts.toList)

include listed

/-- A search for a node whose namespace has no name finds one in every listing or in none. -/
theorem build_eq_error_iff_namedIn :
    (∃ error, build namespaces insertions = .error error) ↔
      ∃ node ∈ namedIn entries, namespaces.contains (namespaceOf node) = false := by
  have among : ∀ node, node ∈ namedIn entries ↔
      node ∈ named (Draft.ofInsertions insertions).contexts :=
    fun node => (listed.flatMap_right _).mem_iff
  rw [build_eq_error_iff_checkNamespaces, checkNamespaces_eq_ok_iff_named, ← named]
  simp [among]

/-- A built graph is collected from any listing of the contexts that were inserted. -/
theorem collectedFrom_of_build {graph : Graph} (run : build namespaces insertions = .ok graph) :
    graph.CollectedFrom namespaces
      (entries.map fun (node, context) => (node, normalize context)) := by
  have contexts : (entries.map fun (node, context) => (node, normalize context)).Perm
      graph.contexts.toList := by
    obtain ⟨_, _, built⟩ := except_bind_eq_ok.mp run
    cases built
    rw [Std.ExtTreeMap.toList_map]
    exact listed.map _
  generalize (entries.map fun (node, context) => (node, normalize context)) = entries at contexts
  refine ⟨fun entry member => ?_, ?_, ?_, ?_, fun pool member counted perm => ?_⟩
  · exact Std.ExtTreeMap.mem_toList_iff_getElem?_eq_some.mp (contexts.subset member)
  · refine @mergeSort_eq_of_perm NodeId id _ _ ?_ ?_
    · rw [List.map_id, keys_eq_map_toList]
      exact pairwise_lt_toList _
    · rw [keys_eq_map_toList]
      exact contexts.map _
  · rw [references_eq_of_build run, countReferences, ← List.foldl_flatMap, values_eq_map_toList,
      List.flatMap_map]
    exact foldl_countOne_eq_of_perm (contexts.flatMap_right _)
  · rw [pools_eq_of_build run, countOccurrences_eq_foldl]
    exact congrArg (poolsOf _) (foldl_countOne_eq_of_perm (contexts.flatMap_right _))
  · rw [pools_eq_of_build run] at member
    obtain ⟨slot, -, rfl⟩ := List.mem_map.mp member
    exact mergeSort_eq_of_perm ((pairwise_lt_toList _).sublist (List.filter_sublist.map _)) perm

end Listed

/-- **The order of insertions across nodes does not matter.** Insertions that are in the same order
for each node and each kind build the same graph or are refused alike, and so do insertions of which
one brings a context in two portions. A partition that is loaded does not change when the lines of
its graph file are rearranged in this way. Nothing depends on the order in which the contexts of a
draft and the counts of a graph are listed. -/
theorem build_rearranged :
    (∀ namespaces first second, Agree first second →
      build namespaces first = build namespaces second) ∧
    (∀ namespaces before node head tail middle after, insertionsOf middle node .context = [] →
      build namespaces (before ++ .context node (head ++ tail) :: (middle ++ after)) =
        build namespaces
          (before ++ .context node head :: (middle ++ .context node tail :: after))) ∧
    (∀ folder path path' first second, readInsertions folder .context path = .ok first →
      readInsertions folder .context path' = .ok second → Rearranged first second →
        ∀ (config : Config) (stream : WordStream),
          Partition.load folder { config with graphFile := path } stream =
            Partition.load folder { config with graphFile := path' } stream) ∧
    ∀ namespaces insertions entries,
      entries.Perm (Draft.ofInsertions insertions).contexts.toList →
        ((∃ error, build namespaces insertions = .error error) ↔
          ∃ node ∈ namedIn entries, namespaces.contains (namespaceOf node) = false) ∧
        ∀ graph, build namespaces insertions = .ok graph → graph.CollectedFrom namespaces
          (entries.map fun (node, context) => (node, normalize context)) := by
  have same : ∀ {first second}, Rearranged first second → ∀ namespaces,
      build namespaces first = build namespaces second :=
    fun rearranged namespaces => congrArg (ofDraft namespaces) rearranged.ofInsertions_eq
  refine ⟨fun namespaces first second agree => same (.reorder agree) namespaces, ?_, ?_, ?_⟩
  · intro namespaces before node head tail middle after apart
    exact same (.cut before middle after node head tail apart) namespaces
  · intro folder path path' first second read read' rearranged config stream
    exact partition_load_eq_of_rearranged read read' rearranged config stream
  · intro namespaces insertions entries listed
    exact ⟨build_eq_error_iff_namedIn listed, fun graph run => collectedFrom_of_build listed run⟩

/-! ## Two files -/

/-- Neighbors in a list may change places when they are about different nodes or of different
kinds. -/
theorem agree_swap {first second : Insertion}
    (apart : first.node = second.node → first.kind ≠ second.kind) (before after : List Insertion) :
    Agree (before ++ first :: second :: after) (before ++ second :: first :: after) := by
  intro node kind
  simp only [insertionsOf, List.filter_append, List.filter_cons]
  by_cases here : first.node = node ∧ first.kind = kind
  · have there : ¬(second.node = node ∧ second.kind = kind) := fun both =>
      apart (here.1.trans both.1.symm) (here.2.trans both.2.symm)
    simp [here, there]
  · simp [here]

/-- A file with the contexts of two nodes, and a file in which they have changed places and one of
them is cut. -/
def shuffledFolder : Folder where
  files := [("g", Text.writeUtf8 "2 1:1 5:1\n3 2:1"), ("h", Text.writeUtf8 "3 2:1\n2 1:1\n2 5:1")]

/-- What the first file says. -/
def orderedContexts : List Insertion := [.context 2 [(1, 1), (5, 1)], .context 3 [(2, 1)]]

/-- What the second file says. -/
def shuffledContexts : List Insertion :=
  [.context 3 [(2, 1)], .context 2 [(1, 1)], .context 2 [(5, 1)]]

/-- What the files say, with nothing cut. -/
def swappedContexts : List Insertion := [.context 3 [(2, 1)], .context 2 [(1, 1), (5, 1)]]

theorem agree_swapped : Agree orderedContexts swappedContexts :=
  @agree_swap (.context 2 [(1, 1), (5, 1)]) (.context 3 [(2, 1)]) (by decide) [] []

theorem rearranged_shuffled : Rearranged orderedContexts shuffledContexts :=
  .trans (.reorder agree_swapped) (.cut [.context 3 [(2, 1)]] [] [] 2 [(1, 1)] [(5, 1)] rfl)

theorem splitOn_shuffled : "g".splitOn "/" = ["g"] ∧ "h".splitOn "/" = ["h"] := by
  constructor
  · rw [String.splitOn, if_neg (by decide), String.splitOnAux, if_neg (by decide +kernel),
      if_neg (by decide +kernel), String.splitOnAux, if_pos (by decide +kernel)]
    decide +kernel
  · rw [String.splitOn, if_neg (by decide), String.splitOnAux, if_neg (by decide +kernel),
      if_neg (by decide +kernel), String.splitOnAux, if_pos (by decide +kernel)]
    decide +kernel

theorem readInsertions_shuffled :
    readInsertions shuffledFolder .context (some "g") = .ok orderedContexts ∧
      readInsertions shuffledFolder .context (some "h") = .ok shuffledContexts := by
  have text : shuffledFolder.readText "g" = .ok "2 1:1 5:1\n3 2:1" :=
    readText_of_find splitOn_shuffled.1 (by decide +kernel) (by decide +kernel) (by decide +kernel)
      rfl
  have text' : shuffledFolder.readText "h" = .ok "3 2:1\n2 1:1\n2 5:1" :=
    readText_of_find splitOn_shuffled.2 (by decide +kernel) (by decide +kernel) (by decide +kernel)
      rfl
  have lines : readLines "2 1:1 5:1\n3 2:1" = .ok [⟨2, [(1, 1), (5, 1)]⟩, ⟨3, [(2, 1)]⟩] :=
    except_toOption_eq_some.mp (by decide +kernel)
  have lines' : readLines "3 2:1\n2 1:1\n2 5:1" =
      .ok [⟨3, [(2, 1)]⟩, ⟨2, [(1, 1)]⟩, ⟨2, [(5, 1)]⟩] :=
    except_toOption_eq_some.mp (by decide +kernel)
  exact ⟨except_bind_eq_ok.mpr ⟨_, text, except_bind_eq_ok.mpr ⟨_, lines, rfl⟩⟩,
    except_bind_eq_ok.mpr ⟨_, text', except_bind_eq_ok.mpr ⟨_, lines', rfl⟩⟩⟩

/-- Both files make the same graph, whichever context is listed first. -/
theorem build_rearranged_shuffled :
    Agree orderedContexts swappedContexts ∧
      build .single orderedContexts = build .single swappedContexts ∧
      insertionsOf [] 2 .context = [] ∧
      build .single swappedContexts = build .single shuffledContexts ∧
      readInsertions shuffledFolder .context (some "g") = .ok orderedContexts ∧
      readInsertions shuffledFolder .context (some "h") = .ok shuffledContexts ∧
      Rearranged orderedContexts shuffledContexts ∧
      Partition.load shuffledFolder { graphFile := some "g" } (.cycle #[]) =
        Partition.load shuffledFolder { graphFile := some "h" } (.cycle #[]) ∧
      ∃ graph, build .single orderedContexts = .ok graph ∧ graph.CollectedFrom .single
        ((Draft.ofInsertions orderedContexts).contexts.toList.reverse.map fun (node, context) =>
          (node, normalize context)) := by
  obtain ⟨reorders, cuts, loads, listings⟩ := build_rearranged
  obtain ⟨read, read'⟩ := readInsertions_shuffled
  have made : (build .single orderedContexts).toOption.isSome = true := by decide +kernel
  obtain ⟨graph, made⟩ := Option.isSome_iff_exists.mp made
  have run := except_toOption_eq_some.mp made
  refine ⟨agree_swapped, reorders _ _ _ agree_swapped, rfl,
    cuts .single [.context 3 [(2, 1)]] 2 [(1, 1)] [(5, 1)] [] [] rfl, read, read',
    rearranged_shuffled, ?_, graph, run, ?_⟩
  · exact loads _ _ _ _ _ read read' rearranged_shuffled {} _
  · exact (listings _ _ _ (List.reverse_perm _)).2 graph run

end Graph

end ShardedGraph
