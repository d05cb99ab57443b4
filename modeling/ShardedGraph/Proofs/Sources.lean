import Mathlib.Data.List.Perm.Subperm
import ShardedGraph.Proofs.FirstSeen
import ShardedGraph.Proofs.Frequencies
import ShardedGraph.Proofs.Neighborhoods
import ShardedGraph.Proofs.Reachable
import ShardedGraph.Proofs.Samples

/-!
# Pools of sources that are made

A source that is made is a built graph or an accepted table of frequencies (`Source.IsMade`). Each
of its slots holds different nodes of its namespace and one frequency for each of them
(`Source.IsMade.isSound`).

**Pools.** So every namespace with candidates has a kernel over them that draws their places
(`NegativePools.IsPool`, `NegativePools.exists_table`). What is drawn is a candidate that can be
drawn (`NegativePools.drawable`), and there are as many of these as the support says.

**Counting.** Candidates are different, so excluded nodes take away at most one candidate each: the
support is at most the number of candidates that are left and of excluded nodes together
(`NegativePools.IsPool.support_le`).
-/

set_option autoImplicit false

namespace ShardedGraph

open Number

/-! ## Sources -/

/-- The sources that are made: graphs that were built and tables of frequencies that were accepted.
-/
inductive Source.IsMade : Source → Prop where
  | graph {namespaces : NamespaceTable} {insertions : List Insertion} {graph : Graph}
      (built : Graph.build namespaces insertions = .ok graph) : IsMade graph.source
  | table {namespaces : NamespaceTable} {nodes : List (List NodeId)}
      {frequencies : List (List Single)} {table : FrequencyTable}
      (made : FrequencyTable.ofLists namespaces nodes frequencies = .ok table) :
      IsMade table.source

/-- Each slot holds different nodes of its namespace, and a frequency for each of them. -/
structure Source.IsSound (source : Source) : Prop where
  slotted : ∀ (slot : Nat) nodes, source.nodes[slot]? = some nodes →
    ∀ node ∈ nodes, (namespaceOf node).toNat = slot
  distinct : ∀ (slot : Nat) nodes, source.nodes[slot]? = some nodes → nodes.Nodup
  parallel : ∀ (slot : Nat) nodes, source.nodes[slot]? = some nodes →
    ((source.frequencies[slot]?).getD []).length = nodes.length

theorem Graph.nodup_of_mem_nodes {namespaces : NamespaceTable} {insertions : List Insertion}
    {graph : Graph} (run : build namespaces insertions = .ok graph) {slot : Nat}
    {nodes : List NodeId} (there : graph.nodes[slot]? = some nodes) : nodes.Nodup := by
  obtain ⟨counts, pools⟩ := pools_of_build run
  rw [Graph.nodes, pools, poolsOf, List.map_map, List.getElem?_map, Option.map_eq_some_iff] at there
  obtain ⟨number, -, rfl⟩ := there
  have whole : (counts.toList.map Prod.fst).Nodup := by
    rw [Std.ExtTreeMap.map_fst_toList_eq_keys]
    exact Std.ExtTreeMap.nodup_keys
  exact whole.sublist (List.filter_sublist.map _)

namespace FrequencyTable

/-- Tables of counts are tables of lists. -/
theorem isMade_of_ofCounts {namespaces : NamespaceTable} {counts : List (NodeId × Single)}
    {table : FrequencyTable} (run : ofCounts namespaces counts = .ok table) :
    table.source.IsMade := by
  obtain ⟨_, _, run⟩ := except_bind_eq_ok.mp run
  exact .table run

/-- The lists of a table that fits go together. -/
theorem Fits.isSound {table : FrequencyTable} (fits : table.Fits) : table.source.IsSound where
  slotted := fits.slotted
  distinct := (nodup_flatten_of_slotted fits.slotted).mp fits.distinct
  parallel slot nodes there := by
    obtain ⟨frequencies, there', same⟩ := exists_getElem?_of_forall₂ fits.parallel there
    change ((table.frequencies[slot]?).getD []).length = nodes.length
    rw [there', same]
    rfl

end FrequencyTable

/-- Sources that are made are sound. -/
theorem Source.IsMade.isSound {source : Source} (made : source.IsMade) : source.IsSound := by
  cases made with
  | graph built =>
      exact ⟨fun _ _ there _ => Graph.namespace_of_mem_nodes built there,
        fun _ _ => Graph.nodup_of_mem_nodes built, fun _ _ => Graph.length_frequencies _⟩
  | table made => exact (FrequencyTable.ofLists_eq_ok_iff.mp made).2.isSound

/-- A namespace has no more nodes than the other bits of a node can count. -/
theorem length_le_of_namespace {nodes : List NodeId} (distinct : nodes.Nodup) {slot : Nat}
    (slotted : ∀ node ∈ nodes, (namespaceOf node).toNat = slot) : nodes.length ≤ 2 ^ 52 := by
  have numbers : (nodes.map fun node => node.toNat % 2 ^ 52).Nodup := by
    refine distinct.map_on fun node member other member' same => UInt64.toNat_inj.mp ?_
    have first := slotted node member
    have second := slotted other member'
    rw [toNat_namespaceOf] at first second
    omega
  simpa using (subperm_range numbers fun node _ => Nat.mod_lt _ (by decide)).length_le

namespace NegativePools

/-! ## Pools -/

/-- The pool of a namespace: different candidates, all of the namespace, and a kernel over them that
draws their places. A uniform pool draws as a uniform kernel does. -/
structure IsPool (pools : NegativePools) (ns : NamespaceId) (candidates : List NodeId)
    (kernel : Kernel) : Prop where
  listed : pools.candidates ns = .ok candidates
  distinct : candidates.Nodup
  slotted : ∀ node ∈ candidates, namespaceOf node = ns
  size : kernel.size = candidates.length
  inside : ∀ stream, (kernel.draw.run stream).1 < candidates.length
  honest : kernel.IsHonest
  support : pools.support ns = .ok kernel.support
  isDrawable : ∀ index, pools.isDrawable ns index = .ok (kernel.isReachable index)
  run_draw : ∀ node, namespaceOf node = ns → ∀ stream, runFrom (pools.draw node) stream =
    (.ok (candidates.getD (kernel.draw.run stream).1 0), (kernel.draw.run stream).2)

variable {source : Source} {kind : KernelKind} {pools : NegativePools} {ns : NamespaceId}
  {candidates : List NodeId}

/-- Candidates are those of a configured namespace. -/
theorem contains_of_candidates (run : pools.candidates ns = .ok candidates) :
    pools.source.namespaces.contains ns = true := by
  unfold NegativePools.candidates at run
  split at run
  · next configured => exact configured
  · cases run

/-- A slot of a configured namespace with nodes has a kernel with one weight for each of them. -/
theorem exists_of_buildTable {slot : Nat} {table : Option Kernel}
    (run : buildTable source kind slot = .ok table)
    (configured : source.namespaces.contains (UInt16.ofNat slot) = true)
    (positive : 0 < ((source.frequencies[slot]?).getD []).length) :
    ∃ kernel weights, table = some kernel ∧ Kernel.build kind weights = .ok kernel ∧
      weights.length = ((source.frequencies[slot]?).getD []).length := by
  unfold buildTable at run
  dsimp only at run
  split at run
  · next missing =>
    rw [NamespaceTable.contains, Std.ExtTreeMap.contains_eq_isSome_getElem?] at configured
    rw [NamespaceTable.name?] at missing
    rw [missing] at configured
    cases configured
  · next empty _ =>
    rw [empty] at positive
    exact absurd positive (Nat.lt_irrefl 0)
  · split at run
    · cases run
    · obtain ⟨kernel, built, rfl⟩ := except_map_eq_ok.mp run
      exact ⟨kernel, _, rfl, built, length_dampened _⟩

/-- A namespace with candidates has a kernel over them, unless the pools are uniform. -/
theorem exists_kernel (sound : source.IsSound) (run : build source kind = .ok pools)
    (listed : pools.candidates ns = .ok candidates) (other : kind ≠ .uniform) :
    ∃ kernel weights, pools.table ns = .ok (some kernel) ∧ Kernel.build kind weights = .ok kernel ∧
      weights.length = candidates.length := by
  obtain ⟨same, -⟩ := source_of_build run
  obtain ⟨there, positive⟩ := candidates_eq_ok listed
  have configured := contains_of_candidates listed
  rw [same] at there configured
  obtain ⟨inside, _⟩ := List.getElem?_eq_some_iff.mp there
  obtain ⟨tables, built, -⟩ := build_of_ne_uniform other run
  obtain ⟨table, -, made⟩ := exists_getElem?_of_forall₂ built (List.getElem?_range inside)
  have length := sound.parallel _ _ there
  obtain ⟨kernel, weights, rfl, kerneled, sized⟩ := exists_of_buildTable made
    (by rwa [UInt16.ofNat_toNat]) (length ▸ positive)
  exact ⟨kernel, weights, (table_eq_ok_iff other run inside).mpr made, kerneled, sized.trans length⟩

/-- A draw takes the candidate at an index that the kernel gives, or a uniform draw. -/
theorem runFrom_draw {node : NodeId} {table : Option Kernel}
    (listed : pools.candidates (namespaceOf node) = .ok candidates)
    (keyed : pools.table (namespaceOf node) = .ok table) (stream : WordStream) :
    runFrom (pools.draw node) stream =
      (.ok (candidates.getD ((table.getD (.uniform candidates.length)).draw.run stream).1 0),
        ((table.getD (.uniform candidates.length)).draw.run stream).2) := by
  have first : runFrom (liftM (pools.candidates (namespaceOf node))) stream =
      (.ok candidates, stream) := by rw [runFrom_liftM, listed]
  have second : runFrom (liftM (pools.table (namespaceOf node))) stream = (.ok table, stream) := by
    rw [runFrom_liftM, keyed]
  refine (runFrom_bind_of_ok first).trans ((runFrom_bind_of_ok second).trans ?_)
  cases table with
  | none => rfl
  | some kernel => rfl

/-- Different candidates of a namespace and a kernel with a weight for each of them are a pool. -/
theorem isPool_of_table {kernel : Kernel} {weights : List Single}
    (listed : pools.candidates ns = .ok candidates) (distinct : candidates.Nodup)
    (slotted : ∀ node ∈ candidates, namespaceOf node = ns)
    (keyed : pools.table ns = .ok (some kernel)) (made : Kernel.build kind weights = .ok kernel)
    (length : weights.length = candidates.length) : pools.IsPool ns candidates kernel := by
  have few : weights.length ≤ UInt64.size := by
    have slot : ∀ node ∈ candidates, (namespaceOf node).toNat = ns.toNat := fun node member =>
      congrArg UInt16.toNat (slotted node member)
    rw [length]
    exact Nat.le_trans (length_le_of_namespace distinct slot) (by decide)
  have bounds := length ▸ Kernel.inBounds_of_build made
  refine ⟨listed, distinct, slotted, (Kernel.size_of_build made).trans length, bounds.draw,
    Kernel.isHonest_of_build made few, ?_, fun index => ?_, ?_⟩
  · rw [NegativePools.support, listed, keyed]
    rfl
  · rw [NegativePools.isDrawable, listed, keyed]
    rfl
  · rintro node rfl stream
    exact runFrom_draw listed keyed stream

/-- Every namespace with candidates has a table, unless the pools are uniform, and is a pool. -/
theorem exists_table (sound : source.IsSound) (run : build source kind = .ok pools)
    (listed : pools.candidates ns = .ok candidates) :
    ∃ table, pools.table ns = .ok table ∧
      pools.IsPool ns candidates (table.getD (.uniform candidates.length)) := by
  obtain ⟨same, ofKind⟩ := source_of_build run
  obtain ⟨there, positive⟩ := candidates_eq_ok listed
  rw [same] at there
  have distinct := sound.distinct _ _ there
  have slotted := sound.slotted _ _ there
  have belong : ∀ node ∈ candidates, namespaceOf node = ns := fun node member =>
    UInt16.toNat_inj.mp (slotted node member)
  by_cases uniform : kind = .uniform
  · have keyed : pools.table ns = .ok none := if_pos (ofKind.trans uniform)
    refine ⟨none, keyed, listed, distinct, belong, rfl,
      WordStream.below_lt positive, Kernel.isHonest_uniform positive, ?_, fun index => ?_, ?_⟩
    · rw [NegativePools.support, listed, keyed]
      rfl
    · rw [NegativePools.isDrawable, listed, keyed]
      rfl
    · rintro node rfl stream
      exact runFrom_draw listed keyed stream
  · obtain ⟨kernel, weights, keyed, made, length⟩ := exists_kernel sound run listed uniform
    exact ⟨some kernel, keyed, isPool_of_table listed distinct belong keyed made length⟩

theorem exists_isPool (sound : source.IsSound) (run : build source kind = .ok pools)
    (listed : pools.candidates ns = .ok candidates) :
    ∃ kernel, pools.IsPool ns candidates kernel := by
  obtain ⟨table, -, isPool⟩ := exists_table sound run listed
  exact ⟨_, isPool⟩

/-! ## Candidates that can be drawn -/

/-- A filter whose tests all succeed. -/
theorem filterM_eq_ok {α : Type} {test : α → Except Error Bool} {keep : α → Bool}
    {items : List α} (each : ∀ item ∈ items, test item = .ok (keep item)) :
    items.filterM test = .ok (items.filter keep) := by
  have kept : ∀ {items : List α} (kept : List α), (∀ item ∈ items, test item = .ok (keep item)) →
      items.filterAuxM test kept = .ok ((items.filter keep).reverse ++ kept) := by
    intro items
    induction items with
    | nil => exact fun kept _ => rfl
    | cons item items ih =>
        intro kept each
        obtain ⟨here, others⟩ := List.forall_mem_cons.mp each
        rw [List.filterAuxM, here]
        refine (ih (bif keep item then item :: kept else kept) others).trans ?_
        cases keeps : keep item <;> simp [keeps]
  rw [List.filterM, kept [] each]
  exact congrArg Except.ok (by simp)

/-- The candidates of a namespace that a draw can give. -/
def drawable (pools : NegativePools) (ns : NamespaceId) : List NodeId :=
  (((pools.candidates ns).toOption.getD []).zipIdx.filter fun entry =>
    (pools.isDrawable ns entry.2).toOption.getD false).map Prod.fst

/-- Those of them that are not excluded. -/
def admissible (pools : NegativePools) (ns : NamespaceId) (excluded : List NodeId) : List NodeId :=
  (pools.drawable ns).filter fun node => !excluded.contains node

theorem mem_drawable_iff {node : NodeId} :
    node ∈ pools.drawable ns ↔ ∃ candidates index, pools.candidates ns = .ok candidates ∧
      candidates[index]? = some node ∧ pools.isDrawable ns index = .ok true := by
  have reach : ∀ index, (pools.isDrawable ns index).toOption.getD false = true ↔
      pools.isDrawable ns index = .ok true := fun index => by
    cases pools.isDrawable ns index <;> simp [Except.toOption]
  rw [drawable, List.mem_map]
  cases listed : pools.candidates ns with
  | error error => simp [Except.toOption]
  | ok candidates =>
      constructor
      · rintro ⟨⟨other, index⟩, member, rfl⟩
        obtain ⟨there, can⟩ := List.mem_filter.mp member
        exact ⟨candidates, index, rfl, List.mk_mem_zipIdx_iff_getElem?.mp there, (reach index).mp can⟩
      · rintro ⟨_, index, ⟨⟩, there, can⟩
        exact ⟨(node, index), List.mem_filter.mpr
          ⟨List.mk_mem_zipIdx_iff_getElem?.mpr there, (reach index).mpr can⟩, rfl⟩

/-- Excluded lists with the same nodes leave the same candidates. -/
theorem admissible_congr {excluded excluded' : List NodeId}
    (same : ∀ node, node ∈ excluded ↔ node ∈ excluded') :
    pools.admissible ns excluded = pools.admissible ns excluded' :=
  List.filter_congr fun node _ => by simp [same]

namespace IsPool

variable {kernel : Kernel} (isPool : pools.IsPool ns candidates kernel)

include isPool

theorem drawable_eq : pools.drawable ns =
    (candidates.zipIdx.filter fun entry => kernel.isReachable entry.2).map Prod.fst := by
  simp [drawable, isPool.listed, isPool.isDrawable, Except.toOption]

theorem nodup_drawable : (pools.drawable ns).Nodup := by
  rw [isPool.drawable_eq]
  refine List.Nodup.sublist (List.filter_sublist.map _) ?_
  rw [List.zipIdx_map_fst]
  exact isPool.distinct

/-- There are as many candidates that can be drawn as the support says. -/
theorem length_drawable : (pools.drawable ns).length = kernel.support := by
  rw [isPool.drawable_eq, List.length_map, length_filter_zipIdx, ← isPool.size,
    isPool.honest.counts]

theorem length_drawable_le : (pools.drawable ns).length ≤ 2 ^ 52 := by
  refine @length_le_of_namespace _ isPool.nodup_drawable ns.toNat fun node member => ?_
  obtain ⟨_, index, listed, there, -⟩ := mem_drawable_iff.mp member
  cases isPool.listed.symm.trans listed
  rw [isPool.slotted node (List.mem_of_getElem? there)]

/-- **Counting.** Excluded nodes take away no more candidates than there are excluded nodes. -/
theorem support_le (excluded : List NodeId) :
    kernel.support ≤ (pools.admissible ns excluded).length + excluded.length := by
  have parts := List.length_eq_length_filter_add (l := pools.drawable ns) fun node =>
    !excluded.contains node
  have taken : ((pools.drawable ns).filter fun node => !!excluded.contains node).length ≤
      excluded.length := by
    refine (List.subperm_of_subset (isPool.nodup_drawable.filter _) fun node member => ?_).length_le
    simpa using (List.mem_filter.mp member).2
  rw [← isPool.length_drawable, admissible]
  omega

/-- The candidates that are left are counted. -/
theorem countAdmissible_eq (excluded : List NodeId) :
    pools.countAdmissible ns candidates excluded = .ok (pools.admissible ns excluded).length := by
  have each : ∀ entry ∈ candidates.zipIdx,
      (if excluded.contains entry.1 then .ok false else pools.isDrawable ns entry.2) =
        .ok (!excluded.contains entry.1 && kernel.isReachable entry.2) := by
    intro entry _
    rw [isPool.isDrawable]
    cases excluded.contains entry.1 <;> rfl
  have listed : (candidates.zipIdx.filter fun entry =>
      !excluded.contains entry.1 && kernel.isReachable entry.2).map Prod.fst =
        pools.admissible ns excluded := by
    rw [admissible, isPool.drawable_eq, List.filter_map, List.filter_filter]
    rfl
  rw [← listed, List.length_map]
  exact congrArg (Except.map List.length) (filterM_eq_ok each)

/-- Whatever the stream, a draw gives a candidate that can be drawn, and takes a word. -/
theorem exists_draw {node : NodeId} (own : namespaceOf node = ns) (stream : WordStream) :
    ∃ drawn later, runFrom (pools.draw node) stream = (.ok drawn, later) ∧
      drawn ∈ pools.drawable ns ∧ stream.used < later.used := by
  refine ⟨_, _, isPool.run_draw node own stream, ?_, isPool.honest.takes stream⟩
  rw [mem_drawable_iff]
  refine ⟨candidates, (kernel.draw.run stream).1, isPool.listed, ?_, ?_⟩
  · simp [List.getD_eq_getElem?_getD, isPool.inside stream]
  · rw [isPool.isDrawable, isPool.honest.reachable]

end IsPool

/-- The pools of a shard are built from a source that is made. -/
theorem isMade_even : ∃ source : Source, source.IsMade ∧
    build source .uniform = .ok evenPartition.negatives := by
  obtain ⟨graph, built, made⟩ := @build_of_mixed 0 _ rfl
  exact ⟨graph.source, .graph built, (Partition.made_of_build made).negatives⟩

end NegativePools

end ShardedGraph
