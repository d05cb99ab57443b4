import Mathlib.Algebra.Order.BigOperators.Group.List
import Mathlib.Data.List.GetD
import Mathlib.Data.List.Perm.Subperm
import ShardedGraph.Proofs.Occurrences
import ShardedGraph.Proofs.Samples

/-!
# Built partitions

A shard has a partition that was built, over a graph that was built (`Partition.IsBuilt`). Its
namespaces come from pairs, so that it has a slot, and its insertions fit into memory, so that no
list of its graph is longer than a word can count. The same holds of its hot nodes, which are some
of its keys, each once (`Partition.IsBuilt.length_hotNodes`). A node is named by few enough contexts
for its frequency, and for the total of its slot, to be far from infinite
(`Partition.IsBuilt.occurrencesIn_le`).
-/

set_option autoImplicit false

namespace ShardedGraph

open Number

/-! ## Slices -/

/-- Slices put together are the list. -/
theorem flatten_slicesOf {α : Type} {length : Nat} (positive : 0 < length) (list : List α) :
    (slicesOf length list).flatten = list := by
  have first : ∀ count, ((List.range count).map fun index =>
      (list.drop (index * length)).take length).flatten = list.take (count * length) := by
    intro count
    induction count with
    | zero => simp
    | succ count ih =>
        rw [List.range_succ, List.map_append, List.flatten_append, ih, Nat.succ_mul, List.take_add]
        simp
  rw [slicesOf, first, List.take_of_length_le]
  have covered := Nat.lt_div_mul_add positive (a := list.length + length - 1)
  omega

/-! ## Memory -/

/-- Insertions that fit into memory: with all their entries they are fewer than a word can count. -/
def FitMemory (insertions : List Insertion) : Prop :=
  insertions.length + (insertions.flatMap Insertion.entries).length < UInt64.size

namespace Graph

section Memory

variable {namespaces : NamespaceTable} {insertions : List Insertion} {graph : Graph}
  (run : build namespaces insertions = .ok graph)

include run

/-- A key is a node of some insertion. -/
theorem length_keys_le : graph.keys.length ≤ insertions.length := by
  have among : graph.keys ⊆ insertions.map Insertion.node := by
    intro node key
    obtain ⟨context, there⟩ := Option.isSome_iff_exists.mp
      (Std.ExtTreeMap.mem_iff_isSome_getElem?.mp (Std.ExtTreeMap.mem_keys.mp key))
    have said := (answers_of_build run node).1.symm.trans there
    rw [Draft.saidOf_ofInsertions] at said
    by_contra absent
    have none : (insertions.filter fun insertion => insertion.node = node) = [] := by
      refine List.filter_eq_nil_iff.mpr fun insertion member same => absent ?_
      exact List.mem_map.mpr ⟨insertion, member, of_decide_eq_true same⟩
    rw [none] at said
    cases said
  have fewer := (Std.ExtTreeMap.nodup_keys.subperm among).length_le
  rwa [List.length_map] at fewer

/-- A slot has no more occurrences than contexts and neighbors can make. -/
theorem occurrencesIn_le (slot : Nat) :
    graph.occurrencesIn slot ≤
      insertions.length * ((insertions.flatMap Insertion.entries).length + 1) := by
  have bound : (named graph.contexts).length ≤
      graph.keys.length * ((insertions.flatMap Insertion.entries).length + 1) := by
    have each : ∀ entry ∈ graph.contexts.toList, (entry.1 :: entry.2.map Prod.fst).length ≤
        (insertions.flatMap Insertion.entries).length + 1 := by
      rintro ⟨node, context⟩ member
      have there := Std.ExtTreeMap.mem_toList_iff_getElem?_eq_some.mp member
      have said := (answers_of_build run node).1.symm.trans there
      obtain ⟨draft, here, rfl⟩ := Option.map_eq_some_iff.mp said
      have most := (Draft.atMost_ofInsertions insertions node).context draft here
      have merged := length_normalize_le draft
      rw [List.length_cons, List.length_map]
      exact Nat.succ_le_succ (Nat.le_trans merged most)
    rw [named, List.length_flatMap, keys, ← Std.ExtTreeMap.map_fst_toList_eq_keys, List.length_map]
    refine Nat.le_trans (List.sum_le_card_nsmul _
      ((insertions.flatMap Insertion.entries).length + 1) fun length member => ?_) ?_
    · obtain ⟨entry, here, rfl⟩ := List.mem_map.mp member
      exact each entry here
    · rw [List.length_map]
      exact Nat.le_refl _
  rw [occurrencesIn_of_build run]
  split
  · refine Nat.le_trans List.countP_le_length (Nat.le_trans bound ?_)
    exact Nat.mul_le_mul_right _ (length_keys_le run)
  · exact Nat.zero_le _

end Memory

end Graph

/-! ## Partitions -/

/-- A table of pairs has a slot. -/
theorem NamespaceTable.slots_pos {pairs : List (String × NamespaceId)} {table : NamespaceTable}
    (run : ofPairs pairs = .ok table) : 0 < table.slots := by
  have named : ∀ {table : NamespaceTable}, table.names ≠ ∅ → 0 < table.slots := by
    intro table some
    rw [slots]
    split
    · exact Nat.succ_pos _
    · next none =>
      exact absurd (Std.ExtTreeMap.keys_eq_nil_iff.mp (List.getLast?_eq_none_iff.mp none)) some
  have added : ∀ {before after : NamespaceTable} {pair}, addPair before pair = .ok after →
      after.names ≠ ∅ := by
    rintro before after ⟨name, ns⟩ step
    unfold addPair at step
    dsimp only at step
    split at step
    · cases step
    · split at step
      · cases step
      · split at step
        · cases step
        · cases step
          exact Std.ExtTreeMap.insert_ne_empty
  obtain ⟨filled, fold, same⟩ := except_bind_eq_ok.mp run
  cases same
  cases pairs with
  | nil => exact (by decide +kernel : 0 < single.slots)
  | cons first pairs =>
      rw [List.foldlM_cons] at fold
      obtain ⟨begun, step, rest⟩ := except_bind_eq_ok.mp fold
      exact named (foldlM_keeps (fun _ table => table.names ≠ ∅)
        (fun _ _ _ _ _ step => added step) (added step) rest)

namespace HotNodes

/-- What is kept by chance is no longer than what there is. -/
theorem length_keepByChance_le (probability : Double) (nodes : List NodeId) (stream : WordStream) :
    ((keepByChance probability nodes).run stream).1.length ≤ nodes.length := by
  induction nodes generalizing stream with
  | nil => exact Nat.le_refl _
  | cons node nodes ih =>
      rw [keepByChance]
      simp only [StateT.run_bind, StateT.run_pure]
      generalize WordStream.double.run stream = drawn
      change (if drawn.1 < probability then
        node :: ((keepByChance probability nodes).run drawn.2).1
          else ((keepByChance probability nodes).run drawn.2).1).length ≤ nodes.length + 1
      split
      · exact Nat.succ_le_succ (ih _)
      · exact Nat.le_succ_of_le (ih _)

theorem length_flatten_le {α : Type} {kept slices : List (List α)}
    (each : List.Forall₂ (fun slice kept => kept.length ≤ slice.length) slices kept) :
    kept.flatten.length ≤ slices.flatten.length := by
  induction each with
  | nil => exact Nat.le_refl _
  | cons first _ ih =>
      rw [List.flatten_cons, List.flatten_cons, List.length_append, List.length_append]
      exact Nat.add_le_add first ih

/-- The slices for workers are cut from the list. -/
theorem flatten_slicesFor {α : Type} (workers : Nat) (list : List α) :
    (slicesFor workers list).flatten = list :=
  flatten_slicesOf (Nat.lt_of_lt_of_le Nat.one_pos (Nat.le_max_left _ _)) list

/-- No more nodes are hot than have a context. -/
theorem length_le {graph : Graph} {rule : HotRule} {threshold : Double} {workers : Nat}
    {stream : WordStream} {nodes : List NodeId}
    (run : select graph rule threshold workers stream = .ok nodes) :
    nodes.length ≤ graph.keys.length := by
  unfold select at run
  split at run
  · cases run
  split at run
  · cases run
    exact Nat.zero_le _
  cases rule with
  | random =>
      dsimp only at run
      split at run
      · cases run
      · cases run
        have kept := length_flatten_le (List.Forall₂.imp
          (fun slice kept ⟨before, same⟩ => same ▸ length_keepByChance_le threshold slice before)
          (forall₂_run_mapM (keepByChance threshold) (slicesFor workers graph.keys) stream))
        rwa [flatten_slicesFor] at kept
  | degree =>
      dsimp only at run
      split at run
      · cases run
      · rw [← Except.ok.inj run]
        refine Nat.le_trans (List.length_take_le' _ _) ?_
        exact Nat.le_of_eq (List.length_mergeSort _)
  | importance =>
      have same := Except.ok.inj run
      have kept := @length_flatten_le NodeId
        ((slicesFor workers graph.keys).map fun slice =>
          slice.filter fun node => threshold < importance graph node) (slicesFor workers graph.keys)
        (by
          rw [List.forall₂_map_right_iff, List.forall₂_same]
          exact fun slice _ => List.length_filter_le _ _)
      rwa [flatten_slicesFor, ← List.flatMap_def, same] at kept

end HotNodes

/-- A partition that a shard can have. It is built over a graph whose namespaces are a table of
pairs, and whose insertions fit into memory. -/
def Partition.IsBuilt (partition : Partition) : Prop :=
  ∃ pairs namespaces insertions graph config stream,
    NamespaceTable.ofPairs pairs = .ok namespaces ∧ FitMemory insertions ∧
      Graph.build namespaces insertions = .ok graph ∧
        Partition.build graph config stream = .ok partition

namespace Partition

/-- A partition has the hot nodes that were selected and the page size of its configuration, which
is not zero. -/
theorem hotNodes_of_build {graph : Graph} {config : Config} {stream : WordStream}
    {partition : Partition} (run : Partition.build graph config stream = .ok partition) :
    HotNodes.select graph config.hotRule config.hotThreshold (config.workers?.getD 1) stream =
        .ok partition.hotNodes ∧
      partition.pageSize = config.pageSize ∧ 0 < partition.pageSize := by
  have made := made_of_build run
  refine ⟨made.hotNodes, made.pageSize, ?_⟩
  rw [made.pageSize]
  exact UInt64.pos_iff_ne_zero.mpr (Config.check_eq_ok_iff.mp made.checked).page

namespace IsBuilt

variable {partition : Partition} (built : partition.IsBuilt)

include built

theorem fits : partition.graph.Fits := by
  obtain ⟨_, _, insertions, graph, _, _, _, small, made, run⟩ := built
  rw [(spec_of_build run).1]
  exact Graph.fits_of_build made (Nat.lt_of_le_of_lt (Nat.le_add_left _ _) small)

theorem length_hotNodes : partition.hotNodes.length < UInt64.size := by
  obtain ⟨_, _, insertions, graph, _, _, _, small, made, run⟩ := built
  have few := HotNodes.length_le (hotNodes_of_build run).1
  have keys := Graph.length_keys_le made
  unfold FitMemory at small
  omega

theorem pageSize_pos : 0 < partition.pageSize.toNat := by
  obtain ⟨_, _, _, _, _, _, _, _, _, run⟩ := built
  exact UInt64.lt_iff_toNat_lt.mp (hotNodes_of_build run).2.2

/-- There is a slot, and there are no more than namespaces. -/
theorem slots_mem : 0 < partition.graph.slots ∧ partition.graph.slots ≤ UInt16.size := by
  obtain ⟨_, namespaces, _, graph, _, _, table, _, made, run⟩ := built
  rw [(spec_of_build run).1]
  exact ⟨Graph.slots_eq_of_build made ▸ NamespaceTable.slots_pos table, Graph.slots_le made⟩

/-- Few enough nodes occur in a slot. -/
theorem occurrencesIn_le (slot : Nat) : partition.graph.occurrencesIn slot ≤ 2 ^ 127 := by
  obtain ⟨_, _, insertions, graph, _, _, _, small, made, run⟩ := built
  rw [(spec_of_build run).1]
  refine Nat.le_trans (Graph.occurrencesIn_le made slot) ?_
  unfold FitMemory at small
  have half : UInt64.size = 2 ^ 63 + 2 ^ 63 := rfl
  rcases Nat.le_total insertions.length (2 ^ 63) with few | many
  · calc insertions.length * ((insertions.flatMap Insertion.entries).length + 1)
        ≤ 2 ^ 63 * 2 ^ 64 := Nat.mul_le_mul few (by omega)
      _ = 2 ^ 127 := rfl
  · calc insertions.length * ((insertions.flatMap Insertion.entries).length + 1)
        ≤ 2 ^ 64 * 2 ^ 63 := Nat.mul_le_mul (by omega) (by omega)
      _ = 2 ^ 127 := rfl

/-- The totals of a partition are those of the slots. -/
theorem totals_eq : partition.graph.totals =
    (List.range partition.graph.slots).map fun slot =>
      Graph.totalOf (partition.graph.occurrencesIn slot) := by
  obtain ⟨_, _, _, graph, _, _, _, _, made, run⟩ := built
  rw [(spec_of_build run).1]
  refine List.ext_getElem (by simp [Graph.totals, Graph.slots]) fun slot inside _ => ?_
  have total := Graph.totals_of_build made slot
  rw [List.getD_eq_getElem _ _ inside] at total
  simp [total]

end IsBuilt

end Partition

/-- The partitions of two shards are built. -/
theorem isBuilt_mixed : ∀ partition ∈ [evenPartition, oddPartition], partition.IsBuilt := by
  intro partition member
  obtain ⟨shard, there⟩ := List.getElem?_of_mem member
  obtain ⟨graph, part, made⟩ := build_of_mixed there
  have fits : FitMemory (Graph.ownedInsertions 2 shard mixedInsertions) := by
    unfold FitMemory
    rcases shard with _ | _ | shard
    · decide
    · decide
    · cases there
  exact ⟨[], .single, _, graph, uniformConfig, .cycle #[], rfl, fits, part, made⟩

end ShardedGraph
