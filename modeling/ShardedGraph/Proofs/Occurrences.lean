import Mathlib.Algebra.BigOperators.Group.Finset.Basic
import ShardedGraph.Proofs.Rounding
import ShardedGraph.Proofs.Splitting

/-!
# Occurrences of nodes

The contexts of a graph name nodes: each of them its key and its neighbors (`Graph.named`). Every
node is counted as often as it is named, and the pools list the counted nodes of each slot with
their counts (`Graph.occurrences_of_build`, `Graph.occurrencesIn_of_build`).

The contexts of all shards are those of the whole graph, each on the shard of its key. Whatever is
counted in them therefore adds up over the shards (`Graph.sum_countP_named`), although a neighbor is
counted where its key is, and not where it belongs itself. The frequencies that a graph shows are
floating-point numbers; they add up as well, as long as the counts of the whole graph are exact.
-/

set_option autoImplicit false

namespace ShardedGraph

open Number

/-! ## Counting -/

namespace Graph

section Counting

section Counters

variable {α : Type} [OfNat α 0] [OfNat α 1] [Add α]

/-- The count of a node goes up by one for each time that the node is listed. -/
theorem getElem?_foldl_countOne (nodes : List NodeId) (counts : NodeMap α) (node : NodeId) :
    (nodes.foldl countOne counts)[node]? =
      if nodes.count node = 0 then counts[node]?
      else some ((· + 1)^[nodes.count node] (counts[node]?.getD 0)) := by
  induction nodes generalizing counts with
  | nil => rfl
  | cons first nodes ih =>
      rw [List.foldl_cons, ih, countOne, Std.ExtTreeMap.getElem?_alter, List.count_cons]
      by_cases same : first = node
      · subst same
        by_cases once : nodes.count first = 0
        · simp [once]
        · simp [once]
      · have different : ¬compare first node = .eq := fun equal =>
          same (Std.LawfulEqOrd.eq_of_compare equal)
        simp [same, different]

/-- Counting does not depend on the order of what is counted. -/
theorem foldl_countOne_eq_of_perm {first second : List NodeId} (perm : first.Perm second) :
    first.foldl countOne (∅ : NodeMap α) = second.foldl countOne ∅ := by
  refine Std.ExtTreeMap.ext_getElem? fun {node} => ?_
  rw [getElem?_foldl_countOne, getElem?_foldl_countOne, perm.count_eq]

end Counters

/-- A count in 32 bits is what is left of the number of its steps. -/
theorem toNat_iterate_add_one (times : Nat) :
    ((· + 1)^[times] (0 : UInt32)).toNat = times % UInt32.size := by
  induction times with
  | zero => rfl
  | succ times ih =>
      rw [Function.iterate_succ_apply', UInt32.toNat_add, ih]
      exact Nat.mod_add_mod times UInt32.size 1

/-- The nodes that contexts name: every key, followed by its neighbors. -/
def named (contexts : NodeMap Context) : List NodeId :=
  contexts.toList.flatMap fun entry => entry.1 :: entry.2.map Prod.fst

theorem values_eq_map_toList {κ α : Type} {cmp : κ → κ → Ordering} [Std.TransCmp cmp]
    (map : Std.ExtTreeMap κ α cmp) : map.values = map.toList.map Prod.snd := by
  rcases map with ⟨⟨tree⟩⟩
  induction tree using Quotient.ind with
  | _ tree =>
      change tree.inner.values = (Std.DTreeMap.Internal.Impl.Const.toList tree.inner).map Prod.snd
      rw [Std.DTreeMap.Internal.Impl.values_eq_map_snd,
        Std.DTreeMap.Internal.Impl.Const.toList_eq_toListModel_map, List.map_map]
      rfl

/-- Counting the neighbors first and the keys afterwards is counting all that is named. -/
theorem perm_named (contexts : NodeMap Context) :
    (contexts.values.flatMap (fun context => context.map Prod.fst) ++ contexts.keys).Perm
      (named contexts) := by
  rw [values_eq_map_toList, ← Std.ExtTreeMap.map_fst_toList_eq_keys, named]
  induction contexts.toList with
  | nil => exact .nil
  | cons entry entries ih =>
      rw [List.map_cons, List.flatMap_cons, List.map_cons, List.flatMap_cons, List.append_assoc]
      refine ((List.perm_middle.append_left _).trans List.perm_middle).trans (.cons _ ?_)
      exact ih.append_left _

theorem countOccurrences_eq_foldl (contexts : NodeMap Context) :
    countOccurrences contexts = (named contexts).foldl countOne ∅ := by
  rw [← foldl_countOne_eq_of_perm (perm_named contexts), countOccurrences, countReferences,
    List.foldl_append, List.foldl_flatMap]

/-- Every node is counted as often as it is named. -/
theorem getElem?_countOccurrences (contexts : NodeMap Context) (node : NodeId) :
    (countOccurrences contexts)[node]? =
      if (named contexts).count node = 0 then none else some ((named contexts).count node) := by
  rw [countOccurrences_eq_foldl, getElem?_foldl_countOne]
  simp

end Counting

/-! ## Pools -/

/-- How often a node occurs. -/
def occurrences (graph : Graph) (node : NodeId) : Nat :=
  ((graph.pools.getD (namespaceOf node).toNat []).lookup node).getD 0

/-- How often all nodes of a slot occur together. -/
def occurrencesIn (graph : Graph) (slot : Nat) : Nat :=
  ((graph.pools.getD slot []).map Prod.snd).sum

/-- The frequency that a graph shows of a node; a node that it does not list has none. -/
def frequencyOf (graph : Graph) (node : NodeId) : Single :=
  let slot := (namespaceOf node).toNat
  (((graph.nodes.getD slot []).zip (graph.frequencies.getD slot [])).lookup node).getD 0

/-- What a pool lists for a node is what is counted of it. -/
theorem lookup_filter_toList {counts : NodeMap Nat} {keep : NodeId → Bool} {node : NodeId}
    (kept : keep node = true) :
    (counts.toList.filter fun entry => keep entry.1).lookup node = counts[node]? := by
  have among : ∀ count, (node, count) ∈ counts.toList.filter (fun entry => keep entry.1) ↔
      counts[node]? = some count := by
    intro count
    rw [List.mem_filter, Std.ExtTreeMap.mem_toList_iff_getElem?_eq_some]
    exact and_iff_left kept
  cases found : (counts.toList.filter fun entry => keep entry.1).lookup node with
  | some count =>
      obtain ⟨first, last, split, _⟩ := List.lookup_eq_some_iff.mp found
      exact ((among count).mp (by rw [split]; simp)).symm
  | none =>
      cases there : counts[node]? with
      | none => rfl
      | some count =>
          have absent := List.lookup_eq_none_iff.mp found _ ((among count).mpr there)
          simp at absent

/-- A counted node is named, and as often as it is counted. -/
theorem counted_of_mem {contexts : NodeMap Context} {entry : NodeId × Nat}
    (member : entry ∈ (countOccurrences contexts).toList) :
    (named contexts).count entry.1 ≠ 0 ∧ entry.2 = (named contexts).count entry.1 := by
  rw [Std.ExtTreeMap.mem_toList_iff_getElem?_eq_some, getElem?_countOccurrences] at member
  split at member
  · cases member
  · next some => exact ⟨some, (Option.some.inj member).symm⟩

/-- The counts of some nodes add up to how often such nodes are named. -/
theorem sum_filter_countOccurrences (contexts : NodeMap Context) (keep : NodeId → Bool) :
    (((countOccurrences contexts).toList.filter fun entry => keep entry.1).map Prod.snd).sum =
      (named contexts).countP keep := by
  have nodes : ((countOccurrences contexts).toList.map Prod.fst).Perm (named contexts).dedup := by
    rw [List.perm_ext_iff_of_nodup ?_ (List.nodup_dedup _)]
    · intro node
      rw [List.mem_dedup, List.mem_map, ← @List.count_pos_iff _ _ _ node (named contexts)]
      constructor
      · rintro ⟨entry, member, rfl⟩
        exact Nat.pos_of_ne_zero (counted_of_mem member).1
      · intro some
        refine ⟨(node, (named contexts).count node),
          Std.ExtTreeMap.mem_toList_iff_getElem?_eq_some.mpr ?_, rfl⟩
        rw [getElem?_countOccurrences, if_neg (Nat.ne_of_gt some)]
    · rw [Std.ExtTreeMap.map_fst_toList_eq_keys]
      exact Std.ExtTreeMap.nodup_keys
  rw [← List.sum_map_count_dedup_filter_eq_countP, ← ((nodes.filter keep).map _).sum_eq,
    List.filter_map, List.map_map]
  refine congrArg List.sum (List.map_congr_left fun entry member => ?_)
  exact (counted_of_mem (List.mem_filter.mp member).1).2

theorem getD_poolsOf {slots slot : Nat} (inside : slot < slots) (counts : NodeMap Nat) :
    (poolsOf slots counts).getD slot [] =
      counts.toList.filter fun entry => (namespaceOf entry.1).toNat == slot := by
  simp [poolsOf, List.getD_eq_getElem?_getD, inside]

section Built

variable {namespaces : NamespaceTable} {insertions : List Insertion} {graph : Graph}
  (run : build namespaces insertions = .ok graph)

include run

theorem pools_eq_of_build :
    graph.pools = poolsOf namespaces.slots (countOccurrences graph.contexts) := by
  obtain ⟨_, _, built⟩ := except_bind_eq_ok.mp run
  cases built
  rfl

theorem references_eq_of_build : graph.references = countReferences graph.contexts := by
  obtain ⟨_, _, built⟩ := except_bind_eq_ok.mp run
  cases built
  rfl

theorem slots_eq_of_build : graph.slots = namespaces.slots := by
  rw [slots, pools_eq_of_build run, poolsOf, List.length_map, List.length_range]

/-- A node of a slot occurs as often as it is named. -/
theorem occurrences_of_build {node : NodeId} :
    graph.occurrences node =
      if (namespaceOf node).toNat < namespaces.slots then (named graph.contexts).count node
      else 0 := by
  rw [occurrences, pools_eq_of_build run]
  split
  · next inside =>
    rw [getD_poolsOf inside, @lookup_filter_toList _
      (fun other => (namespaceOf other).toNat == (namespaceOf node).toNat) _ (beq_self_eq_true _),
      getElem?_countOccurrences]
    split
    · next never => rw [never]; rfl
    · rfl
  · next outside =>
    rw [List.getD_eq_getElem?_getD, List.getElem?_eq_none (by simpa [poolsOf] using outside)]
    rfl

/-- The nodes of a slot occur as often as nodes of its namespace are named. -/
theorem occurrencesIn_of_build {slot : Nat} :
    graph.occurrencesIn slot =
      if slot < namespaces.slots then
        (named graph.contexts).countP fun node => (namespaceOf node).toNat == slot
      else 0 := by
  rw [occurrencesIn, pools_eq_of_build run]
  split
  · next inside =>
    rw [getD_poolsOf inside]
    exact sum_filter_countOccurrences graph.contexts fun node => (namespaceOf node).toNat == slot
  · next outside =>
    rw [List.getD_eq_getElem?_getD, List.getElem?_eq_none (by simpa [poolsOf] using outside)]
    rfl

end Built

/-! ## Parts -/

theorem sum_map_range_single (count place amount : Nat) :
    ((List.range count).map fun index => if index = place then amount else 0).sum =
      if place < count then amount else 0 := by
  induction count with
  | zero => rfl
  | succ count ih =>
      rw [List.range_succ, List.map_append, List.sum_append, ih, List.map_singleton,
        List.sum_singleton]
      split
      · next below => rw [if_neg (Nat.ne_of_gt below), if_pos (Nat.lt_succ_of_lt below), Nat.add_zero]
      · next above =>
        by_cases last : count = place
        · rw [if_pos last, if_pos (by omega), Nat.zero_add]
        · rw [if_neg last, if_neg (by omega)]

/-- What is counted in the lists of entries adds up over the owners of the entries. -/
theorem sum_countP_filter {α : Type} (owner : α → Nat) (list : α → List NodeId)
    (keep : NodeId → Bool) {shards : Nat} {entries : List α}
    (owned : ∀ entry ∈ entries, owner entry < shards) :
    ((List.range shards).map fun shard =>
        ((entries.filter fun entry => owner entry == shard).flatMap list).countP keep).sum =
      (entries.flatMap list).countP keep := by
  induction entries with
  | nil => simp
  | cons entry entries ih =>
      obtain ⟨inside, others⟩ := List.forall_mem_cons.mp owned
      have split : ∀ shard, (((entry :: entries).filter fun entry => owner entry == shard).flatMap
            list).countP keep =
          (if shard = owner entry then (list entry).countP keep else 0) +
            ((entries.filter fun entry => owner entry == shard).flatMap list).countP keep := by
        intro shard
        by_cases mine : shard = owner entry
        · simp [mine]
        · simp [mine, Ne.symm mine]
      have once := sum_map_range_single shards (owner entry) ((list entry).countP keep)
      rw [if_pos inside] at once
      rw [List.map_congr_left fun shard _ => split shard, List.sum_map_add, once, ih others,
        List.flatMap_cons, List.countP_append]

section IsPart

variable {shards shard : Nat} {whole part : Graph}

/-- The contexts of a part are those of the whole graph whose keys its shard owns. -/
theorem IsPart.contexts_eq (isPart : IsPart shards shard whole part) :
    part.contexts = whole.contexts.filter fun node _ => ownerOf shards node == shard := by
  refine Std.ExtTreeMap.ext_getElem? fun node => (isPart.context node).trans ?_
  rw [Std.ExtTreeMap.getElem?_filter']
  unfold context?
  cases whole.contexts[node]? with
  | none => simp
  | some context =>
      by_cases owned : ownerOf shards node = shard
      · simp [owned, Option.filter_some]
      · simp [owned, Option.filter_some]

theorem IsPart.keys_eq (isPart : IsPart shards shard whole part) :
    part.keys = whole.keys.filter fun node => ownerOf shards node == shard := by
  rw [keys, keys, isPart.contexts_eq, ← Std.ExtTreeMap.map_fst_toList_eq_keys,
    ← Std.ExtTreeMap.map_fst_toList_eq_keys, Std.ExtTreeMap.toList_filter, List.filter_map]
  rfl

theorem IsPart.named_eq (isPart : IsPart shards shard whole part) :
    named part.contexts =
      (whole.contexts.toList.filter fun entry => ownerOf shards entry.1 == shard).flatMap
        fun entry => entry.1 :: entry.2.map Prod.fst := by
  rw [named, isPart.contexts_eq, Std.ExtTreeMap.toList_filter]

end IsPart

/-! ### Adding up -/

theorem map_eq_map_of_forall₂ {α β γ : Type} {related : α → β → Prop} {f : α → γ} {g : β → γ}
    (same : ∀ item value, related item value → f item = g value) {items : List α} {values : List β}
    (pairs : List.Forall₂ related items values) : items.map f = values.map g := by
  induction pairs with
  | nil => rfl
  | cons first _ ih => exact congrArg₂ List.cons (same _ _ first) ih

section AddUp

variable {namespaces : NamespaceTable} {insertions : List Insertion} {shards : Nat} {whole : Graph}
  {parts : List Graph} (positive : 0 < shards) (run : build namespaces insertions = .ok whole)
  (runs : List.Forall₂
    (fun shard part => build namespaces (ownedInsertions shards shard insertions) = .ok part)
    (List.range shards) parts)

include positive run runs

/-- What is named in the contexts of all parts is what is named in those of the whole graph. -/
theorem sum_countP_named (keep : NodeId → Bool) :
    (parts.map fun part => (named part.contexts).countP keep).sum =
      (named whole.contexts).countP keep := by
  rw [named, ← sum_countP_filter (fun entry => ownerOf shards entry.1) _ keep
    fun entry _ => Nat.mod_lt _ positive]
  refine congrArg List.sum (map_eq_map_of_forall₂ ?_ runs).symm
  intro shard part built
  rw [(isPart_of_build run built).named_eq]

/-- The occurrences of a node add up over the parts. -/
theorem sum_occurrences (node : NodeId) :
    (parts.map fun part => part.occurrences node).sum = whole.occurrences node := by
  have each : ∀ part ∈ parts, part.occurrences node =
      if (namespaceOf node).toNat < namespaces.slots then (named part.contexts).count node
      else 0 := by
    intro part member
    obtain ⟨shard, _, built⟩ := exists_of_forall₂_of_mem runs member
    exact occurrences_of_build built
  rw [List.map_congr_left each, occurrences_of_build run]
  split
  · exact sum_countP_named positive run runs (· == node)
  · simp

/-- The occurrences in a slot add up over the parts. -/
theorem sum_occurrencesIn (slot : Nat) :
    (parts.map fun part => part.occurrencesIn slot).sum = whole.occurrencesIn slot := by
  have each : ∀ part ∈ parts, part.occurrencesIn slot =
      if slot < namespaces.slots then
        (named part.contexts).countP fun node => (namespaceOf node).toNat == slot
      else 0 := by
    intro part member
    obtain ⟨shard, _, built⟩ := exists_of_forall₂_of_mem runs member
    exact occurrencesIn_of_build built
  rw [List.map_congr_left each, occurrencesIn_of_build run]
  split
  · exact sum_countP_named positive run runs _
  · simp

end AddUp

end Graph

/-! ## Frequencies and totals -/

/-- Numbers that are exact in a format up to a limit add up in it. -/
theorem foldl_add_of_exact {α : Type} [Add α] {number : Nat → α} {limit : Nat}
    (exact : ∀ first second, first + second ≤ limit →
      number first + number second = number (first + second))
    {numbers : List Nat} {start : Nat} (small : start + numbers.sum ≤ limit) :
    (numbers.map number).foldl (· + ·) (number start) = number (start + numbers.sum) := by
  induction numbers generalizing start with
  | nil => rfl
  | cons first numbers ih =>
      rw [List.sum_cons, ← Nat.add_assoc] at small ⊢
      rw [List.map_cons, List.foldl_cons, exact start first (by omega)]
      exact ih small

/-- Small natural numbers add up. -/
theorem Number.Binary.foldl_ofNat {format : Format} (wide : format.IsWide) {numbers : List Nat}
    (small : numbers.sum ≤ format.exactLimit) :
    (numbers.map ofNat).foldl (· + ·) (0 : Binary format) = ofNat numbers.sum := by
  have added := foldl_add_of_exact (fun _ _ small => ofNat_add_ofNat wide small)
    ((Nat.zero_add numbers.sum).symm ▸ small)
  rwa [Nat.zero_add, ofNat_zero] at added

namespace Graph

/-- The total that a graph shows of a slot in which nodes occur so often. -/
def totalOf (count : Nat) : Double := if count = 0 then .zero true else .ofNat count

/-- A total that is small enough is exact. -/
theorem units_totalOf {count : Nat} (small : count ≤ Format.double.exactLimit) :
    (totalOf count).isFinite = true ∧ (totalOf count).signedUnits =
      ((count * 2 ^ Format.double.unitExponent : Nat) : Int) := by
  unfold totalOf
  split
  · next none =>
    rw [none]
    exact ⟨rfl, by decide +kernel⟩
  · exact ⟨(Binary.units_ofNat Format.isWide_double small).1,
      Binary.signedUnits_ofNat Format.isWide_double small⟩

theorem totalOf_add {first second : Nat}
    (small : first + second ≤ Format.double.exactLimit) :
    totalOf first + totalOf second = totalOf (first + second) := by
  obtain ⟨finite, value⟩ := units_totalOf (Nat.le_trans (Nat.le_add_right _ _) small)
  obtain ⟨finite', value'⟩ := units_totalOf (Nat.le_trans (Nat.le_add_left _ _) small)
  by_cases nothing : first + second = 0
  · obtain ⟨rfl, rfl⟩ := Nat.add_eq_zero_iff.mp nothing
    decide +kernel
  · rw [Binary.add_eq_ofNat finite finite' nothing, totalOf, if_neg nothing]
    rw [value, value', ← Int.natCast_add, Nat.add_mul]

theorem foldl_totalOf {numbers : List Nat} (small : numbers.sum ≤ Format.double.exactLimit) :
    (numbers.map totalOf).foldl (· + ·) (.zero true) = totalOf numbers.sum := by
  have added := foldl_add_of_exact (fun _ _ small => totalOf_add small)
    ((Nat.zero_add numbers.sum).symm ▸ small)
  rwa [Nat.zero_add] at added

theorem frequencyOf_eq (graph : Graph) (node : NodeId) :
    graph.frequencyOf node = .ofNat (graph.occurrences node) := by
  have zipped : ∀ pool : List (NodeId × Nat),
      ((pool.map Prod.fst).zip (pool.map fun entry => (.ofNat entry.2 : Single))).lookup node =
        (pool.lookup node).map Binary.ofNat := by
    intro pool
    induction pool with
    | nil => rfl
    | cons entry pool ih =>
        obtain ⟨first, count⟩ := entry
        simp only [List.map_cons, List.zip_cons_cons, List.lookup_cons]
        cases node == first with
        | true => rfl
        | false => exact ih
  have slots : ∀ slot, graph.nodes.getD slot [] = (graph.pools.getD slot []).map Prod.fst ∧
      graph.frequencies.getD slot [] =
        (graph.pools.getD slot []).map fun entry => (.ofNat entry.2 : Single) := by
    intro slot
    simp only [nodes, frequencies, List.getD_eq_getElem?_getD, List.getElem?_map]
    cases graph.pools[slot]? with
    | none => exact ⟨rfl, rfl⟩
    | some pool => exact ⟨rfl, rfl⟩
  rw [frequencyOf, (slots _).1, (slots _).2, zipped, occurrences]
  cases (graph.pools.getD (namespaceOf node).toNat []).lookup node with
  | none => exact Binary.ofNat_zero.symm
  | some count => rfl

section Built

variable {namespaces : NamespaceTable} {insertions : List Insertion} {graph : Graph}
  (run : build namespaces insertions = .ok graph)

include run

/-- A slot without nodes has the total of nothing, and there are no others with it. -/
theorem totals_of_build (slot : Nat) :
    graph.totals.getD slot (.zero true) = totalOf (graph.occurrencesIn slot) := by
  have total : graph.totals.getD slot (.zero true) = poolTotal (graph.pools.getD slot []) := by
    simp only [totals, List.getD_eq_getElem?_getD, List.getElem?_map]
    cases graph.pools[slot]? with
    | none => rfl
    | some pool => rfl
  have counts : ∀ entry ∈ graph.pools.getD slot [], entry.2 ≠ 0 := by
    rw [pools_eq_of_build run]
    by_cases inside : slot < namespaces.slots
    · rw [getD_poolsOf inside]
      intro entry member
      obtain ⟨some, same⟩ := counted_of_mem (List.mem_filter.mp member).1
      rwa [same]
    · rw [List.getD_eq_getElem?_getD, List.getElem?_eq_none (by simpa [poolsOf] using inside)]
      exact fun _ member => absurd member List.not_mem_nil
  rw [total, poolTotal, totalOf, occurrencesIn, ← List.foldl_map, ← List.sum_eq_foldl]
  cases pool : graph.pools.getD slot [] with
  | nil => rfl
  | cons entry entries =>
      rw [pool] at counts
      have some := counts entry List.mem_cons_self
      rw [if_neg (by simp), if_neg (by simp [some])]

end Built

end Graph

end ShardedGraph
