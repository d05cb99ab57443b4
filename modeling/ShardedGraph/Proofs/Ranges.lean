import ShardedGraph.Graph
import ShardedGraph.Walk
import Mathlib.Data.List.Basic

/-!
# Ascending contexts and their namespaces

A built context is ascending (`ascending_normalize`): it was sorted, and adding equal neighbors
up only drops some of them. A context that is ascending and names every neighbor once stays as it
is (`normalize_of_ascending`). The namespace of a node grows with the node, so in a built context
the neighbors of one namespace stand together.

**Binary search.** When a test holds of the first items of a list only, `partitionPoint` finds
how many these are (`partitionPoint_eq`). Between two halvings, the answer is neither before
the base of the search nor after its end (`searchFrom_spec`). From two such searches,
`namespaceRange` gives exactly the positions of the neighbors of one namespace
(`namespaceRange_places`), if there are any (`exists_namespaceRange_iff`).
-/

set_option autoImplicit false

namespace ShardedGraph

/-! ## Binary search -/

section Search

variable {α : Type} {test : α → Bool} {items : List α} {bound : Nat}

/-- A search that encloses the bound ends right before it, or at it when it is zero. -/
theorem searchFrom_spec
    (first : ∀ (index : Nat) item, items[index]? = some item → (test item = true ↔ index < bound))
    {size base : Nat} (positive : 0 < size) (inside : base + size ≤ items.length)
    (low : base ≤ bound) (high : bound ≤ base + size) :
    searchFrom test items size base ≤ bound ∧ bound ≤ searchFrom test items size base + 1 ∧
      searchFrom test items size base < items.length := by
  fun_induction searchFrom test items size base with
  | case1 size base large half middle moved ih =>
      have there : items[middle]? = some items[middle] := List.getElem?_eq_getElem (by omega)
      have place := first middle _ there
      have move : moved = if middle < bound then middle else base := by
        change (if (items[middle]?).any test then middle else base) = _
        rw [there, Option.any_some]
        by_cases before : middle < bound
        · rw [if_pos before, if_pos (place.mpr before)]
        · rw [if_neg before, if_neg (fun holds => before (place.mp holds))]
      refine ih (by omega) ?_ ?_ ?_
      · rw [move]; split <;> omega
      · rw [move]; split <;> omega
      · rw [move]; split <;> omega
  | case2 size base small => exact ⟨low, by omega, by omega⟩

/-- The search finds how many first items satisfy a test, when no other item does. -/
theorem partitionPoint_eq
    (first : ∀ (index : Nat) item, items[index]? = some item → (test item = true ↔ index < bound))
    (inside : bound ≤ items.length) : partitionPoint test items = bound := by
  unfold partitionPoint
  dsimp only
  rcases Nat.eq_zero_or_pos items.length with empty | positive
  · have nil := List.length_eq_zero_iff.mp empty
    subst nil
    rw [Nat.le_zero.mp inside, List.getElem?_nil, Option.any_none, if_neg Bool.false_ne_true,
      searchFrom, if_neg (by simp)]
  · obtain ⟨low, high, place⟩ := searchFrom_spec first positive (Nat.le_of_eq (Nat.zero_add _))
      (Nat.zero_le _) (by omega)
    have there := List.getElem?_eq_getElem place
    have holds := first _ _ there
    rw [there, Option.any_some]
    split
    · next yes =>
      have before := holds.mp yes
      omega
    · next no =>
      have after : ¬_ := fun before => no (holds.mpr before)
      omega

/-- Let every item satisfy a test that a later one satisfies. Then the items that satisfy it are
the first ones. -/
theorem test_iff_lt_length_takeWhile
    (order : items.Pairwise fun item later => test later = true → test item = true) :
    ∀ (index : Nat) item, items[index]? = some item →
      (test item = true ↔ index < (items.takeWhile test).length) := by
  induction items with
  | nil => exact fun index item there => nomatch there
  | cons head tail ih =>
      obtain ⟨before, order⟩ := List.pairwise_cons.mp order
      intro index item there
      by_cases holds : test head = true
      · rw [List.takeWhile_cons_of_pos holds, List.length_cons]
        cases index with
        | zero =>
            cases there
            exact iff_of_true holds (Nat.succ_pos _)
        | succ index => exact (ih order index item there).trans Nat.succ_lt_succ_iff.symm
      · rw [List.takeWhile_cons_of_neg holds]
        refine iff_of_false (fun yes => holds ?_) (Nat.not_lt_zero index)
        cases index with
        | zero =>
            cases there
            exact yes
        | succ index => exact before item (List.mem_of_getElem? there) yes

theorem partitionPoint_eq_length_takeWhile
    (order : items.Pairwise fun item later => test later = true → test item = true) :
    partitionPoint test items = (items.takeWhile test).length :=
  partitionPoint_eq (test_iff_lt_length_takeWhile order) (List.takeWhile_sublist test).length_le

end Search

/-! ## Ascending contexts -/

/-- The namespace of a node is what its sequence number leaves. -/
theorem toNat_namespaceOf (node : NodeId) :
    (namespaceOf node).toNat = node.toNat / 4503599627370496 := by
  have small := node.toNat_lt
  have shifted : (node >>> 52).toNat = node.toNat / 4503599627370496 := by
    rw [UInt64.toNat_shiftRight, Nat.shiftRight_eq_div_pow]
    rfl
  rw [namespaceOf, UInt64.toNat_toUInt16, shifted]
  omega

/-- The namespace of a node grows with the node. -/
theorem namespaceOf_mono {node other : NodeId} (le : node ≤ other) :
    namespaceOf node ≤ namespaceOf other := by
  rw [UInt16.le_iff_toNat_le, toNat_namespaceOf, toNat_namespaceOf]
  exact Nat.div_le_div_right (UInt64.le_iff_toNat_le.mp le)

/-- Neighbors in ascending order. -/
def Ascending (context : Context) : Prop := context.Pairwise fun entry later => entry.1 ≤ later.1

section Ends

variable {first second : NodeId × Number.Single} {rest : Context}
  (ascending : Ascending (first :: second :: rest))
include ascending

theorem Ascending.tail : Ascending (second :: rest) := (List.pairwise_cons.mp ascending).2

/-- When two neighbors are made one, the context stays ascending. -/
theorem Ascending.merged (same : first.1 = second.1) (weight : Number.Single) :
    Ascending ((first.1, weight) :: rest) := by
  obtain ⟨above, ascending'⟩ := List.pairwise_cons.mp ascending.tail
  exact List.pairwise_cons.mpr ⟨fun entry member => same ▸ above entry member, ascending'⟩

/-- A neighbor that differs from the next one does not come again. -/
theorem Ascending.not_mem (different : first.1 ≠ second.1) :
    first.1 ∉ (second :: rest).map Prod.fst := by
  intro again
  obtain ⟨entry, member, equal⟩ := List.mem_map.mp again
  rcases List.mem_cons.mp member with rfl | later
  · exact different equal.symm
  · have above := (List.pairwise_cons.mp ascending).1 second List.mem_cons_self
    have low := (List.pairwise_cons.mp ascending.tail).1 entry later
    rw [equal] at low
    exact different (UInt64.le_antisymm above low)

end Ends

/-- Adding equal neighbors up drops some of them and moves none. -/
theorem mergeEqual_sublist (context : Context) :
    ((mergeEqual context).map Prod.fst).Sublist (context.map Prod.fst) := by
  fun_induction mergeEqual context with
  | case1 => exact List.Sublist.refl _
  | case2 entry => exact List.Sublist.refl _
  | case3 first second rest same ih =>
      exact ih.trans (.cons_cons _ (.cons _ (List.Sublist.refl _)))
  | case4 first second rest different ih => exact .cons_cons _ ih

theorem decide_le_trans (x y z : NodeId × Number.Single) (first : decide (x.1 ≤ y.1) = true)
    (second : decide (y.1 ≤ z.1) = true) : decide (x.1 ≤ z.1) = true :=
  decide_eq_true (UInt64.le_trans (of_decide_eq_true first) (of_decide_eq_true second))

theorem decide_le_total (x y : NodeId × Number.Single) :
    (decide (x.1 ≤ y.1) || decide (y.1 ≤ x.1)) = true := by
  simpa using UInt64.le_total x.1 y.1

/-- A context is sorted by neighbor before equal neighbors are added up. -/
theorem ascending_mergeSort (context : Context) :
    Ascending (context.mergeSort fun x y => decide (x.1 ≤ y.1)) :=
  (List.pairwise_mergeSort decide_le_trans decide_le_total context).imp of_decide_eq_true

/-- A built context is ascending. -/
theorem ascending_normalize (context : Context) : Ascending (normalize context) :=
  List.pairwise_map.mp
    ((List.pairwise_map.mpr (ascending_mergeSort context)).sublist (mergeEqual_sublist _))

/-- Nothing is added up in a context that names every neighbor once. -/
theorem mergeEqual_of_nodup {context : Context} (distinct : (context.map Prod.fst).Nodup) :
    mergeEqual context = context := by
  fun_induction mergeEqual context with
  | case1 => rfl
  | case2 entry => rfl
  | case3 first second rest same ih =>
      obtain ⟨differs, -⟩ := List.nodup_cons.mp distinct
      exact absurd (same ▸ List.mem_cons_self) differs
  | case4 first second rest different ih => rw [ih (List.nodup_cons.mp distinct).2]

/-- A context in the order of built ones is built as it is. -/
theorem normalize_of_ascending {context : Context} (ascending : Ascending context)
    (distinct : (context.map Prod.fst).Nodup) : normalize context = context := by
  rw [normalize, List.mergeSort_of_pairwise (ascending.imp decide_eq_true)]
  exact mergeEqual_of_nodup distinct

section Ranges

variable {context : Context} {ns : NamespaceId} {first last : Nat}

/-- The neighbors of smaller namespaces come first. -/
theorem Ascending.below (ascending : Ascending context) (ns : NamespaceId) :
    context.Pairwise fun entry later => decide (namespaceOf later.1 < ns) = true →
      decide (namespaceOf entry.1 < ns) = true := by
  refine ascending.imp fun le holds => decide_eq_true ?_
  exact UInt16.lt_of_le_of_lt (namespaceOf_mono le) (of_decide_eq_true holds)

/-- The neighbors of namespaces up to one come first. -/
theorem Ascending.upTo (ascending : Ascending context) (ns : NamespaceId) :
    context.Pairwise fun entry later => decide (namespaceOf later.1 ≤ ns) = true →
      decide (namespaceOf entry.1 ≤ ns) = true := by
  refine ascending.imp fun le holds => decide_eq_true ?_
  exact UInt16.le_trans (namespaceOf_mono le) (of_decide_eq_true holds)

/-- Between the two bounds of a namespace stand exactly its neighbors. -/
theorem namespace_bounds (ascending : Ascending context) (ns : NamespaceId) {index : Nat}
    {entry : NodeId × Number.Single} (there : context[index]? = some entry) :
    partitionPoint (fun entry => decide (namespaceOf entry.1 < ns)) context ≤ index ∧
        index < partitionPoint (fun entry => decide (namespaceOf entry.1 ≤ ns)) context ↔
      namespaceOf entry.1 = ns := by
  have below := ascending.below ns
  have upTo := ascending.upTo ns
  have first := test_iff_lt_length_takeWhile below index entry there
  have last := test_iff_lt_length_takeWhile upTo index entry there
  rw [partitionPoint_eq_length_takeWhile below, partitionPoint_eq_length_takeWhile upTo, ← last,
    ← Nat.not_lt, ← first, decide_eq_true_iff, decide_eq_true_iff, UInt16.lt_iff_toNat_lt,
    UInt16.le_iff_toNat_le, ← UInt16.toNat_inj]
  omega

/-- The range of a namespace holds exactly the positions of its neighbors. -/
theorem namespaceRange_eq_some (ascending : Ascending context)
    (range : namespaceRange context ns = some (first, last)) :
    first < last ∧ last ≤ context.length ∧
      ∀ (index : Nat) entry, context[index]? = some entry →
        (first ≤ index ∧ index < last ↔ namespaceOf entry.1 = ns) := by
  unfold namespaceRange at range
  dsimp only at range
  split at range
  · next order =>
    cases range
    refine ⟨order, ?_, fun index entry there => namespace_bounds ascending ns there⟩
    rw [partitionPoint_eq_length_takeWhile (ascending.upTo ns)]
    exact (List.takeWhile_sublist _).length_le
  · cases range

/-- A namespace without a range has no neighbors. -/
theorem namespaceRange_eq_none (ascending : Ascending context)
    (range : namespaceRange context ns = none) :
    ∀ entry ∈ context, namespaceOf entry.1 ≠ ns := by
  intro entry member same
  obtain ⟨index, there⟩ := List.getElem?_of_mem member
  obtain ⟨after, before⟩ := (namespace_bounds ascending ns there).mpr same
  unfold namespaceRange at range
  dsimp only at range
  rw [if_pos (by omega)] at range
  cases range

/-- The positions of the range are those of the neighbors of the namespace, and no others. -/
theorem namespaceRange_places (ascending : Ascending context)
    (range : namespaceRange context ns = some (first, last)) (index : Nat) :
    first ≤ index ∧ index < last ↔
      ∃ entry, context[index]? = some entry ∧ namespaceOf entry.1 = ns := by
  obtain ⟨-, inside, places⟩ := namespaceRange_eq_some ascending range
  constructor
  · intro between
    have here := List.getElem?_eq_getElem (Nat.lt_of_lt_of_le between.2 inside)
    exact ⟨_, here, (places index _ here).mp between⟩
  · rintro ⟨entry, here, own⟩
    exact (places index entry here).mpr own

/-- A namespace has a range exactly when some neighbor belongs to it. -/
theorem exists_namespaceRange_iff (ascending : Ascending context) :
    (∃ first last, namespaceRange context ns = some (first, last)) ↔
      ∃ entry ∈ context, namespaceOf entry.1 = ns := by
  constructor
  · rintro ⟨first, last, range⟩
    obtain ⟨order, -⟩ := namespaceRange_eq_some ascending range
    obtain ⟨entry, here, own⟩ :=
      (namespaceRange_places ascending range first).mp ⟨Nat.le_refl first, order⟩
    exact ⟨entry, List.mem_of_getElem? here, own⟩
  · rintro ⟨entry, member, own⟩
    cases range : namespaceRange context ns with
    | none => exact absurd own (namespaceRange_eq_none ascending range entry member)
    | some bounds => exact ⟨bounds.1, bounds.2, rfl⟩

end Ranges

end ShardedGraph
