import Mathlib.Data.List.Nodup
import Mathlib.Data.List.Perm.Subperm
import ShardedGraph.Negative.Sample

/-!
# The search for namespaces

The namespaces that nodes touch are listed once each, in the order in which they are first seen and
with the first node that has them (`FirstSeen`).

**Where the search ends.** A node whose namespace has no slot is refused, but the search ends when
every slot has been seen. So of such nodes only the first counts, and only when the nodes before it
leave a slot open (`LeavesOpen`, `RefusedAt`). A search that has come to some node has found what is
first seen before it, and this decides how it goes on (`touchFrom_spec`).
-/

set_option autoImplicit false

namespace ShardedGraph

/-! ## Touched namespaces -/

/-- Namespaces of nodes, each once and with a node that has it; every namespace of a node that has
a slot is among them. -/
structure Touches (slots : Nat) (nodes : List NodeId) (touched : List (NamespaceId × NodeId)) :
    Prop where
  distinct : (touched.map Prod.fst).Nodup
  spec : ∀ entry ∈ touched,
    entry.2 ∈ nodes ∧ entry.1 = namespaceOf entry.2 ∧ entry.1.toNat < slots
  complete : ∀ node ∈ nodes, (namespaceOf node).toNat < slots →
    namespaceOf node ∈ touched.map Prod.fst

/-- Touched namespaces in the order in which they are first seen, each with the first node that has
it. -/
structure FirstSeen (slots : Nat) (nodes : List NodeId) (touched : List (NamespaceId × NodeId)) :
    Prop extends Touches slots nodes touched where
  first : ∀ entry ∈ touched, nodes.find? (fun node => namespaceOf node == entry.1) = some entry.2
  ordered : (touched.map fun entry => nodes.idxOf entry.2).Pairwise (· < ·)

/-- Different numbers below a bound are some of all that are below it. -/
theorem subperm_range {α : Type} {items : List α} {number : α → Nat} {bound : Nat}
    (distinct : (items.map number).Nodup) (below : ∀ item ∈ items, number item < bound) :
    List.Subperm (items.map number) (List.range bound) := by
  refine List.subperm_of_subset distinct fun _ member => ?_
  obtain ⟨item, there, rfl⟩ := List.mem_map.mp member
  exact List.mem_range.mpr (below item there)

/-- Different namespaces of slots, as many as there are slots, are those of all slots. -/
theorem exists_of_length_eq {slots : Nat} {namespaces : List NamespaceId}
    (distinct : namespaces.Nodup) (inside : ∀ ns ∈ namespaces, ns.toNat < slots)
    (full : namespaces.length = slots) {slot : Nat} (small : slot < slots) :
    ∃ ns ∈ namespaces, ns.toNat = slot := by
  have numbers := subperm_range (distinct.map fun _ _ same => UInt16.toNat_inj.mp same) inside
  have every := numbers.perm_of_length_le (by simp [full])
  exact List.mem_map.mp (every.mem_iff.mpr (List.mem_range.mpr small))

/-! ## Open slots -/

/-- A node whose namespace has a slot. -/
def hasSlot (slots : Nat) (node : NodeId) : Bool := decide ((namespaceOf node).toNat < slots)

/-- Nodes that leave a slot open, so that a search among them does not end early; no search ends
before it has begun. -/
def LeavesOpen (slots : Nat) (nodes : List NodeId) : Prop :=
  nodes = [] ∨ ∃ slot < slots, ∀ node ∈ nodes, (namespaceOf node).toNat ≠ slot

/-- A node that a search refuses: the first whose namespace has no slot, if the nodes before it
leave a slot open. -/
structure RefusedAt (slots : Nat) (nodes : List NodeId) (node : NodeId) : Prop where
  first : nodes.find? (fun other => !hasSlot slots other) = some node
  reached : LeavesOpen slots (nodes.takeWhile (hasSlot slots))

/-- At most one node is refused. -/
theorem RefusedAt.unique {slots : Nat} {nodes : List NodeId} {node other : NodeId}
    (refused : RefusedAt slots nodes node) (refused' : RefusedAt slots nodes other) :
    node = other :=
  Option.some.inj (refused.first.symm.trans refused'.first)

/-- No node is refused when all namespaces have slots. -/
theorem not_refusedAt_of_inside {slots : Nat} {nodes : List NodeId} {node : NodeId}
    (inside : ∀ node ∈ nodes, hasSlot slots node = true) : ¬RefusedAt slots nodes node := by
  intro refused
  have outside := List.find?_some refused.first
  rw [inside node (List.mem_of_find?_eq_some refused.first)] at outside
  cases outside

namespace FirstSeen

variable {slots : Nat} {seen rest : List NodeId} {node : NodeId}
  {found : List (NamespaceId × NodeId)}

/-- Nothing is seen at first. -/
theorem nil (slots : Nat) : FirstSeen slots [] [] :=
  ⟨⟨by simp, by simp, by simp⟩, by simp, by simp⟩

/-- Nodes that add no namespace change nothing. -/
theorem append (firstSeen : FirstSeen slots seen found)
    (old : ∀ node ∈ rest, (namespaceOf node).toNat < slots →
      namespaceOf node ∈ found.map Prod.fst) :
    FirstSeen slots (seen ++ rest) found := by
  refine ⟨⟨firstSeen.distinct, ?_, ?_⟩, ?_, ?_⟩
  · intro entry member
    obtain ⟨among, others⟩ := firstSeen.spec entry member
    exact ⟨List.mem_append_left _ among, others⟩
  · intro node member small
    exact (List.mem_append.mp member).elim (firstSeen.complete node · small) (old node · small)
  · intro entry member
    rw [List.find?_append, firstSeen.first entry member]
    rfl
  · have same : found.map (fun entry => (seen ++ rest).idxOf entry.2) =
        found.map fun entry => seen.idxOf entry.2 := by
      refine List.map_congr_left fun entry member => ?_
      rw [List.idxOf_append_of_mem (firstSeen.spec entry member).1]
    rw [same]
    exact firstSeen.ordered

/-- A node of a new namespace stands for it. -/
theorem concat (firstSeen : FirstSeen slots seen found)
    (inside : (namespaceOf node).toNat < slots) (fresh : namespaceOf node ∉ found.map Prod.fst) :
    FirstSeen slots (seen ++ [node]) (found ++ [(namespaceOf node, node)]) := by
  have unseen : ∀ other ∈ seen, namespaceOf other ≠ namespaceOf node := fun other member same =>
    fresh (same ▸ firstSeen.complete other member (same ▸ inside))
  have absent : node ∉ seen := fun member => unseen node member rfl
  refine ⟨⟨?_, ?_, ?_⟩, ?_, ?_⟩
  · simpa using List.Nodup.concat fresh firstSeen.distinct
  · intro entry member
    rcases List.mem_append.mp member with before | now
    · obtain ⟨among, others⟩ := firstSeen.spec entry before
      exact ⟨List.mem_append_left _ among, others⟩
    · rw [List.mem_singleton.mp now]
      exact ⟨by simp, rfl, inside⟩
  · intro other member small
    rw [List.map_append, List.mem_append]
    rcases List.mem_append.mp member with before | now
    · exact .inl (firstSeen.complete other before small)
    · exact .inr (by simp [List.mem_singleton.mp now])
  · intro entry member
    rw [List.find?_append]
    rcases List.mem_append.mp member with before | now
    · rw [firstSeen.first entry before]
      rfl
    · have none : seen.find? (fun other => namespaceOf other == namespaceOf node) = none :=
        List.find?_eq_none.mpr fun other there => by simpa using unseen other there
      rw [List.mem_singleton.mp now, none]
      simp
  · have same : found.map (fun entry => (seen ++ [node]).idxOf entry.2) =
        found.map fun entry => seen.idxOf entry.2 := by
      refine List.map_congr_left fun entry member => ?_
      rw [List.idxOf_append_of_mem (firstSeen.spec entry member).1]
    rw [List.map_append, List.map_singleton, same, List.idxOf_append_of_notMem absent]
    refine List.pairwise_append.mpr ⟨firstSeen.ordered, List.pairwise_singleton _ _, ?_⟩
    intro place member last final
    obtain ⟨entry, there, rfl⟩ := List.mem_map.mp member
    rw [List.mem_singleton.mp final]
    exact Nat.lt_of_lt_of_le (List.idxOf_lt_length_of_mem (firstSeen.spec entry there).1)
      (Nat.le_add_right _ _)

theorem inside (firstSeen : FirstSeen slots seen found) :
    ∀ ns ∈ found.map Prod.fst, ns.toNat < slots := by
  intro ns member
  obtain ⟨entry, there, rfl⟩ := List.mem_map.mp member
  exact (firstSeen.spec entry there).2.2

/-- The namespaces that are found are some of those of the slots. -/
theorem numbers (firstSeen : FirstSeen slots seen found) :
    List.Subperm ((found.map Prod.fst).map UInt16.toNat) (List.range slots) :=
  subperm_range (firstSeen.distinct.map fun _ _ same => UInt16.toNat_inj.mp same) firstSeen.inside

/-- When as many namespaces are found as there are slots, every slot is found. -/
theorem mem_of_full (firstSeen : FirstSeen slots seen found) (full : found.length = slots)
    {slot : Nat} (small : slot < slots) : ∃ entry ∈ found, entry.1.toNat = slot := by
  obtain ⟨ns, member, same⟩ :=
    exists_of_length_eq firstSeen.distinct firstSeen.inside (by simpa using full) small
  obtain ⟨entry, there, rfl⟩ := List.mem_map.mp member
  exact ⟨entry, there, same⟩

/-- As long as nothing is found, or not all slots are, the nodes leave one open. -/
theorem leavesOpen (firstSeen : FirstSeen slots seen found)
    (inside : ∀ node ∈ seen, hasSlot slots node = true)
    (more : found = [] ∨ found.length ≠ slots) : LeavesOpen slots seen := by
  have small : ∀ node ∈ seen, (namespaceOf node).toNat < slots := fun node member =>
    of_decide_eq_true (inside node member)
  rcases more with rfl | more
  · refine .inl (List.eq_nil_iff_forall_not_mem.mpr fun node member => ?_)
    exact nomatch firstSeen.complete node member (small node member)
  by_contra closed
  rw [LeavesOpen, not_or] at closed
  have every : List.range slots ⊆ (found.map Prod.fst).map UInt16.toNat := by
    intro slot member
    by_contra missing
    refine closed.2 ⟨slot, List.mem_range.mp member, fun node there same => missing ?_⟩
    exact same ▸ List.mem_map_of_mem (firstSeen.complete node there (small node there))
  have many := (List.subperm_of_subset List.nodup_range every).length_le
  have few := firstSeen.numbers.length_le
  rw [List.length_map, List.length_map, List.length_range] at many few
  exact more (Nat.le_antisymm few many)

/-- When all slots are found, the nodes leave none open. -/
theorem not_leavesOpen (firstSeen : FirstSeen slots seen found) (occupied : seen ≠ [])
    (full : found.length = slots) (rest : List NodeId) : ¬LeavesOpen slots (seen ++ rest) := by
  rintro (nothing | ⟨slot, small, apart⟩)
  · exact occupied (List.append_eq_nil_iff.mp nothing).1
  · obtain ⟨entry, member, same⟩ := firstSeen.mem_of_full full small
    obtain ⟨among, own, _⟩ := firstSeen.spec entry member
    exact apart entry.2 (List.mem_append_left _ among) (own ▸ same)

/-- When all slots are found, no node adds a namespace. -/
theorem full (firstSeen : FirstSeen slots seen found) (full : found.length = slots)
    (rest : List NodeId) : FirstSeen slots (seen ++ rest) found := by
  refine firstSeen.append fun node _ small => ?_
  obtain ⟨entry, member, same⟩ := firstSeen.mem_of_full full small
  exact UInt16.toNat_inj.mp same ▸ List.mem_map_of_mem member

end FirstSeen

/-! ## The search -/

/-- What a search among nodes may come to: the namespaces that are first seen, or the node that is
refused. -/
inductive Searched (slots : Nat) (nodes : List NodeId) :
    Except Error (List (NamespaceId × NodeId)) → Prop
  | found {touched} (firstSeen : FirstSeen slots nodes touched)
      (fine : ∀ node, ¬RefusedAt slots nodes node) : Searched slots nodes (.ok touched)
  | refused {node} (refused : RefusedAt slots nodes node) :
      Searched slots nodes (.error (.namespaceOutside node slots))

/-- A search goes on with what is first seen among the nodes before. -/
theorem touchFrom_spec {slots : Nat} {seen nodes : List NodeId}
    {found : List (NamespaceId × NodeId)} (firstSeen : FirstSeen slots seen found)
    (inside : ∀ node ∈ seen, hasSlot slots node = true)
    (more : found = [] ∨ found.length ≠ slots) :
    Searched slots (seen ++ nodes) (touchFrom slots found nodes) := by
  induction nodes generalizing seen found with
  | nil =>
      rw [List.append_nil]
      exact .found firstSeen fun _ => not_refusedAt_of_inside inside
  | cons node nodes ih =>
      rw [touchFrom]
      dsimp only
      have known : (found.any fun entry => entry.1 == namespaceOf node) = true ↔
          namespaceOf node ∈ found.map Prod.fst := by
        simp [List.any_eq_true, List.mem_map]
      by_cases own : hasSlot slots node = true
      · have small : (namespaceOf node).toNat < slots := of_decide_eq_true own
        have inside' : ∀ other ∈ seen ++ [node], hasSlot slots other = true := by
          intro other member
          exact (List.mem_append.mp member).elim (inside other) fun now =>
            List.mem_singleton.mp now ▸ own
        rw [if_neg (Nat.not_le_of_lt small), List.append_cons]
        split
        · next old =>
          refine ih (firstSeen.append fun other member _ => ?_) inside' more
          exact List.mem_singleton.mp member ▸ known.mp old
        · next new =>
          have firstSeen' := firstSeen.concat small (new ∘ known.mpr)
          split
          · next full =>
            refine .found (firstSeen'.full full nodes) fun other refused => ?_
            have reached := refused.reached
            rw [List.takeWhile_append_of_pos inside'] at reached
            exact firstSeen'.not_leavesOpen (by simp) full _ reached
          · next partly => exact ih firstSeen' inside' (.inr partly)
      · have without : hasSlot slots node = false := eq_false_of_ne_true own
        have none : seen.find? (fun other => !hasSlot slots other) = none :=
          List.find?_eq_none.mpr fun other there => by simp [inside other there]
        rw [if_pos (Nat.le_of_not_lt (of_decide_eq_false without))]
        refine .refused ⟨?_, ?_⟩
        · rw [List.find?_append, none, List.find?_cons, without]
          rfl
        · rw [List.takeWhile_append_of_pos inside, List.takeWhile_cons, without]
          simpa using firstSeen.leavesOpen inside more

/-- A search from the start. -/
theorem touchedNamespaces_spec (slots : Nat) (nodes : List NodeId) :
    Searched slots nodes (touchedNamespaces slots nodes) :=
  touchFrom_spec (FirstSeen.nil slots) (by simp) (.inl rfl)

section Search

variable {slots : Nat} {nodes : List NodeId} {touched : List (NamespaceId × NodeId)}

/-- A search that succeeds finds what is first seen. -/
theorem firstSeen_of_touchedNamespaces (run : touchedNamespaces slots nodes = .ok touched) :
    FirstSeen slots nodes touched := by
  have searched := touchedNamespaces_spec slots nodes
  rw [run] at searched
  cases searched with
  | found firstSeen _ => exact firstSeen

/-- A search fails exactly at a node that is refused. -/
theorem touchedNamespaces_eq_error_iff {error : Error} :
    touchedNamespaces slots nodes = .error error ↔
      ∃ node, RefusedAt slots nodes node ∧ error = .namespaceOutside node slots := by
  have searched := touchedNamespaces_spec slots nodes
  generalize touchedNamespaces slots nodes = result at searched
  cases searched with
  | found _ fine => exact ⟨nofun, fun ⟨node, refused, _⟩ => absurd refused (fine node)⟩
  | @refused node refused =>
      constructor
      · rintro ⟨⟩
        exact ⟨node, refused, rfl⟩
      · rintro ⟨other, refused', rfl⟩
        rw [refused.unique refused']

/-- A search succeeds when every node has a namespace with a slot. -/
theorem exists_touchedNamespaces (inside : ∀ node ∈ nodes, (namespaceOf node).toNat < slots) :
    ∃ touched, touchedNamespaces slots nodes = .ok touched := by
  cases run : touchedNamespaces slots nodes with
  | ok touched => exact ⟨touched, rfl⟩
  | error error =>
      obtain ⟨node, refused, _⟩ := touchedNamespaces_eq_error_iff.mp run
      exact absurd refused (not_refusedAt_of_inside fun node member =>
        decide_eq_true (inside node member))

end Search

end ShardedGraph
