import ShardedGraph.Proofs.RoutedDraws
import ShardedGraph.Proofs.Sources

/-!
# Neighbors that are drawn

How many neighbors of a node are asked for, and how many it has, decides how they are sampled
(`NeighborTables.IsNeighborDraw`). All of them are listed in order, without a draw, when their
number is asked for, or any negative number. Fewer are all different and can be drawn; more may
repeat. What is sampled for one node after the other is said of each of them with the stream that it
is drawn from (`Chained`), and nothing but the check of the whole batch is added to it
(`NeighborTables.sample_regimes`).

**As many as can be drawn.** A kernel over the context of a node draws only what it can draw
(`Kernel.isHonest_of_build`). So different neighbors that are drawn are never more than its support,
and they are fewer than asked for and than its support only when all draws that may be made were
made.
-/

set_option autoImplicit false

namespace ShardedGraph

/-! ## One after the other -/

/-- Values of items, of which each is computed from the state that the one before has left. -/
inductive Chained {α β S : Type} (step : α → S → β → S → Prop) :
    List α → S → List β → S → Prop where
  | nil (state : S) : Chained step [] state [] state
  | cons {item : α} {items : List α} {value : β} {values : List β} {before between after : S}
      (first : step item before value between) (others : Chained step items between values after) :
      Chained step (item :: items) before (value :: values) after

theorem Chained.length_eq {α β S : Type} {step : α → S → β → S → Prop} {items : List α}
    {values : List β} {before after : S} (chained : Chained step items before values after) :
    items.length = values.length := by
  induction chained with
  | nil => rfl
  | cons _ _ ih => exact congrArg Nat.succ ih

/-- What every step from every state comes to, a run of steps comes to one after the other. -/
theorem chained_run_mapM {α β S : Type} {step : α → S → β → S → Prop} {f : α → StateM S β}
    (each : ∀ item before, step item before ((f item).run before).1 ((f item).run before).2)
    (items : List α) (before : S) :
    Chained step items before ((items.mapM f).run before).1 ((items.mapM f).run before).2 := by
  induction items generalizing before with
  | nil => exact .nil before
  | cons item items ih =>
      rw [List.mapM_cons]
      exact .cons (each item before) (ih _)

/-- A node is one of as many as there are words. -/
theorem length_le_of_nodup {nodes : List NodeId} (distinct : nodes.Nodup) :
    nodes.length ≤ UInt64.size := by
  have numbers := subperm_range (distinct.map fun _ _ same => UInt64.toNat_inj.mp same)
    fun node _ => node.toNat_lt
  simpa using numbers.length_le

namespace NeighborTables

variable {graph : Graph} {kind : KernelKind} {tables : NeighborTables} {node : NodeId}
  {context : Context}

/-! ## What is drawn can be drawn -/

/-- A node with neighbors is drawn one of those that can be drawn. -/
theorem exists_draw_of_build (run : build graph.source kind = .ok tables)
    (there : graph.context? node = some context) (distinct : (context.map Prod.fst).Nodup)
    (occupied : context ≠ []) {drawable : List NodeId}
    (found : tables.drawable? node = some drawable) (stream : WordStream) :
    ∃ next later, tables.draw node stream = (some next, later) ∧ next ∈ drawable := by
  obtain ⟨source, same⟩ := source_of_build run
  have here : tables.source.context? node = some context := by rwa [source]
  by_cases uniform : kind = .uniform
  · rw [drawable?_of_uniform here (same.trans uniform)] at found
    cases found
    exact (covers_of_build run).exists_draw there occupied stream
  · obtain ⟨kernel, keyed, built⟩ := kernel_of_build uniform run there
    obtain ⟨weights, made, length⟩ := weights_of_buildTable built there
    have few : weights.length ≤ UInt64.size := by
      simpa [length] using length_le_of_nodup distinct
    have inside := (length ▸ Kernel.inBounds_of_build made).draw stream
    have reached := (Kernel.isHonest_of_build made few).reachable stream
    have drawn : tables.draw node stream =
        ((context[(kernel.draw.run stream).1]?).map Prod.fst, (kernel.draw.run stream).2) := by
      obtain ⟨entry, rest, rfl⟩ := List.exists_cons_of_ne_nil occupied
      simp only [draw, here, same, if_neg uniform, keyed]
      rfl
    rw [List.getElem?_eq_getElem inside] at drawn
    refine ⟨_, _, drawn, ?_⟩
    rw [drawable?_of_kernel here (same ▸ uniform) keyed] at found
    cases found
    refine List.mem_map.mpr
      ⟨(context[(kernel.draw.run stream).1], (kernel.draw.run stream).1), ?_, rfl⟩
    exact List.mem_filter.mpr
      ⟨List.mk_mem_zipIdx_iff_getElem?.mpr (List.getElem?_eq_getElem inside), reached⟩

/-! ## Samples of one node -/

/-- All draws that may be made for a number of neighbors were made, and gave none but the listed
ones. -/
structure Exhausts (tables : NeighborTables) (node : NodeId) (count : Nat) (before : WordStream)
    (list : List NodeId) (after : WordStream) : Prop where
  spent : after =
    ((Attempt.replicate (count * drawsPerNeighbor) (tables.draw node)).run before).2
  only : ∀ drawn ∈ ((Attempt.replicate (count * drawsPerNeighbor) (tables.draw node)).run before).1,
    ∃ next ∈ list, drawn = some next

/-- What is sampled of the neighbors of a node from a stream, and the stream that it leaves. A node
without a context has nothing to sample. All neighbors are listed when their number is asked for, or
a negative one. Of fewer, as many different ones are found as were asked for and can be drawn, unless
the draws are exhausted. Of more, there are as many as were asked for, except where there is no
neighbor at all. -/
structure IsNeighborDraw (tables : NeighborTables) (graph : Graph) (count : Int) (node : NodeId)
    (before : WordStream) (list : List NodeId) (after : WordStream) : Prop where
  absent : graph.context? node = none → list = [] ∧ after = before
  isolated : graph.context? node = some [] → list = []
  all : ∀ context, graph.context? node = some context → count < 0 ∨ count = context.length →
    list = context.map Prod.fst ∧ after = before
  fewer : ∀ context, graph.context? node = some context → 0 ≤ count → count < context.length →
    ∃ drawable, tables.drawable? node = some drawable ∧
      drawable.Sublist (context.map Prod.fst) ∧ list.Nodup ∧ list ⊆ drawable ∧
        (list.length = min count.toNat (tables.support node) ∨
          list.length < min count.toNat (tables.support node) ∧
            tables.Exhausts node count.toNat before list after)
  more : ∀ context, graph.context? node = some context → context ≠ [] → context.length < count →
    list.length = count.toNat ∧ ∀ next ∈ list, next ∈ context.map Prod.fst

/-- There is room for the budget of draws unless very many neighbors are asked for. -/
theorem drawBudget_eq {count : Nat} (small : count < 2 ^ 31) :
    drawBudget count = count * drawsPerNeighbor := by
  refine Nat.min_eq_left ?_
  rw [drawsPerNeighbor, UInt64.size]
  omega

/-- Fewer neighbors than there are: different ones that can be drawn, as many as there are of them
or as were asked for, unless the draws are exhausted. -/
theorem spec_of_sampleDistinct (run : build graph.source kind = .ok tables)
    (there : graph.context? node = some context) (distinct : (context.map Prod.fst).Nodup)
    (occupied : context ≠ []) {count : Nat} (small : count < 2 ^ 31) (before : WordStream) :
    ∃ drawable, tables.drawable? node = some drawable ∧
      drawable.Sublist (context.map Prod.fst) ∧
      ((tables.sampleDistinct node count).run before).1.Nodup ∧
      ((tables.sampleDistinct node count).run before).1 ⊆ drawable ∧
      (((tables.sampleDistinct node count).run before).1.length = min count (tables.support node) ∨
        ((tables.sampleDistinct node count).run before).1.length <
            min count (tables.support node) ∧
          tables.Exhausts node count before ((tables.sampleDistinct node count).run before).1
            ((tables.sampleDistinct node count).run before).2) := by
  obtain ⟨drawable, found, sublist, size⟩ := exists_drawable run there
  refine ⟨drawable, found, sublist, ?_⟩
  by_cases few : tables.support node ≤ count
  · have given : (tables.sampleDistinct node count).run before = (drawable, before) := by
      rw [sampleDistinct, if_pos few, found]
      rfl
    rw [given]
    exact ⟨distinct.sublist sublist, List.Subset.refl _,
      .inl (size.trans (Nat.min_eq_right few).symm)⟩
  · have given : (tables.sampleDistinct node count).run before =
        (collect (tables.draw node) count (count * drawsPerNeighbor) []).run before := by
      rw [sampleDistinct, if_neg few, drawBudget_eq small]
    rw [given, Nat.min_eq_left (Nat.le_of_not_le few)]
    have draws := exists_draw_of_build run there distinct occupied found
    have only : ∀ stream next later, tables.draw node stream = (some next, later) →
        next ∈ drawable := by
      intro stream next later drawn
      obtain ⟨_, _, drawn', among⟩ := draws stream
      cases drawn.symm.trans drawn'
      exact among
    have room : count * drawsPerNeighbor ≠ 0 → ([] : List NodeId).length < count := fun some =>
      Nat.pos_of_ne_zero fun none => some (by rw [none, Nat.zero_mul])
    obtain ⟨apart, most, among⟩ := @collect_spec _ _ _ [] before _ only List.nodup_nil
      (Nat.zero_le count) room (by simp)
    refine ⟨apart, among, (Nat.eq_or_lt_of_le most).imp_right fun short => ⟨short, ?_⟩⟩
    obtain ⟨spent, others⟩ := collect_of_short
      (fun stream => (draws stream).imp fun _ => Exists.imp fun _ => And.left) short
    exact ⟨spent, others⟩

/-- The number that is asked for decides how a context is sampled. -/
theorem sampleFor_of_some {count : Int} (here : tables.source.context? node = some context) :
    tables.sampleFor count node =
      if count < 0 ∨ count = context.length then pure (context.map Prod.fst)
      else if count < context.length then tables.sampleDistinct node count.toNat
      else tables.sampleRepeated node count.toNat := by
  simp only [sampleFor, here]

/-- Whatever the stream, what built tables give for a node is sampled of its neighbors. -/
theorem isNeighborDraw_of_build (run : build graph.source kind = .ok tables)
    (distinct : graph.Distinct) {count : Int} (small : count < 2 ^ 31) (node : NodeId)
    (before : WordStream) :
    tables.IsNeighborDraw graph count node before
      ((tables.sampleFor count node).run before).1
      ((tables.sampleFor count node).run before).2 := by
  have sample := isNeighborSample_of_build run distinct count node before
  have context? := (covers_of_build run).context? node
  constructor
  · intro none
    simp only [sampleFor, context?, none]
    exact ⟨rfl, rfl⟩
  · intro empty
    rw [empty] at sample
    exact List.eq_nil_iff_forall_not_mem.mpr fun next member =>
      absurd (sample.neighbor next member) List.not_mem_nil
  · intro context there asked
    rw [sampleFor_of_some (context?.trans there), if_pos asked]
    exact ⟨rfl, rfl⟩
  · intro context there least fewer
    rw [sampleFor_of_some (context?.trans there), if_neg (by omega), if_pos fewer]
    have occupied : context ≠ [] := by
      rintro rfl
      exact absurd fewer (Int.not_lt.mpr least)
    exact spec_of_sampleDistinct run there (distinct node context there) occupied (by omega) before
  · intro context there occupied more
    rw [there] at sample
    exact ⟨sample.repeated occupied (Int.le_of_lt more), sample.neighbor⟩

/-! ## Samples of a batch -/

/-- A batch is refused when something is asked for and all lists are empty. -/
theorem requireNeighbors_map (count : Int) (lists : List (List NodeId)) :
    (requireNeighbors count lists).map (fun _ => lists) =
      if count ≠ 0 ∧ lists ≠ [] ∧ ∀ list ∈ lists, list = [] then .error (.noNeighbors lists.length)
      else .ok lists := by
  have every : lists.all List.isEmpty = true ↔ ∀ list ∈ lists, list = [] := by
    simp [List.all_eq_true]
  simp only [requireNeighbors, every]
  split
  · rfl
  · rfl

/-- **Samples of neighbors.** Let tables be built over a graph that was built. Whatever is asked for
and whatever the stream, the lists that they give for some nodes are sampled of the neighbors of each
node, one after the other. A call that checks the batch gives the same lists and leaves the same
stream, and fails exactly when something is asked for, some node is, and all lists are empty. -/
theorem sample_regimes {namespaces : NamespaceTable} {insertions : List Insertion}
    (built : Graph.build namespaces insertions = .ok graph)
    (run : build graph.source kind = .ok tables) (count : Int32) (nodes : List NodeId)
    (stream : WordStream) :
    ∃ lists later, (tables.samplePartial count.toInt nodes).run stream = (lists, later) ∧
      Chained (tables.IsNeighborDraw graph count.toInt) nodes stream lists later ∧
      runFrom (tables.sample count.toInt nodes) stream =
        (if count ≠ 0 ∧ nodes ≠ [] ∧ ∀ list ∈ lists, list = [] then
          .error (.noNeighbors nodes.length)
        else .ok lists, later) := by
  have distinct := Graph.distinct_of_build built
  have small : count.toInt < 2 ^ 31 := count.toInt_lt
  have chained := chained_run_mapM
    (fun node before => isNeighborDraw_of_build run distinct small node before) nodes stream
  refine ⟨_, _, rfl, chained, ?_⟩
  have length := chained.length_eq
  have asked : count.toInt ≠ 0 ↔ count ≠ 0 := by
    rw [Ne, Ne, ← Int32.toInt_inj, Int32.toInt_zero]
  have some : ((tables.samplePartial count.toInt nodes).run stream).1 ≠ [] ↔ nodes ≠ [] := by
    rw [← List.length_pos_iff, ← List.length_pos_iff, length]
    rfl
  rw [runFrom_sample, requireNeighbors_map]
  simp only [asked, some]
  rw [length]
  rfl

/-- Three neighbors are drawn for a node that has one, and none for a node without a context. -/
theorem sample_regimes_mixed :
    ∃ graph, Graph.build .single (Graph.ownedInsertions 2 0 mixedInsertions) = .ok graph ∧
      build graph.source .uniform = .ok evenPartition.neighbors ∧
      ∃ later,
        Chained (evenPartition.neighbors.IsNeighborDraw graph (3 : Int32).toInt) [2, 4] (.cycle #[7])
          [[1, 1, 1], []] later ∧
        runFrom (evenPartition.neighbors.sample (3 : Int32).toInt [2, 4]) (.cycle #[7]) =
          (.ok [[1, 1, 1], []], later) := by
  obtain ⟨graph, built, made⟩ := @build_of_mixed 0 _ rfl
  have run := (Partition.made_of_build made).neighbors
  obtain ⟨lists, later, drawn, chained, sampled⟩ := sample_regimes built run 3 [2, 4] (.cycle #[7])
  have same : lists = [[1, 1, 1], []] :=
    (congrArg Prod.fst drawn).symm.trans (by decide +kernel)
  subst same
  rw [if_neg (by decide)] at sampled
  exact ⟨graph, built, run, later, chained, sampled⟩

end NeighborTables

end ShardedGraph
