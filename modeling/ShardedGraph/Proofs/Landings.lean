import ShardedGraph.Proofs.Frequencies
import ShardedGraph.Proofs.Intervals
import ShardedGraph.Proofs.Walks

/-!
# Where steps into a namespace land

A step into a namespace looks for the range of the namespace in the context of a node and draws a
neighbor from it. In an ascending context, which every context of a built graph is, the range holds
the positions of the neighbors of the namespace and no others, and there is one when there are such
neighbors (`namespaceRange_places`, `exists_namespaceRange_iff`).

**One step.** So over tables that draw from ranges a step does one of three things
(`Walker.Landing`): it moves to a neighbor in the namespace, it stays because there is none, or a
kernel of prefix sums refuses a range whose weights do not raise its sums
(`Walker.landing_of_build`). The kernel draws an index of the range, which is all that is needed of
it.

**Walks.** By induction on the hops that are left, every node of a walk along a path lies in the
namespace that is due at its position (`Walker.due_of_hopsFrom`).
-/

set_option autoImplicit false

namespace ShardedGraph

/-! ## Draws from ranges of contexts -/

namespace NeighborTables

variable {graph : Graph} {kind : KernelKind} {tables : NeighborTables} {node : NodeId}
  {context : Context} {first last : Nat}

/-- A draw from a range of a context is refused only by prefix sums that the range does not raise. -/
theorem drawBetween_splits (run : build graph.source kind = .ok tables)
    (ranged : kind.supportsRange = true) (there : graph.context? node = some context)
    (order : first < last) (inside : last ≤ context.length) (stream : WordStream) :
    (∃ drawn later, runFrom (tables.drawBetween node first last) stream = (.ok drawn, later)) ∨
      ∃ table, tables.tables[node]? = some (.prefixSum table) ∧
        ¬Kernel.sumBefore table.sums first < Kernel.sumBefore table.sums last ∧
        runFrom (tables.drawBetween node first last) stream =
          (.error (.noMassInRange first last), stream) := by
  obtain ⟨source, ofKind⟩ := source_of_build run
  have here : tables.source.context? node = some context := by rwa [source]
  unfold drawBetween
  rw [here]
  dsimp only
  rw [if_neg (by omega)]
  cases kind with
  | uniform =>
      rw [if_pos ofKind]
      exact .inl ⟨_, _, rfl⟩
  | prefixSum =>
      obtain ⟨kernel, keyed, built⟩ := kernel_of_build (by decide) run there
      obtain ⟨weights, made, length⟩ := weights_of_buildTable built there
      obtain ⟨table, sums, rfl⟩ := except_map_eq_ok.mp made
      have size : table.size = context.length :=
        (Kernel.PrefixSums.size_of_build sums).trans length
      rw [if_neg (by rw [ofKind]; decide), keyed]
      by_cases raised : Kernel.sumBefore table.sums first < Kernel.sumBefore table.sums last
      · have picks := Kernel.PrefixSums.drawBetween_picks order (size ▸ inside) raised stream
        exact .inl ⟨_, _, runFrom_bind_of_ok picks⟩
      · have refuses := Kernel.PrefixSums.drawBetween_massless order (size ▸ inside) raised stream
        exact .inr ⟨table, rfl, raised, runFrom_bind_of_error refuses⟩
  | aliased => cases ranged
  | unigram => cases ranged

end NeighborTables

/-! ## Steps -/

namespace Walker

/-- What a step into a namespace may give: a neighbor there, nothing where there is none, or a refusal
by prefix sums that the range of the namespace does not raise. -/
inductive Landing (graph : Graph) (tables : NeighborTables) (node : NodeId) (ns : NamespaceId) :
    Except Error (Option NodeId) → Prop
  | moved {next : NodeId} (neighbor : next ∈ graph.neighbors node)
      (lands : namespaceOf next = ns) : Landing graph tables node ns (.ok (some next))
  | stays (nowhere : ∀ next ∈ graph.neighbors node, namespaceOf next ≠ ns) :
      Landing graph tables node ns (.ok none)
  | massless {context : Context} {first last : Nat} {table : Kernel.PrefixSums}
      (there : graph.context? node = some context)
      (range : namespaceRange context ns = some (first, last))
      (keyed : tables.tables[node]? = some (.prefixSum table))
      (flat : ¬Kernel.sumBefore table.sums first < Kernel.sumBefore table.sums last) :
      Landing graph tables node ns (.error (.noMassInRange first last))

variable {graph : Graph} {kind : KernelKind} {tables : NeighborTables} {node : NodeId}
  {ns : NamespaceId} {stream later : WordStream}

/-- **One step.** Whatever the stream, a step does what a step into a namespace may do. -/
theorem landing_of_build (run : NeighborTables.build graph.source kind = .ok tables)
    (ranged : kind.supportsRange = true) (sorted : graph.Sorted) (node : NodeId)
    (ns : NamespaceId) (stream : WordStream) :
    Landing graph tables node ns (runFrom (stepInto tables node ns) stream).1 := by
  have covers := NeighborTables.covers_of_build run
  unfold stepInto
  rw [covers.context? node]
  cases there : graph.context? node with
  | none =>
      refine .stays fun next neighbor => ?_
      rw [Graph.neighbors, there] at neighbor
      cases neighbor
  | some context =>
      have neighbors : graph.neighbors node = context.map Prod.fst := by
        rw [Graph.neighbors, there]
        rfl
      have ascending := sorted node context there
      dsimp only
      cases range : namespaceRange context ns with
      | none =>
          refine .stays fun next neighbor => ?_
          rw [neighbors] at neighbor
          obtain ⟨entry, member, rfl⟩ := List.mem_map.mp neighbor
          exact namespaceRange_eq_none ascending range entry member
      | some bounds =>
          obtain ⟨first, last⟩ := bounds
          obtain ⟨order, inside, places⟩ := namespaceRange_eq_some ascending range
          dsimp only
          rcases NeighborTables.drawBetween_splits run ranged there order inside stream with
            ⟨drawn, later, ran⟩ | ⟨table, keyed, flat, ran⟩
          · obtain ⟨index, entry, low, high, here, rfl⟩ := covers.drawBetween_spec there ran
            rw [ran]
            refine .moved ?_ ((places index entry here).mp ⟨low, high⟩)
            rw [neighbors]
            exact List.mem_map_of_mem (List.mem_of_getElem? here)
          · rw [ran]
            exact .massless there range keyed flat

/-- Every node of a walk along a path lies in the namespace that is due, when steps land where they
should. -/
theorem due_of_hopsFrom {path : List NamespaceId} (along : path ≠ [])
    (lands : ∀ node ns stream next later,
      runFrom (stepInto tables node ns) stream = (.ok (some next), later) → namespaceOf next = ns)
    {left taken : Nat} {hops : List NodeId}
    (run : runFrom (hopsFrom tables path left taken node) stream = (.ok hops, later)) :
    ∀ (index : Nat) next, hops[index]? = some next →
      namespaceOf next = dueNamespace path (taken + index + 1) := by
  induction left generalizing taken node stream hops with
  | zero =>
      cases run
      intro index next here
      cases here
  | succ left ih =>
      obtain ⟨drawn, between, stepped, run⟩ := runFrom_bind_eq_ok run
      cases drawn with
      | none =>
          cases run
          intro index next here
          cases here
      | some next =>
          obtain ⟨rest, _, others, run⟩ := runFrom_bind_eq_ok run
          cases run
          have constrained : step tables path taken node =
              stepInto tables node (dueNamespace path (taken + 1)) :=
            if_neg fun free => along (List.isEmpty_iff.mp free)
          rw [constrained] at stepped
          intro index later here
          cases index with
          | zero =>
              cases here
              exact lands node _ _ _ _ stepped
          | succ index =>
              have due := ih others index later here
              rwa [Nat.add_right_comm taken 1 index] at due

end Walker

/-- **The range of a namespace is exact, and steps land.** In an ascending context a namespace has a
range exactly when some neighbor belongs to it, and then the positions of the range are those of its
neighbors. The contexts of a built graph are ascending. So over tables of this graph that draw from
ranges, and whatever the stream, a step into a namespace that moves lands there; it stays only where
the namespace has no neighbor, and is refused only for want of mass. Every node of a walk along a path
lies in the namespace that is due. -/
theorem namespaceRange_exact :
    (∀ context, Ascending context → ∀ ns,
      ((∃ first last, namespaceRange context ns = some (first, last)) ↔
        ∃ entry ∈ context, namespaceOf entry.1 = ns) ∧
      ∀ first last, namespaceRange context ns = some (first, last) → first < last ∧
        ∀ index, first ≤ index ∧ index < last ↔
          ∃ entry, context[index]? = some entry ∧ namespaceOf entry.1 = ns) ∧
    ∀ namespaces insertions graph, Graph.build namespaces insertions = .ok graph →
      graph.Sorted ∧ ∀ kind tables, kind.supportsRange = true →
        NeighborTables.build graph.source kind = .ok tables →
          (∀ node ns stream,
            Walker.Landing graph tables node ns (runFrom (Walker.stepInto tables node ns) stream).1) ∧
          ∀ path, path ≠ [] → ∀ left taken node stream hops later,
            runFrom (Walker.hopsFrom tables path left taken node) stream = (.ok hops, later) →
              ∀ (index : Nat) next, hops[index]? = some next →
                namespaceOf next = Walker.dueNamespace path (taken + index + 1) := by
  constructor
  · intro context ascending ns
    refine ⟨exists_namespaceRange_iff ascending, fun first last range => ?_⟩
    exact ⟨(namespaceRange_eq_some ascending range).1, namespaceRange_places ascending range⟩
  · intro namespaces insertions graph built
    have sorted := Graph.sorted_of_build built
    refine ⟨sorted, fun kind tables ranged run => ?_⟩
    have landing := Walker.landing_of_build run ranged sorted
    refine ⟨landing, fun path along left taken node stream hops later => ?_⟩
    refine Walker.due_of_hopsFrom along fun node ns stream next later stepped => ?_
    have landed := landing node ns stream
    rw [stepped] at landed
    cases landed with
    | moved neighbor lands => exact lands

/-- Neighbors in two namespaces, and none in the one between. -/
def forkedContext : Context := [(2, .ofNat 1), (5, .ofNat 1), (makeNode 2 3, .ofNat 1)]

/-- The graph of one node with these neighbors. -/
def forkedGraph : Graph :=
  ((Graph.build FrequencyTable.gappedNamespaces [.context 1 forkedContext]).toOption).get
    (by decide +kernel)

theorem context?_forked : forkedGraph.context? 1 = some forkedContext :=
  congrArg some (normalize_of_ascending (by unfold Ascending; decide) (by decide))

/-- Equal weights raise the sums. -/
theorem exists_forkedTables :
    ∃ sums, NeighborTables.build forkedGraph.source .prefixSum = .ok sums := by
  have weights : (Kernel.build .prefixSum ((forkedContext.map Prod.snd).map fun weight =>
      weight / (forkedContext.map Prod.snd).foldl (· + ·) 0)).toOption.isSome = true := by
    decide +kernel
  obtain ⟨kernel, weighed⟩ := Option.isSome_iff_exists.mp weights
  have table : NeighborTables.buildTable forkedGraph.source .prefixSum 1 = .ok kernel := by
    unfold NeighborTables.buildTable
    rw [show forkedGraph.source.context? 1 = some forkedContext from context?_forked]
    exact except_toOption_eq_some.mp weighed
  have other : KernelKind.prefixSum ≠ .uniform := nofun
  exact ⟨_, NeighborTables.build_of_key other rfl table⟩

/-- The last neighbor is alone in its namespace. Uniform tables move there whatever the stream, and so
does a walk along a path over prefix sums, if it moves. -/
theorem namespaceRange_exact_forked :
    Graph.build FrequencyTable.gappedNamespaces [.context 1 forkedContext] = .ok forkedGraph ∧
    forkedGraph.context? 1 = some forkedContext ∧ Ascending forkedContext ∧
    namespaceRange forkedContext 2 = some (2, 3) ∧ namespaceRange forkedContext 1 = none ∧
    ∃ even sums, NeighborTables.build forkedGraph.source .uniform = .ok even ∧
      NeighborTables.build forkedGraph.source .prefixSum = .ok sums ∧
      (∀ stream, ∃ later,
        runFrom (Walker.stepInto even 1 2) stream = (.ok (some (makeNode 2 3)), later)) ∧
      ∀ stream hops later, runFrom (Walker.hopsFrom sums [0, 2] 1 0 1) stream = (.ok hops, later) →
        ∀ next ∈ hops, namespaceOf next = 2 := by
  obtain ⟨ranges, steps⟩ := namespaceRange_exact
  have built : Graph.build FrequencyTable.gappedNamespaces [.context 1 forkedContext] =
      .ok forkedGraph := except_toOption_eq_some.mp (Option.some_get _).symm
  obtain ⟨sorted, steps⟩ := steps _ _ _ built
  have ascending := sorted 1 forkedContext context?_forked
  have range : namespaceRange forkedContext 2 = some (2, 3) := by
    obtain ⟨first, last, range⟩ :=
      (ranges forkedContext ascending 2).1.mpr ⟨(makeNode 2 3, .ofNat 1), by decide, by decide⟩
    have places := ((ranges forkedContext ascending 2).2 first last range).2
    have alone := (places 2).mpr ⟨(makeNode 2 3, .ofNat 1), rfl, by decide⟩
    have before := (places 1).not.mpr (by rintro ⟨_, ⟨⟩, same⟩; revert same; decide)
    have after := (places 3).not.mpr (by rintro ⟨_, ⟨⟩, _⟩)
    rw [range, show first = 2 by omega, show last = 3 by omega]
  have empty : namespaceRange forkedContext 1 = none := by
    cases found : namespaceRange forkedContext 1 with
    | none => rfl
    | some bounds =>
        have nowhere : ¬∃ entry ∈ forkedContext, namespaceOf entry.1 = 1 := by decide
        exact absurd ((ranges forkedContext ascending 1).1.mp ⟨_, _, found⟩) nowhere
  have even : NeighborTables.build forkedGraph.source .uniform =
      .ok ⟨forkedGraph.source, .uniform, ∅⟩ := rfl
  obtain ⟨sums, summed⟩ := exists_forkedTables
  refine ⟨built, context?_forked, ascending, range, empty, _, sums, even, summed, ?_, ?_⟩
  · intro stream
    have landed := (steps .uniform _ rfl even).1 1 2 stream
    generalize runFrom (Walker.stepInto _ 1 2) stream = result at landed ⊢
    obtain ⟨outcome, later⟩ := result
    have neighbors : forkedGraph.neighbors 1 = [2, 5, makeNode 2 3] := by
      rw [Graph.neighbors, context?_forked]
      rfl
    cases landed with
    | moved neighbor lands =>
        simp only [neighbors, List.mem_cons, List.not_mem_nil, or_false] at neighbor
        rcases neighbor with rfl | rfl | rfl
        · exact absurd lands (by decide)
        · exact absurd lands (by decide)
        · exact ⟨later, rfl⟩
    | stays nowhere =>
        rw [neighbors] at nowhere
        exact absurd rfl (nowhere (makeNode 2 3) (by decide))
    | massless there range keyed flat => cases keyed
  · intro stream hops later run next member
    obtain ⟨index, here⟩ := List.getElem?_of_mem member
    have due := (steps .prefixSum sums rfl summed).2 [0, 2] (by decide) 1 0 1 stream hops later run
      index next here
    have few := Walker.length_le_of_hopsFrom run
    obtain ⟨inside, -⟩ := List.getElem?_eq_some_iff.mp here
    rwa [show index = 0 by omega] at due

end ShardedGraph
