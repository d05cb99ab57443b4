import ShardedGraph.Proofs.Regimes

/-!
# Tables fit the lists that they index

Tables are built once, and the lists that they index are looked up at every call. A draw takes the
entry at the index that its table gives. This module says that the two fit (`tables_aligned`).

**Candidates.** Whatever is asked of a namespace is refused as its candidates are refused, and with
the same error. When there are candidates, there is a table with one weight for each of them, so
nothing is refused for want of a table, and every index that is drawn is one of a candidate that can
be drawn (`NegativePools.IsAligned`). This needs that the slots of a source hold as many frequencies
as nodes, which both graphs and accepted tables of frequencies do.

**Neighbors.** A node that has neighbors has a table with one weight for each of them. A draw gives
a neighbor, and one that is listed among those that can be drawn (`NeighborTables.IsAligned`).
-/

set_option autoImplicit false

namespace ShardedGraph

namespace NegativePools

/-- What is asked of a namespace fits its candidates. Where these are refused, so is everything
else, with the same error and without a draw. Otherwise there is a table, or none for uniform pools;
the support counts the places of candidates that can be drawn; and a draw, at any place that the
table gives, takes a candidate that stands there and can be drawn. -/
structure IsAligned (pools : NegativePools) (ns : NamespaceId) : Prop where
  refused : ∀ error, pools.candidates ns = .error error →
    pools.support ns = .error error ∧ (∀ index, pools.isDrawable ns index = .error error) ∧
      ∀ node, namespaceOf node = ns → ∀ stream,
        runFrom (pools.draw node) stream = (.error error, stream)
  served : ∀ candidates, pools.candidates ns = .ok candidates →
    ∃ (table : Option Kernel) (drawable : Nat → Bool), pools.table ns = .ok table ∧
      (∀ index, pools.isDrawable ns index = .ok (drawable index)) ∧
      pools.support ns = .ok ((List.range candidates.length).countP drawable) ∧
      ∀ node, namespaceOf node = ns → ∀ stream,
        let drawn := (table.getD (.uniform candidates.length)).draw.run stream
        ∃ next, candidates[drawn.1]? = some next ∧ drawable drawn.1 = true ∧
          runFrom (pools.draw node) stream = (.ok next, drawn.2)

variable {source : Source} {kind : KernelKind} {pools : NegativePools}

/-- Pools that are built from a source that is made are aligned, in every namespace. -/
theorem isAligned_of_build (made : source.IsMade) (built : build source kind = .ok pools)
    (ns : NamespaceId) : pools.IsAligned ns where
  refused error refused := by
    refine ⟨?_, fun index => ?_, ?_⟩
    · rw [NegativePools.support, refused]
      rfl
    · rw [NegativePools.isDrawable, refused]
      rfl
    · rintro node rfl stream
      have listed : runFrom (liftM (pools.candidates (namespaceOf node))) stream =
          (.error error, stream) := by rw [runFrom_liftM, refused]
      exact runFrom_bind_of_error listed
  served candidates listed := by
    obtain ⟨table, keyed, isPool⟩ := exists_table made.isSound built listed
    refine ⟨table, _, keyed, isPool.isDrawable, ?_, fun node own stream => ?_⟩
    · rw [isPool.support, isPool.honest.counts, isPool.size]
      rfl
    · have there := List.getElem?_eq_getElem (isPool.inside stream)
      refine ⟨_, there, isPool.honest.reachable stream, ?_⟩
      rw [isPool.run_draw node own, List.getD_eq_getElem?_getD, there]
      rfl

end NegativePools

namespace NeighborTables

/-- What is asked of a node fits its context. The neighbors that can be drawn are listed in the
order of the context, as many as the support says, and every draw gives one of them. -/
structure IsAligned (tables : NeighborTables) (node : NodeId) (context : Context)
    (drawable : List NodeId) : Prop where
  listed : tables.drawable? node = some drawable
  inside : drawable.Sublist (context.map Prod.fst)
  counts : drawable.length = tables.support node
  drawn : ∀ stream, ∃ next later, (tables.draw node).run stream = (some next, later) ∧
    next ∈ drawable

/-- Tables that are built over a graph are aligned, at every node with neighbors. -/
theorem exists_isAligned {namespaces : NamespaceTable} {insertions : List Insertion}
    {graph : Graph} {kind : KernelKind} {tables : NeighborTables}
    (made : Graph.build namespaces insertions = .ok graph)
    (built : build graph.source kind = .ok tables) {node : NodeId} {context : Context}
    (there : graph.context? node = some context) (occupied : context ≠ []) :
    ∃ drawable, tables.IsAligned node context drawable := by
  obtain ⟨drawable, listed, inside, counts⟩ := exists_drawable built there
  have distinct := Graph.distinct_of_build made node context there
  exact ⟨drawable, listed, inside, counts,
    exists_draw_of_build built there distinct occupied listed⟩

end NeighborTables

/-- **Tables fit the lists that they index.** Let pools be built from a graph that was built or from
a table of frequencies that was accepted, with kernels of any kind. Then the support, the test for a
place and every draw of a namespace are refused exactly when its candidates are, and with their
error; otherwise each draw takes a candidate that can be drawn from its place, and the support is
the number of places that pass the test. Let tables of neighbors be built over a graph that was
built. Then every draw for a node with neighbors gives one that is listed among those that can be
drawn, and as many are listed as the support says. -/
theorem tables_aligned :
    (∀ (source : Source) (kind : KernelKind) (pools : NegativePools), source.IsMade →
      NegativePools.build source kind = .ok pools → ∀ ns, pools.IsAligned ns) ∧
    ∀ (namespaces : NamespaceTable) (insertions : List Insertion) (graph : Graph)
      (kind : KernelKind) (tables : NeighborTables),
      Graph.build namespaces insertions = .ok graph →
      NeighborTables.build graph.source kind = .ok tables →
      ∀ node context, graph.context? node = some context → context ≠ [] →
        ∃ drawable, tables.IsAligned node context drawable :=
  ⟨fun _ _ _ made built => NegativePools.isAligned_of_build made built,
    fun _ _ _ _ _ made built _ _ => NeighborTables.exists_isAligned made built⟩

/-! ### Gaps and light neighbors -/

/-- Three nodes of one namespace and none of another one; the number between has no name. -/
def gappedTable : FrequencyTable :=
  ⟨FrequencyTable.gappedNamespaces, [[1, 2, 3], [], []], [[.ofNat 1, .ofNat 1, .ofNat 1], [], []]⟩

/-- Uniform pools of these nodes. -/
def gappedPools : NegativePools := ⟨gappedTable.source, .uniform, []⟩

/-- Three neighbors, of which the middle one is too light to raise the sums. -/
def lightContext : Context :=
  [(1, .ofNat 1152921504606846976), (2, .ofNat 1), (3, .ofNat 1152921504606846976)]

/-- The graph of one node with these neighbors. -/
def lightGraph : Graph :=
  (Graph.build .single [.context 0 lightContext]).toOption.get (by decide +kernel)

/-- The sums of their weights. -/
def lightKernel : Kernel :=
  (Kernel.build .prefixSum ((lightContext.map Prod.snd).map fun weight =>
    weight / (lightContext.map Prod.snd).foldl (· + ·) 0)).toOption.get (by decide +kernel)

/-- Tables that draw by these sums. -/
def lightTables : NeighborTables :=
  ⟨lightGraph.source, .prefixSum, (∅ : NodeMap Kernel).insert 0 lightKernel⟩

theorem context?_light : lightGraph.context? 0 = some lightContext :=
  congrArg some (normalize_of_ascending (by unfold Ascending; decide) (by decide))

theorem build_lightTables : NeighborTables.build lightGraph.source .prefixSum = .ok lightTables := by
  have table : NeighborTables.buildTable lightGraph.source .prefixSum 0 = .ok lightKernel := by
    unfold NeighborTables.buildTable
    rw [show lightGraph.source.context? 0 = some lightContext from context?_light]
    exact except_toOption_eq_some.mp (Option.some_get _).symm
  have other : KernelKind.prefixSum ≠ .uniform := nofun
  exact NeighborTables.build_of_key other rfl table

theorem drawable?_light : lightTables.drawable? 0 = some [1, 3] := by
  have keyed : lightTables.tables[(0 : NodeId)]? = some lightKernel :=
    Std.ExtTreeMap.getElem?_insert_self
  rw [NeighborTables.drawable?, show lightTables.source.context? 0 = some lightContext from
    context?_light, keyed]
  exact congrArg some (by decide +kernel)

/-- Of three candidates in uniform pools one is drawn, and one is in pools of any other kind that are
built from their frequencies; what is asked of a namespace without a name, or without nodes, is
refused as its candidates are. Of three neighbors, the one that does not raise the sums is neither
drawn nor listed nor counted. -/
theorem tables_aligned_light :
    gappedTable.source.IsMade ∧
    NegativePools.build gappedTable.source .uniform = .ok gappedPools ∧
    gappedPools.candidates 0 = .ok [1, 2, 3] ∧ gappedPools.support 0 = .ok 3 ∧
    (∀ stream, ∃ next ∈ ([1, 2, 3] : List NodeId), ∃ later,
      runFrom (gappedPools.draw 2) stream = (.ok next, later)) ∧
    (∀ stream, runFrom (gappedPools.draw (makeNode 1 0)) stream =
      (.error (.unconfiguredNamespace 1), stream)) ∧
    gappedPools.support 2 = .error (.noCandidates 2) ∧
    (∀ kind pools, NegativePools.build gappedTable.source kind = .ok pools →
      ∀ stream, ∃ next ∈ ([1, 2, 3] : List NodeId), ∃ later,
        runFrom (pools.draw 2) stream = (.ok next, later)) ∧
    Graph.build .single [.context 0 lightContext] = .ok lightGraph ∧
    NeighborTables.build lightGraph.source .prefixSum = .ok lightTables ∧
    lightGraph.context? 0 = some lightContext ∧ lightContext ≠ [] ∧
    lightTables.drawable? 0 = some [1, 3] ∧ lightTables.support 0 = 2 ∧
    ∀ stream, ∃ next ∈ ([1, 3] : List NodeId),
      ((lightTables.draw 0).run stream).1 = some next := by
  obtain ⟨pools, neighbors⟩ := tables_aligned
  have made : gappedTable.source.IsMade :=
    @Source.IsMade.table gappedTable.namespaces gappedTable.nodes gappedTable.frequencies
      gappedTable rfl
  have built : NegativePools.build gappedTable.source .uniform = .ok gappedPools := rfl
  have aligned := pools _ _ _ made built
  have draws : ∀ kind pools', NegativePools.build gappedTable.source kind = .ok pools' →
      ∀ stream, ∃ next ∈ ([1, 2, 3] : List NodeId), ∃ later,
        runFrom (pools'.draw 2) stream = (.ok next, later) := by
    intro kind pools' built' stream
    have listed' : pools'.candidates 0 = .ok [1, 2, 3] := by
      rw [NegativePools.candidates, (NegativePools.source_of_build built').1]
      decide +kernel
    obtain ⟨table, test, -, -, -, drawn⟩ := (pools _ kind pools' made built' 0).served _ listed'
    obtain ⟨next, place, -, run⟩ := drawn 2 (by decide +kernel) stream
    exact ⟨next, List.mem_of_getElem? place, _, run⟩
  have listed : gappedPools.candidates 0 = .ok [1, 2, 3] := by decide +kernel
  have unconfigured : gappedPools.candidates 1 = .error (.unconfiguredNamespace 1) := by
    decide +kernel
  have vacant : gappedPools.candidates 2 = .error (.noCandidates 2) := by decide +kernel
  obtain ⟨-, -, nowhere⟩ := (aligned 1).refused _ unconfigured
  obtain ⟨nothing, -⟩ := (aligned 2).refused _ vacant
  have graph : Graph.build .single [.context 0 lightContext] = .ok lightGraph :=
    except_toOption_eq_some.mp (Option.some_get _).symm
  obtain ⟨drawable, fits⟩ :=
    neighbors _ _ _ _ _ graph build_lightTables 0 _ context?_light (List.cons_ne_nil _ _)
  obtain rfl : [1, 3] = drawable := Option.some.inj (drawable?_light.symm.trans fits.listed)
  refine ⟨made, built, listed, by decide +kernel, draws _ _ built, nowhere _ (by decide +kernel),
    nothing, draws, graph, build_lightTables, context?_light, List.cons_ne_nil _ _, drawable?_light,
    fits.counts.symm, fun stream => ?_⟩
  obtain ⟨next, later, run, member⟩ := fits.drawn stream
  exact ⟨next, member, congrArg Prod.fst run⟩

end ShardedGraph
