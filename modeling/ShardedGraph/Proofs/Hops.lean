import ShardedGraph.Proofs.Draws
import ShardedGraph.Proofs.Ranges

/-!
# Hops in one graph

A walk may go from a node to a neighbor of it, which must lie in the namespace that is due when
the walk follows a path (`Graph.MayFollow`). Tables that were built over a graph give, for any
chance, such a neighbor, and give none only where there is none (`Walker.step_spec`). For free
walks this is because every index that a kernel draws is an index of the context; for walks
along a path it is because the range that is drawn from holds exactly the neighbors of the
namespace that is due.

By induction on the hops that are left, the hops of a walk follow one another from its start,
and a walk that ends early has come to a node without a way on (`Graph.AreHops`,
`Walker.areHops_of_hopsFrom`).
-/

set_option autoImplicit false

namespace ShardedGraph

/-! ## Ways on -/

namespace Graph

/-- A walk along a path, or a free one when the path is empty, may go from a node to another one
that becomes its node at a position. -/
structure MayFollow (graph : Graph) (path : List NamespaceId) (position : Nat)
    (node next : NodeId) : Prop where
  neighbor : ∃ context, graph.context? node = some context ∧ next ∈ context.map Prod.fst
  due : path ≠ [] → path[position % path.length]? = some (namespaceOf next)

/-- Nodes that follow a node one after the other, the first of them at a position. -/
def Follows (graph : Graph) (path : List NamespaceId) : Nat → NodeId → List NodeId → Prop
  | _, _, [] => True
  | position, node, next :: rest =>
      graph.MayFollow path position node next ∧ Follows graph path (position + 1) next rest

/-- Hops from a node with a number of hops left and a number of hops taken before: each of them
may follow, and there are fewer than that only when the last node has no way on. -/
structure AreHops (graph : Graph) (path : List NamespaceId) (left taken : Nat) (node : NodeId)
    (hops : List NodeId) : Prop where
  follows : graph.Follows path (taken + 1) node hops
  stuck : hops.length < left → ∀ next,
    ¬graph.MayFollow path (taken + hops.length + 1) (hops.getLastD node) next

/-- Every context of a graph is ascending. -/
def Sorted (graph : Graph) : Prop :=
  ∀ node context, graph.context? node = some context → Ascending context

end Graph

/-! ## Neighbor tables -/

namespace NeighborTables

/-- Tables that draw from the contexts of a graph: where they are not uniform, every node with a
context has a kernel that draws indices of the context. -/
structure Covers (tables : NeighborTables) (graph : Graph) : Prop where
  context? : ∀ node, tables.source.context? node = graph.context? node
  kernel : tables.kind ≠ .uniform → ∀ node context, graph.context? node = some context →
    ∃ kernel, tables.tables[node]? = some kernel ∧ kernel.InBounds context.length

variable {tables : NeighborTables} {graph : Graph} {source : Source} {kind : KernelKind}

/-- The kernel of a node has one weight for each neighbor in its context. -/
theorem weights_of_buildTable {node : NodeId} {kernel : Kernel} {context : Context}
    (run : buildTable source kind node = .ok kernel) (there : source.context? node = some context) :
    ∃ weights, Kernel.build kind weights = .ok kernel ∧ weights.length = context.length := by
  unfold buildTable at run
  rw [there] at run
  dsimp only at run
  split at run
  · cases run
  · cases run
  · next found _ same =>
    cases same
    split at run
    · cases run
    · exact ⟨_, run, by rw [List.length_map, List.length_map]⟩

/-- After all keys, every one of them has its kernel. -/
theorem kernels_of_foldlM {keys : List NodeId} {kernels : NodeMap Kernel}
    (run : keys.foldlM (addTable source kind) ∅ = .ok kernels) :
    ∀ node ∈ keys, ∃ kernel, kernels[node]? = some kernel ∧
      buildTable source kind node = .ok kernel := by
  have all := foldlM_keeps
    (fun rest (kernels : NodeMap Kernel) => ∀ node ∈ keys, node ∈ rest ∨
      ∃ kernel, kernels[node]? = some kernel ∧ buildTable source kind node = .ok kernel)
    (by
      intro item rest before after kept step node member
      obtain ⟨kernel, built, added⟩ := except_bind_eq_ok.mp step
      cases added
      by_cases same : item = node
      · subst same
        exact .inr ⟨kernel, Std.ExtTreeMap.getElem?_insert_self, built⟩
      · have different : ¬compare item node = .eq := fun equal =>
          same (Std.LawfulEqOrd.eq_of_compare equal)
        rw [Std.ExtTreeMap.getElem?_insert, if_neg different]
        rcases kept node member with there | done
        · exact .inl ((List.mem_cons.mp there).resolve_left (Ne.symm same))
        · exact .inr done)
    (fun node member => .inl member) run
  intro node member
  exact (all node member).resolve_left (List.not_mem_nil)

theorem build_eq_of_ne_uniform (graph : Graph) (other : kind ≠ .uniform) :
    build graph.source kind =
      graph.keys.foldlM (addTable graph.source kind) ∅ >>= fun kernels =>
        .ok ⟨graph.source, kind, kernels⟩ := by
  cases kind with
  | uniform => exact absurd rfl other
  | aliased => rfl
  | unigram => rfl
  | prefixSum => rfl

/-- Tables that are not uniform have a kernel for every key. -/
theorem build_of_ne_uniform (other : kind ≠ .uniform)
    (run : build graph.source kind = .ok tables) :
    ∃ kernels, graph.keys.foldlM (addTable graph.source kind) ∅ = .ok kernels ∧
      tables = ⟨graph.source, kind, kernels⟩ := by
  rw [build_eq_of_ne_uniform graph other] at run
  obtain ⟨kernels, fold, equal⟩ := except_bind_eq_ok.mp run
  exact ⟨kernels, fold, (Except.ok.inj equal).symm⟩

/-- Over a graph with one key, tables that are not uniform are built with the kernel of this key. -/
theorem build_of_key (other : kind ≠ .uniform) {node : NodeId} {kernel : Kernel}
    (keys : graph.keys = [node]) (built : buildTable graph.source kind node = .ok kernel) :
    build graph.source kind = .ok ⟨graph.source, kind, (∅ : NodeMap Kernel).insert node kernel⟩ := by
  rw [build_eq_of_ne_uniform graph other, keys, List.foldlM_cons, addTable, built]
  rfl

/-- In tables that are not uniform, a node with a context has the kernel that is built for it. -/
theorem kernel_of_build (other : kind ≠ .uniform) (run : build graph.source kind = .ok tables)
    {node : NodeId} {context : Context} (there : graph.context? node = some context) :
    ∃ kernel, tables.tables[node]? = some kernel ∧
      buildTable graph.source kind node = .ok kernel := by
  obtain ⟨kernels, fold, rfl⟩ := build_of_ne_uniform other run
  refine kernels_of_foldlM fold node ?_
  rw [Graph.keys, Std.ExtTreeMap.mem_keys, Std.ExtTreeMap.mem_iff_isSome_getElem?]
  exact Option.isSome_of_eq_some there

/-- Built tables keep their source and their kind. -/
theorem source_of_build (run : build graph.source kind = .ok tables) :
    tables.source = graph.source ∧ tables.kind = kind := by
  by_cases uniform : kind = .uniform
  · subst uniform
    cases run
    exact ⟨rfl, rfl⟩
  · obtain ⟨kernels, -, rfl⟩ := build_of_ne_uniform uniform run
    exact ⟨rfl, rfl⟩

/-- Tables that are built from a graph draw from its contexts. -/
theorem covers_of_build (run : build graph.source kind = .ok tables) : tables.Covers graph := by
  obtain ⟨source, same⟩ := source_of_build run
  refine ⟨fun node => congrFun (congrArg Source.context? source) node, ?_⟩
  intro other node context there
  obtain ⟨kernel, keyed, built⟩ := kernel_of_build (same ▸ other) run there
  obtain ⟨weights, made, length⟩ := weights_of_buildTable built there
  exact ⟨kernel, keyed, length ▸ Kernel.inBounds_of_build made⟩

/-! ## Draws of neighbors -/

variable {node : NodeId} {stream later : WordStream}

/-- At every position of a context stands a neighbor. -/
theorem exists_neighbor {context : Context} {index : Nat} (inside : index < context.length) :
    ∃ next, (context[index]?).map Prod.fst = some next ∧ next ∈ context.map Prod.fst := by
  rw [List.getElem?_eq_getElem inside]
  exact ⟨_, rfl, List.mem_map_of_mem (List.getElem_mem inside)⟩

/-- A draw gives a neighbor, unless there is none. -/
theorem Covers.draw_spec (covers : tables.Covers graph) (node : NodeId) (stream : WordStream) :
    (∃ next context, ((tables.draw node).run stream).1 = some next ∧
        graph.context? node = some context ∧ next ∈ context.map Prod.fst) ∨
      ((tables.draw node).run stream).1 = none ∧
        ∀ context, graph.context? node = some context → context = [] := by
  unfold draw
  rw [covers.context? node]
  cases there : graph.context? node with
  | none => exact .inr ⟨rfl, fun context some => nomatch some⟩
  | some context =>
      cases context with
      | nil => exact .inr ⟨rfl, fun context same => (Option.some.inj same).symm⟩
      | cons entry rest =>
          refine .inl ?_
          dsimp only
          split
          · have inside : ((WordStream.below (entry :: rest).length).run stream).1 <
                (entry :: rest).length := WordStream.below_lt (Nat.succ_pos _) stream
            obtain ⟨next, here, among⟩ := exists_neighbor inside
            exact ⟨next, _, here, rfl, among⟩
          · next other =>
            obtain ⟨kernel, keyed, bounds⟩ := covers.kernel other node _ there
            rw [keyed]
            obtain ⟨next, here, among⟩ := exists_neighbor (bounds.draw stream)
            exact ⟨next, _, here, rfl, among⟩

/-- A draw from a range of a context gives the neighbor at a position of the range. -/
theorem Covers.drawBetween_spec (covers : tables.Covers graph) {context : Context}
    {first last : Nat} {drawn : Option NodeId} (there : graph.context? node = some context)
    (run : runFrom (tables.drawBetween node first last) stream = (.ok drawn, later)) :
    ∃ index entry, first ≤ index ∧ index < last ∧ context[index]? = some entry ∧
      drawn = some entry.1 := by
  -- An index of the range gives the neighbor that stands there.
  have pick : ∀ index, first ≤ index → index < last → last ≤ context.length →
      drawn = (context[index]?).map Prod.fst → ∃ index entry, first ≤ index ∧ index < last ∧
        context[index]? = some entry ∧ drawn = some entry.1 := by
    intro index low high inside equal
    have here := List.getElem?_eq_getElem (Nat.lt_of_lt_of_le high inside)
    exact ⟨index, _, low, high, here, by rw [equal, here]; rfl⟩
  unfold drawBetween at run
  rw [covers.context? node, there] at run
  dsimp only at run
  split at run
  · cases run
  · next range =>
    split at run
    · obtain ⟨index, _, between, run⟩ := runFrom_bind_eq_ok run
      have bounds := WordStream.between_bounds (Nat.lt_of_not_le fun le => range (.inl le)) stream
      cases between
      cases run
      exact pick _ bounds.1 bounds.2 (by omega) rfl
    · next other =>
      obtain ⟨kernel, keyed, within⟩ := covers.kernel other node context there
      rw [keyed] at run
      obtain ⟨index, _, between, run⟩ := runFrom_bind_eq_ok run
      have bounds := within.drawBetween first last stream index _ between
      cases run
      exact pick index bounds.1 bounds.2 (by omega) rfl

end NeighborTables

/-! ## Hops -/

namespace Walker

variable {tables : NeighborTables} {graph : Graph} {path : List NamespaceId}
  {node : NodeId} {stream later : WordStream}

/-- The namespace that is due at a position is the one of the path. -/
theorem getElem?_dueNamespace (path : List NamespaceId) (along : path ≠ []) {hops : Nat}
    (small : hops < UInt64.size) : path[hops % path.length]? = some (dueNamespace path hops) := by
  have inside : hops % path.length < path.length := Nat.mod_lt _ (List.length_pos_iff.mpr along)
  rw [dueNamespace, Nat.mod_eq_of_lt small, List.getD_eq_getElem?_getD,
    List.getElem?_eq_getElem inside]
  rfl

/-- A step goes on to a node that may follow, and ends a walk only where none may. -/
theorem step_spec (covers : tables.Covers graph) (sorted : graph.Sorted) {hops : Nat}
    (small : hops + 1 < UInt64.size) {drawn : Option NodeId}
    (run : runFrom (step tables path hops node) stream = (.ok drawn, later)) :
    (∃ next, drawn = some next ∧ graph.MayFollow path (hops + 1) node next) ∨
      drawn = none ∧ ∀ next, ¬graph.MayFollow path (hops + 1) node next := by
  unfold step at run
  split at run
  · next free =>
    have nothing : path = [] := List.isEmpty_iff.mp free
    subst nothing
    have drawn_eq : ((tables.draw node).run stream).1 = drawn :=
      Except.ok.inj (congrArg Prod.fst run)
    rcases covers.draw_spec node stream with ⟨next, context, here, there, among⟩ | ⟨here, empty⟩
    · refine .inl ⟨next, drawn_eq.symm.trans here, ⟨context, there, among⟩, ?_⟩
      exact fun along => absurd rfl along
    · refine .inr ⟨drawn_eq.symm.trans here, fun next follows => ?_⟩
      obtain ⟨context, there, among⟩ := follows.neighbor
      rw [empty context there] at among
      cases among
  · next along =>
    have along : path ≠ [] := fun empty => along (by rw [empty]; rfl)
    have due := getElem?_dueNamespace path along small
    unfold stepInto at run
    rw [covers.context? node] at run
    split at run
    · next nowhere =>
      cases run
      refine .inr ⟨rfl, fun next follows => ?_⟩
      obtain ⟨context, there, _⟩ := follows.neighbor
      rw [nowhere] at there
      cases there
    · next context there =>
      split at run
      · next missing =>
        cases run
        refine .inr ⟨rfl, fun next follows => ?_⟩
        obtain ⟨found, there', among⟩ := follows.neighbor
        cases there.symm.trans there'
        obtain ⟨entry, member, rfl⟩ := List.mem_map.mp among
        refine namespaceRange_eq_none (sorted node context there) missing entry member ?_
        exact (Option.some.inj (due.symm.trans (follows.due along))).symm
      · next first last range =>
        obtain ⟨_, _, places⟩ := namespaceRange_eq_some (sorted node context there) range
        obtain ⟨index, entry, low, high, here, rfl⟩ := covers.drawBetween_spec there run
        refine .inl ⟨entry.1, rfl, ⟨context, there, ?_⟩, fun _ => ?_⟩
        · exact List.mem_map_of_mem (List.mem_of_getElem? here)
        · rw [due, (places index entry here).mp ⟨low, high⟩]

/-- The hops of a walk follow one another and end early only where there is no way on. -/
theorem areHops_of_hopsFrom (covers : tables.Covers graph) (sorted : graph.Sorted)
    {left taken : Nat} (small : taken + left < UInt64.size) {hops : List NodeId}
    (run : runFrom (hopsFrom tables path left taken node) stream = (.ok hops, later)) :
    graph.AreHops path left taken node hops := by
  induction left generalizing taken node stream hops with
  | zero =>
      cases run
      exact ⟨trivial, fun short => absurd short (Nat.lt_irrefl _)⟩
  | succ left ih =>
      obtain ⟨drawn, between, stepped, run⟩ := runFrom_bind_eq_ok run
      rcases step_spec covers sorted (by omega) stepped with ⟨next, rfl, follows⟩ | ⟨rfl, nowhere⟩
      · obtain ⟨rest, _, others, run⟩ := runFrom_bind_eq_ok run
        cases run
        have tail := ih (by omega) others
        refine ⟨⟨follows, tail.follows⟩, fun short => ?_⟩
        have stuck := tail.stuck (Nat.lt_of_succ_lt_succ short)
        rw [List.length_cons, List.getLastD_cons]
        rwa [Nat.add_right_comm taken 1 rest.length] at stuck
      · cases run
        exact ⟨trivial, fun _ => nowhere⟩

/-- There are at most as many hops as are left. -/
theorem length_le_of_hopsFrom {left taken : Nat} {hops : List NodeId}
    (run : runFrom (hopsFrom tables path left taken node) stream = (.ok hops, later)) :
    hops.length ≤ left := by
  induction left generalizing taken node stream hops with
  | zero =>
      cases run
      exact Nat.le_refl _
  | succ left ih =>
      obtain ⟨drawn, between, _, run⟩ := runFrom_bind_eq_ok run
      cases drawn with
      | none =>
          cases run
          exact Nat.zero_le _
      | some next =>
          obtain ⟨rest, _, others, run⟩ := runFrom_bind_eq_ok run
          cases run
          exact Nat.succ_le_succ (ih others)

/-! ## All starts -/

section Traverse

variable {walker : Walker} {starts : List NodeId} {lengths offsets : List Nat}
  {lists : List (List NodeId)}

/-- A walk that has no room for its hops stops before the first one. -/
theorem runFrom_walkFrom (tables : NeighborTables) (path : List NamespaceId) (length taken : Nat)
    (start : NodeId) (stream : WordStream) :
    runFrom (walkFrom tables path length taken start) stream =
      if listLimit < length then (.error (.walkTooLong length), stream)
      else runFrom (hopsFrom tables path length taken start) stream := by
  unfold walkFrom
  split
  · rfl
  · rfl

/-- A walker draws hops from every start, and has room for them. -/
theorem hopsFrom_of_traverse
    (run : runFrom (walker.traverse starts lengths offsets path) stream = (.ok lists, later)) :
    starts.length = lengths.length ∧ lists.length = starts.length ∧
      ∀ (index : Nat) start length hops, starts[index]? = some start →
        lengths[index]? = some length → lists[index]? = some hops →
          length ≤ listLimit ∧ ∃ before after,
            runFrom (hopsFrom walker.tables path length (offsets.getD index 0) start) before =
              (.ok hops, after) := by
  unfold traverse at run
  by_cases sizes : starts.length ≠ lengths.length ∨ (offsets ≠ [] ∧ offsets.length ≠ starts.length)
  · rw [if_pos sizes] at run
    obtain ⟨_, _, failed, _⟩ := runFrom_bind_eq_ok run
    cases failed
  rw [if_neg sizes] at run
  dsimp only at run
  split at run
  · obtain ⟨_, _, failed, _⟩ := runFrom_bind_eq_ok run
    cases failed
  have counts : starts.length = lengths.length := not_not.mp fun other => sizes (.inl other)
  obtain ⟨length, places⟩ := forall₂_iff_getElem?.mp (forall₂_of_runFrom_mapM run)
  rw [List.length_zipIdx, List.length_zip, ← counts, Nat.min_self] at length
  refine ⟨counts, length.symm, fun index start length hops first second third => ?_⟩
  have pair : (starts.zip lengths)[index]? = some (start, length) :=
    List.getElem?_zip_eq_some.mpr ⟨first, second⟩
  have entry : (starts.zip lengths).zipIdx[index]? = some ((start, length), index) := by
    rw [List.getElem?_zipIdx, pair, Option.map_some, Nat.zero_add]
  obtain ⟨before, after, walked⟩ := places index _ hops entry third
  dsimp only at walked
  rw [runFrom_walkFrom] at walked
  split at walked
  · cases walked
  · next room => exact ⟨Nat.le_of_not_lt room, before, after, walked⟩

/-- There was room for the hops from every start. -/
theorem le_listLimit_of_traverse
    (run : runFrom (walker.traverse starts lengths offsets path) stream = (.ok lists, later)) :
    ∀ length ∈ lengths, length ≤ listLimit := by
  obtain ⟨counts, given, walked⟩ := hopsFrom_of_traverse run
  intro length member
  obtain ⟨index, second⟩ := List.getElem?_of_mem member
  obtain ⟨inside, _⟩ := List.getElem?_eq_some_iff.mp second
  rw [← counts] at inside
  exact (walked index _ length _ (List.getElem?_eq_getElem inside) second
    (List.getElem?_eq_getElem (Nat.lt_of_lt_of_eq inside given.symm))).1

/-- No list of hops is longer than it should be. -/
theorem length_le_of_traverse
    (run : runFrom (walker.traverse starts lengths offsets path) stream = (.ok lists, later))
    {index length : Nat} {hops : List NodeId} (second : lengths[index]? = some length)
    (third : lists[index]? = some hops) : hops.length ≤ length := by
  obtain ⟨counts, _, walked⟩ := hopsFrom_of_traverse run
  obtain ⟨inside, _⟩ := List.getElem?_eq_some_iff.mp second
  obtain ⟨_, _, _, run⟩ := walked index _ length hops
    (List.getElem?_eq_getElem (Nat.lt_of_lt_of_eq inside counts.symm)) second third
  exact length_le_of_hopsFrom run

/-- The hops from every start follow one another and end early only where there is no way on. -/
theorem areHops_of_traverse (covers : walker.tables.Covers graph) (sorted : graph.Sorted)
    (small : ∀ (index : Nat) length, lengths[index]? = some length →
      offsets.getD index 0 + length < UInt64.size)
    (run : runFrom (walker.traverse starts lengths offsets path) stream = (.ok lists, later))
    {index length : Nat} {start : NodeId} {hops : List NodeId}
    (first : starts[index]? = some start) (second : lengths[index]? = some length)
    (third : lists[index]? = some hops) :
    graph.AreHops path length (offsets.getD index 0) start hops := by
  obtain ⟨_, _, walked⟩ := hopsFrom_of_traverse run
  obtain ⟨_, _, _, run⟩ := walked index start length hops first second third
  exact areHops_of_hopsFrom covers sorted (small index length second) run

end Traverse

end Walker

end ShardedGraph
