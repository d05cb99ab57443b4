import Mathlib.Data.List.Nodup
import ShardedGraph.Neighbor.Sample
import ShardedGraph.Proofs.Hops
import ShardedGraph.Proofs.Splitting
import ShardedGraph.Proofs.Supports

/-!
# Samples of neighbors

A sample of the neighbors of a node is said in terms of its context and of the number asked for
(`IsNeighborSample`): all neighbors in the order of the context, or different ones and at most as
many as asked for, or as many draws as asked for. Which neighbors are drawn depends on the kernel
of the node. That they are a sample does not (`NeighborTables.isNeighborSample_of_build`).

**Fewer than asked for.** Different neighbors are collected from a bounded number of draws, so there
may be fewer of them than asked for and than can be drawn. Then all draws have given neighbors that
are in the sample (`NeighborTables.collect_of_short`).

**Neighbors are different** because a built context names each of them once (`nodup_normalize`). So
the neighbors that can be drawn are different as well, and their number is the support of the
kernel, which has one index for every neighbor (`Kernel.size_of_build`).

**Tables of a part.** The kernel of a node is built from the context of this node alone, and a
sample from the kernel and the context. Tables of the same kind over a graph and over a part of it
give the same samples for the nodes of the part (`NeighborTables.sampleFor_of_build`).
-/

set_option autoImplicit false

namespace ShardedGraph

/-! ## Contexts -/

/-- Adding equal neighbors of an ascending context up leaves every neighbor once. -/
theorem nodup_mergeEqual {context : Context} (ascending : Ascending context) :
    ((mergeEqual context).map Prod.fst).Nodup := by
  fun_induction mergeEqual context with
  | case1 => exact List.nodup_nil
  | case2 entry => exact List.nodup_singleton entry.1
  | case3 first second rest same ih => exact ih (ascending.merged same _)
  | case4 first second rest different ih =>
      refine List.nodup_cons.mpr ⟨fun again => ?_, ih ascending.tail⟩
      exact ascending.not_mem different ((mergeEqual_sublist _).subset again)

/-- A built context names every neighbor once. -/
theorem nodup_normalize (context : Context) : ((normalize context).map Prod.fst).Nodup :=
  nodup_mergeEqual (ascending_mergeSort context)

namespace Graph

/-- Every context of a graph names each neighbor once. -/
def Distinct (graph : Graph) : Prop :=
  ∀ node context, graph.context? node = some context → (context.map Prod.fst).Nodup

theorem distinct_of_build {namespaces : NamespaceTable} {insertions : List Insertion}
    {graph : Graph} (run : build namespaces insertions = .ok graph) : graph.Distinct := by
  intro node context there
  rw [(answers_of_build run node).1, Option.map_eq_some_iff] at there
  obtain ⟨said, -, rfl⟩ := there
  exact nodup_normalize said

end Graph

/-! ## Counting -/

/-- As many entries have a marked index as there are marked indices. -/
theorem length_filter_zipIdx {α : Type} (items : List α) (test : Nat → Bool) :
    (items.zipIdx.filter fun entry => test entry.2).length =
      Kernel.countBelow items.length test := by
  have indices : items.zipIdx.map Prod.snd = List.range items.length := by
    rw [List.zipIdx_map_snd, List.range_eq_range']
  rw [Kernel.countBelow, ← indices, List.countP_map, List.countP_eq_length_filter]
  rfl

namespace NeighborTables

variable {graph : Graph} {kind : KernelKind} {tables : NeighborTables} {node : NodeId}
  {context : Context}

/-- All neighbors can be drawn with equal chances. -/
theorem drawable?_of_uniform (here : tables.source.context? node = some context)
    (uniform : tables.kind = .uniform) :
    tables.drawable? node = some (context.map Prod.fst) := by
  simp [drawable?, here, uniform]

/-- Neighbors whose indices are reachable for the kernel of a node can be drawn. -/
theorem drawable?_of_kernel (here : tables.source.context? node = some context)
    (other : tables.kind ≠ .uniform) {kernel : Kernel} (keyed : tables.tables[node]? = some kernel) :
    tables.drawable? node = some ((context.zipIdx.filter fun entry =>
      kernel.isReachable entry.2).map fun entry => entry.1.1) := by
  simp [drawable?, here, other, keyed]

/-- The neighbors that can be drawn are some of the context, as many as the support says. -/
theorem exists_drawable (run : build graph.source kind = .ok tables)
    (there : graph.context? node = some context) :
    ∃ drawable, tables.drawable? node = some drawable ∧
      drawable.Sublist (context.map Prod.fst) ∧ drawable.length = tables.support node := by
  obtain ⟨source, same⟩ := source_of_build run
  have here : tables.source.context? node = some context := by rwa [source]
  by_cases uniform : kind = .uniform
  · refine ⟨_, drawable?_of_uniform here (same.trans uniform), List.Sublist.refl _, ?_⟩
    simp [support, here, same, uniform]
  · obtain ⟨kernel, keyed, built⟩ := kernel_of_build uniform run there
    obtain ⟨weights, made, length⟩ := weights_of_buildTable built there
    have size := (Kernel.size_of_build made).trans length
    refine ⟨_, drawable?_of_kernel here (same ▸ uniform) keyed, ?_, ?_⟩
    · have entries : (context.zipIdx.map fun entry => entry.1.1) = context.map Prod.fst := by
        rw [← List.zipIdx_map_fst 0 context, List.map_map, List.zipIdx_map_fst]
        rfl
      rw [← entries]
      exact List.filter_sublist.map _
    · rw [List.length_map, length_filter_zipIdx, ← size]
      simp [support, same, uniform, keyed, Kernel.support_eq_of_build made, Kernel.countBelow]

/-- Of a node with neighbors some can be drawn. -/
theorem support_pos (run : build graph.source kind = .ok tables)
    (there : graph.context? node = some context) (occupied : context ≠ []) :
    0 < tables.support node := by
  obtain ⟨source, same⟩ := source_of_build run
  have here : tables.source.context? node = some context := by rwa [source]
  by_cases uniform : kind = .uniform
  · simpa [support, here, same, uniform] using List.length_pos_iff.mpr occupied
  · obtain ⟨kernel, keyed, built⟩ := kernel_of_build uniform run there
    obtain ⟨weights, made, -⟩ := weights_of_buildTable built there
    simpa [support, same, uniform, keyed] using Kernel.support_pos_of_build made

/-! ## Draws of several neighbors -/

/-- The neighbors that were found, and one more unless it is among them. -/
def noting (found : List NodeId) (node : NodeId) : List NodeId :=
  if found.contains node then found else found ++ [node]

theorem nodup_noting {found : List NodeId} (distinct : found.Nodup) (node : NodeId) :
    (noting found node).Nodup := by
  unfold noting
  split
  · exact distinct
  · next fresh =>
    have fresh : node ∉ found := by simpa using fresh
    simpa using List.Nodup.concat fresh distinct

theorem length_noting (found : List NodeId) (node : NodeId) :
    found.length ≤ (noting found node).length ∧
      (noting found node).length ≤ found.length + 1 := by
  unfold noting
  split
  · exact ⟨Nat.le_refl _, Nat.le_succ _⟩
  · simp

theorem mem_noting {found : List NodeId} {node other : NodeId} :
    other ∈ noting found node ↔ other ∈ found ∨ other = node := by
  unfold noting
  split
  · next old =>
    have old : node ∈ found := by simpa using old
    exact ⟨.inl, fun either => either.elim id fun same => same ▸ old⟩
  · simp

section Collect

variable {draw : Draw (Option NodeId)} {count budget : Nat} {found : List NodeId}
  {stream later : WordStream} {node : NodeId}

/-- A draw that gives nothing ends a collection. -/
theorem collect_of_none (drawn : draw stream = (none, later)) :
    (collect draw count (budget + 1) found).run stream = (found, later) := by
  dsimp only [collect, StateT.run]
  rw [drawn]

/-- A neighbor that is drawn is noted, and the collection goes on while some are missing. -/
theorem collect_of_some (drawn : draw stream = (some node, later)) :
    (collect draw count (budget + 1) found).run stream =
      if (noting found node).length = count then (noting found node, later)
      else (collect draw count budget (noting found node)).run later := by
  dsimp only [collect, StateT.run]
  rw [drawn]
  rfl

/-- Different neighbors that are collected stay different, and no more than were asked for. -/
theorem collect_spec (drawable : NodeId → Prop)
    (draws : ∀ stream node later, draw stream = (some node, later) → drawable node)
    (distinct : found.Nodup) (few : found.length ≤ count)
    (room : budget ≠ 0 → found.length < count) (spec : ∀ node ∈ found, drawable node) :
    ((collect draw count budget found).run stream).1.Nodup ∧
      ((collect draw count budget found).run stream).1.length ≤ count ∧
      ∀ node ∈ ((collect draw count budget found).run stream).1, drawable node := by
  induction budget generalizing found stream with
  | zero => exact ⟨distinct, few, spec⟩
  | succ budget ih =>
      rcases drawn : draw stream with ⟨_ | node, later⟩
      · rw [collect_of_none drawn]
        exact ⟨distinct, few, spec⟩
      have distinct' := nodup_noting distinct node
      have few' : (noting found node).length ≤ count :=
        Nat.le_trans (length_noting found node).2 (room (Nat.succ_ne_zero budget))
      have spec' : ∀ other ∈ noting found node, drawable other := by
        intro other member
        rcases mem_noting.mp member with before | rfl
        · exact spec other before
        · exact draws stream other later drawn
      rw [collect_of_some drawn]
      split
      · exact ⟨distinct', few', spec'⟩
      · next fewer => exact ih distinct' few' (fun _ => Nat.lt_of_le_of_ne few' fewer) spec'

/-- Neighbors that were found stay. -/
theorem subset_collect : found ⊆ ((collect draw count budget found).run stream).1 := by
  induction budget generalizing found stream with
  | zero => exact List.Subset.refl _
  | succ budget ih =>
      rcases drawn : draw stream with ⟨_ | node, later⟩
      · rw [collect_of_none drawn]
        exact List.Subset.refl _
      have grown : found ⊆ noting found node := fun _ member => mem_noting.mpr (.inl member)
      rw [collect_of_some drawn]
      split
      · exact grown
      · exact List.Subset.trans grown ih

/-- When a neighbor is drawn, something is collected. -/
theorem collect_ne_nil (drawn : draw stream = (some node, later)) (some : budget ≠ 0) :
    ((collect draw count budget []).run stream).1 ≠ [] := by
  obtain ⟨budget, rfl⟩ := Nat.exists_eq_succ_of_ne_zero some
  have first : noting [] node = [node] := rfl
  rw [collect_of_some drawn, first]
  split
  · exact List.cons_ne_nil _ _
  · exact List.ne_nil_of_mem (subset_collect (List.mem_singleton.mpr rfl))

/-- Drawing once more than a number of times is a draw, and that number of draws after it. -/
theorem run_replicate_succ {drawn : Option NodeId} (first : draw stream = (drawn, later))
    (budget : Nat) :
    (Attempt.replicate (budget + 1) draw).run stream =
      (drawn :: ((Attempt.replicate budget draw).run later).1,
        ((Attempt.replicate budget draw).run later).2) := by
  have first : draw.run stream = (drawn, later) := first
  rw [Attempt.replicate, List.replicate_succ, List.mapM_cons, StateT.run_bind, first]
  rfl

/-- When fewer are collected than were asked for, all draws were made and none has given another
one. -/
theorem collect_of_short (draws : ∀ stream, ∃ node later, draw stream = (some node, later))
    (short : ((collect draw count budget found).run stream).1.length < count) :
    ((collect draw count budget found).run stream).2 =
        ((Attempt.replicate budget draw).run stream).2 ∧
      ∀ drawn ∈ ((Attempt.replicate budget draw).run stream).1,
        ∃ next ∈ ((collect draw count budget found).run stream).1, drawn = some next := by
  induction budget generalizing found stream with
  | zero => exact ⟨rfl, fun drawn member => absurd member List.not_mem_nil⟩
  | succ budget ih =>
      obtain ⟨node, later, drawn⟩ := draws stream
      rw [collect_of_some drawn] at short ⊢
      by_cases enough : (noting found node).length = count
      · rw [if_pos enough] at short
        exact absurd enough (Nat.ne_of_lt short)
      · rw [if_neg enough] at short ⊢
        rw [run_replicate_succ drawn]
        obtain ⟨spent, others⟩ := ih short
        refine ⟨spent, List.forall_mem_cons.mpr ⟨⟨node, ?_, rfl⟩, others⟩⟩
        exact subset_collect (mem_noting.mpr (.inr rfl))

end Collect

/-- When every draw gives a neighbor, there are as many as were asked for. -/
theorem repeatDraw_spec {draw : Draw (Option NodeId)} (drawable : NodeId → Prop)
    (draws : ∀ stream, ∃ node later, draw stream = (some node, later) ∧ drawable node) {count : Nat}
    {done : List NodeId} {stream : WordStream} (spec : ∀ node ∈ done, drawable node) :
    (repeatDraw draw count done stream).1.length = done.length + count ∧
      ∀ node ∈ (repeatDraw draw count done stream).1, drawable node := by
  induction count generalizing done stream with
  | zero => exact ⟨List.length_reverse, fun node member => spec node (List.mem_reverse.mp member)⟩
  | succ count ih =>
      obtain ⟨node, later, drawn, fine⟩ := draws stream
      dsimp only [repeatDraw]
      rw [drawn]
      obtain ⟨length, others⟩ := @ih (node :: done) later (List.forall_mem_cons.mpr ⟨fine, spec⟩)
      refine ⟨length.trans ?_, others⟩
      rw [List.length_cons, Nat.add_right_comm, Nat.add_assoc]

end NeighborTables

/-! ## Samples -/

/-- With some chance, all draws that may be made for a number of neighbors give listed ones. -/
def NeighborTables.DrawsOnly (tables : NeighborTables) (node : NodeId) (count : Nat)
    (listed : List NodeId) : Prop :=
  ∃ chance, ∀ drawn ∈ ((Attempt.replicate (NeighborTables.drawBudget count)
    (tables.draw node)).run chance).1, ∃ next ∈ listed, drawn = some next

/-- What a sample of the context of a node is when a number of neighbors is asked for. All neighbors
are given in order when the number is negative or the length of the context. When it is smaller,
different ones are given, as many as were asked for or as can be drawn; they are fewer only when all
draws that may be made have given no others. When it is larger, as many are given as were asked for,
perhaps some of them again. Something is given when there is something and something is asked
for. -/
structure IsNeighborSample (tables : NeighborTables) (node : NodeId) (context : Context)
    (count : Int) (sample : List NodeId) : Prop where
  neighbor : ∀ next ∈ sample, next ∈ context.map Prod.fst
  all : count < 0 ∨ count = context.length → sample = context.map Prod.fst
  distinct : count ≤ context.length → sample.Nodup
  atMost : 0 ≤ count → sample.length ≤ count.toNat
  short : 0 ≤ count → count < context.length →
    sample.length < min count.toNat (tables.support node) →
      tables.DrawsOnly node count.toNat sample
  repeated : context ≠ [] → context.length ≤ count → sample.length = count.toNat
  occupied : context ≠ [] → count ≠ 0 → sample ≠ []

section Sample

variable {tables : NeighborTables} {node : NodeId} {context : Context} {count : Int}
  {sample : List NodeId}

/-- Nothing is a sample of a context that is empty. -/
theorem isNeighborSample_nil (tables : NeighborTables) (node : NodeId) (count : Int) :
    IsNeighborSample tables node [] count [] where
  neighbor := by simp
  all _ := rfl
  distinct _ := List.nodup_nil
  atMost _ := Nat.zero_le _
  short least fewer := absurd fewer (Int.not_lt.mpr least)
  repeated some := absurd rfl some
  occupied some := absurd rfl some

/-- All neighbors are a sample when they are asked for. -/
theorem isNeighborSample_all (tables : NeighborTables) (node : NodeId)
    (distinct : (context.map Prod.fst).Nodup) (asked : count < 0 ∨ count = context.length) :
    IsNeighborSample tables node context count (context.map Prod.fst) where
  neighbor _ member := member
  all _ := rfl
  distinct _ := distinct
  atMost least := by
    rw [List.length_map]
    omega
  short least fewer := by omega
  repeated _ most := by
    rw [List.length_map]
    omega
  occupied some _ := by
    rwa [Ne, List.map_eq_nil_iff]

/-- There is nothing exactly when there are no neighbors, if something is asked for. -/
theorem IsNeighborSample.eq_nil_iff (isSample : IsNeighborSample tables node context count sample)
    (asked : count ≠ 0) : sample = [] ↔ context = [] := by
  constructor
  · exact fun nothing => Decidable.byContradiction fun some => isSample.occupied some asked nothing
  · rintro rfl
    exact List.eq_nil_iff_forall_not_mem.mpr fun next member =>
      absurd (isSample.neighbor next member) List.not_mem_nil

end Sample

namespace NeighborTables

variable {graph : Graph} {kind : KernelKind} {tables : NeighborTables} {node : NodeId}
  {context : Context}

/-- There is a budget of draws exactly when something is asked for. -/
theorem drawBudget_ne_zero {count : Nat} : drawBudget count ≠ 0 ↔ count ≠ 0 := by
  constructor
  · rintro some rfl
    exact some (by rw [drawBudget, Nat.zero_mul, Nat.zero_min])
  · intro some
    have draws : 0 < count * drawsPerNeighbor :=
      Nat.mul_pos (Nat.pos_of_ne_zero some) (by decide)
    exact Nat.ne_of_gt (Nat.lt_min.mpr ⟨draws, by decide⟩)

section Neighbors

variable (covers : tables.Covers graph) (there : graph.context? node = some context)
include covers there

/-- Of a node with neighbors one is drawn. -/
theorem Covers.exists_draw (occupied : context ≠ []) (stream : WordStream) :
    ∃ next later, tables.draw node stream = (some next, later) ∧ next ∈ context.map Prod.fst := by
  rcases covers.draw_spec node stream with ⟨next, _, here, there', among⟩ | ⟨-, empty⟩
  · cases there.symm.trans there'
    exact ⟨next, _, Prod.ext here rfl, among⟩
  · exact absurd (empty context there) occupied

/-- Draws that may repeat are a sample when more neighbors are asked for than there are. -/
theorem Covers.isNeighborSample_sampleRepeated {count : Int} (more : context.length < count)
    (stream : WordStream) :
    IsNeighborSample tables node context count
      ((tables.sampleRepeated node count.toNat).run stream).1 := by
  by_cases occupied : context = []
  · subst occupied
    have drawn : tables.draw node stream = (none, stream) := by
      unfold draw
      rw [covers.context? node, there]
      rfl
    have nothing : ((tables.sampleRepeated node count.toNat).run stream).1 = [] := by
      unfold sampleRepeated
      cases count.toNat with
      | zero => rfl
      | succ count =>
          dsimp only [repeatDraw, StateT.run]
          rw [drawn]
          rfl
    rw [nothing]
    exact isNeighborSample_nil tables node count
  · obtain ⟨length, among⟩ := @repeatDraw_spec _ _ (covers.exists_draw there occupied) count.toNat
      [] stream (by simp)
    have length : ((tables.sampleRepeated node count.toNat).run stream).1.length = count.toNat :=
      length.trans (Nat.zero_add _)
    exact
      { neighbor := among
        all := by omega
        distinct := by omega
        atMost := fun _ => Nat.le_of_eq length
        short := by omega
        repeated := fun _ _ => length
        occupied := fun _ _ => List.length_pos_iff.mp (by omega) }

end Neighbors

/-- Different neighbors are a sample when fewer of them are asked for than there are. -/
theorem isNeighborSample_sampleDistinct (run : build graph.source kind = .ok tables)
    (there : graph.context? node = some context) (distinct : (context.map Prod.fst).Nodup)
    {count : Int} (least : 0 ≤ count) (fewer : count < context.length) (stream : WordStream) :
    IsNeighborSample tables node context count
      ((tables.sampleDistinct node count.toNat).run stream).1 := by
  have occupied : context ≠ [] := by
    rintro rfl
    exact absurd fewer (Int.not_lt.mpr least)
  by_cases few : tables.support node ≤ count.toNat
  · obtain ⟨drawable, found, sublist, size⟩ := exists_drawable run there
    rw [sampleDistinct, if_pos few, found]
    have given : drawable.length ≠ 0 := size ▸ Nat.ne_of_gt (support_pos run there occupied)
    exact
      { neighbor := fun next member => sublist.subset member
        all := by omega
        distinct := fun _ => distinct.sublist sublist
        atMost := fun _ => Nat.le_trans (Nat.le_of_eq size) few
        short := fun _ _ (short : drawable.length < _) => absurd short (by omega)
        repeated := by omega
        occupied := fun _ _ nothing => given (List.length_eq_zero_iff.mpr nothing) }
  · have draws := (covers_of_build run).exists_draw there occupied
    have only : ∀ stream next later, tables.draw node stream = (some next, later) →
        next ∈ context.map Prod.fst := by
      intro stream next later drawn
      obtain ⟨_, _, drawn', among⟩ := draws stream
      cases drawn.symm.trans drawn'
      exact among
    obtain ⟨apart, most, among⟩ := @collect_spec _ _ _ [] stream _ only List.nodup_nil
      (Nat.zero_le count.toNat) (fun some => Nat.pos_of_ne_zero (drawBudget_ne_zero.mp some))
      (by simp)
    obtain ⟨_, _, drawn, _⟩ := draws stream
    rw [sampleDistinct, if_neg few]
    exact
      { neighbor := among
        all := by omega
        distinct := fun _ => apart
        atMost := fun _ => most
        short := fun _ _ short => ⟨stream, (collect_of_short
          (fun stream => (draws stream).imp fun _ => Exists.imp fun _ => And.left)
          (Nat.lt_of_lt_of_le short (Nat.min_le_left _ _))).2⟩
        repeated := by omega
        occupied := fun _ asked => collect_ne_nil drawn (drawBudget_ne_zero.mpr (by omega)) }

/-- What built tables give for a node is a sample of its context, whatever the chance. -/
theorem isNeighborSample_of_build (run : build graph.source kind = .ok tables)
    (distinct : graph.Distinct) (count : Int) (node : NodeId) (stream : WordStream) :
    IsNeighborSample tables node ((graph.context? node).getD []) count
      ((tables.sampleFor count node).run stream).1 := by
  have covers := covers_of_build run
  unfold sampleFor
  rw [covers.context? node]
  cases there : graph.context? node with
  | none => exact isNeighborSample_nil tables node count
  | some context =>
      dsimp only [Option.getD_some]
      split
      · next asked => exact isNeighborSample_all tables node (distinct node context there) asked
      · next other =>
        split
        · next fewer =>
          exact isNeighborSample_sampleDistinct run there (distinct node context there) (by omega)
            fewer stream
        · next most =>
          exact covers.isNeighborSample_sampleRepeated there (by omega) stream

/-- Samples for several nodes are each drawn with some chance. -/
theorem forall₂_samplePartial (tables : NeighborTables) (count : Int) (nodes : List NodeId)
    (stream : WordStream) :
    List.Forall₂ (fun node list => ∃ before, ((tables.sampleFor count node).run before).1 = list)
      nodes ((tables.samplePartial count nodes).run stream).1 :=
  forall₂_run_mapM (tables.sampleFor count) nodes stream

/-! ## Tables of a part -/

/-- Tables of the same kind that have the same context and the same kernel for a node give the same
samples for it. -/
theorem sampleFor_congr {tables tables' : NeighborTables} {node : NodeId}
    (kind : tables.kind = tables'.kind)
    (context? : tables.source.context? node = tables'.source.context? node)
    (kernel : tables.tables[node]? = tables'.tables[node]?) (count : Int) :
    tables.sampleFor count node = tables'.sampleFor count node := by
  have draw : tables.draw node = tables'.draw node := by
    simp only [NeighborTables.draw, kind, context?, kernel]
  have drawable : tables.drawable? node = tables'.drawable? node := by
    simp only [drawable?, kind, context?, kernel]
  have support : tables.support node = tables'.support node := by
    simp only [NeighborTables.support, kind, context?, kernel]
  simp only [sampleFor, sampleDistinct, sampleRepeated, draw, drawable, support, context?]

/-- Tables over two graphs that agree on the context of a node give the same samples for it. -/
theorem sampleFor_of_build {part : Graph} {tables' : NeighborTables}
    (run : build graph.source kind = .ok tables) (run' : build part.source kind = .ok tables')
    (same : part.context? node = graph.context? node) (count : Int) :
    tables'.sampleFor count node = tables.sampleFor count node := by
  obtain ⟨source, ofKind⟩ := source_of_build run
  obtain ⟨source', ofKind'⟩ := source_of_build run'
  have context? : tables'.source.context? node = tables.source.context? node := by
    rw [source, source']
    exact same
  cases there : graph.context? node with
  | none =>
      have missing : tables.source.context? node = none := by rwa [source]
      simp only [sampleFor, context?, missing]
  | some context =>
      refine sampleFor_congr (ofKind'.trans ofKind.symm) context? ?_ count
      by_cases uniform : kind = .uniform
      · subst uniform
        cases run
        cases run'
        rfl
      · obtain ⟨kernel, keyed, built⟩ := kernel_of_build uniform run there
        obtain ⟨kernel', keyed', built'⟩ := kernel_of_build uniform run' (same.trans there)
        have equal : buildTable part.source kind node = buildTable graph.source kind node := by
          unfold buildTable
          rw [show part.source.context? node = graph.source.context? node from same]
        cases built.symm.trans (equal.symm.trans built')
        exact keyed'.trans keyed.symm

end NeighborTables

end ShardedGraph
