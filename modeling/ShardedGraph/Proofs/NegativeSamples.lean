import ShardedGraph.Proofs.Shapes
import ShardedGraph.Proofs.Sources

/-!
# Samples of negative nodes

Let pools be built from a source that is made. Whatever the stream, a sample that is not refused
holds as many different nodes as were asked for; each is a candidate of the namespace of the query
node that can be drawn, and none is excluded (`NegativePools.IsDrawnSample`). Independent samples
are such a sample for every query node, shared samples have one in the slot of every namespace that
the query nodes touch and nothing in the others (`NegativePools.samples_spec`).

**Order.** A shared sample depends on its query nodes only by the order in which their namespaces
are first seen, when every namespace has a slot: a search for namespaces leaves out those that were
seen before (`touchFrom_order`), and a sample depends on its node only by the namespace.
-/

set_option autoImplicit false

namespace ShardedGraph

/-! ## The order of namespaces -/

theorem removeAll_concat (namespaces seen : List NamespaceId) (ns : NamespaceId) :
    namespaces.removeAll (seen ++ [ns]) =
      (namespaces.removeAll seen).filter fun other => !other == ns := by
  rw [List.removeAll, List.removeAll, List.filter_filter]
  refine List.filter_congr fun other _ => ?_
  rw [Bool.eq_iff_iff]
  simp [and_comm]

/-- When every slot has been seen, no namespace with a slot is left. -/
theorem removeAll_eq_nil_of_full {slots : Nat} {namespaces seen : List NamespaceId}
    (distinct : seen.Nodup) (numbers : ∀ ns ∈ seen, ns.toNat < slots) (full : seen.length = slots)
    (inside : ∀ ns ∈ namespaces, ns.toNat < slots) : namespaces.removeAll seen = [] := by
  refine List.filter_eq_nil_iff.mpr fun ns member => ?_
  obtain ⟨other, among, same⟩ := exists_of_length_eq distinct numbers full (inside ns member)
  rw [UInt16.toNat_inj.mp same] at among
  simpa using among

/-- A search adds the namespaces that it has not found before, in the order in which they are first
seen. -/
theorem touchFrom_order {slots : Nat} {nodes : List NodeId}
    {found touched : List (NamespaceId × NodeId)}
    (inside : ∀ node ∈ nodes, (namespaceOf node).toNat < slots)
    (distinct : (found.map Prod.fst).Nodup)
    (numbers : ∀ ns ∈ found.map Prod.fst, ns.toNat < slots)
    (run : touchFrom slots found nodes = .ok touched) :
    touched.map Prod.fst = found.map Prod.fst ++
      ((nodes.map namespaceOf).removeAll (found.map Prod.fst)).eraseDups := by
  induction nodes generalizing found with
  | nil =>
      cases run
      simp
  | cons node nodes ih =>
      obtain ⟨own, inside⟩ := List.forall_mem_cons.mp inside
      have known : (found.any fun entry => entry.1 == namespaceOf node) =
          (found.map Prod.fst).contains (namespaceOf node) := by
        rw [Bool.eq_iff_iff]
        simp
      rw [touchFrom, if_neg (Nat.not_le_of_lt own), known] at run
      rw [List.map_cons, List.cons_removeAll]
      split at run
      · next old =>
        rw [if_neg (by rw [old]; exact Bool.noConfusion)]
        exact ih inside distinct numbers run
      · next new =>
        have fresh : namespaceOf node ∉ found.map Prod.fst := fun member =>
          new (List.contains_iff_mem.mpr member)
        have more : (found ++ [(namespaceOf node, node)]).map Prod.fst =
            found.map Prod.fst ++ [namespaceOf node] := List.map_append
        have distinct' : (found.map Prod.fst ++ [namespaceOf node]).Nodup := by
          simpa using List.Nodup.concat fresh distinct
        have numbers' : ∀ ns ∈ found.map Prod.fst ++ [namespaceOf node], ns.toNat < slots := by
          intro ns member
          exact (List.mem_append.mp member).elim (numbers ns) fun last =>
            List.mem_singleton.mp last ▸ own
        rw [if_pos (eq_false_of_ne_true new), List.eraseDups_cons, ← removeAll_concat,
          List.append_cons]
        dsimp only at run
        split at run
        · next full =>
          cases run
          have none := removeAll_eq_nil_of_full distinct' numbers' (by simpa using full)
            (List.forall_mem_map.mpr inside)
          rw [none, more]
          simp
        · rw [← more] at distinct' numbers' ⊢
          exact ih inside distinct' numbers' run

/-- A search for namespaces that all have slots lists them in the order in which they are first
seen. -/
theorem touchedNamespaces_order {slots : Nat} {nodes : List NodeId}
    {touched : List (NamespaceId × NodeId)}
    (inside : ∀ node ∈ nodes, (namespaceOf node).toNat < slots)
    (run : touchedNamespaces slots nodes = .ok touched) :
    touched.map Prod.fst = (nodes.map namespaceOf).eraseDups := by
  have order := @touchFrom_order slots nodes [] touched inside (by simp) (by simp) run
  simpa using order

namespace NegativePools

variable {pools : NegativePools} {count : Nat} {nodes excluded : List NodeId}

/-- A sample depends on its node only by the namespace. -/
theorem sampleFor_congr {node other : NodeId} (same : namespaceOf node = namespaceOf other) :
    pools.sampleFor count excluded node = pools.sampleFor count excluded other := by
  have draws : pools.draw node = pools.draw other := by
    unfold draw
    rw [same]
  unfold sampleFor
  rw [same, draws]

/-- Samples that are placed for touched namespaces do not depend on the nodes that stand for these.
-/
theorem foldlM_sampleFor_congr {touched touched' : List (NamespaceId × NodeId)}
    (own : ∀ entry ∈ touched, entry.1 = namespaceOf entry.2)
    (own' : ∀ entry ∈ touched', entry.1 = namespaceOf entry.2)
    (same : touched.map Prod.fst = touched'.map Prod.fst) (out : List (List NodeId)) :
    (touched.foldlM (fun out entry => do
      let found ← pools.sampleFor count excluded entry.2
      return out.set entry.1.toNat found) out : Attempt (List (List NodeId))) =
    touched'.foldlM (fun out entry => do
      let found ← pools.sampleFor count excluded entry.2
      return out.set entry.1.toNat found) out := by
  induction touched generalizing touched' out with
  | nil =>
      cases touched' with
      | nil => rfl
      | cons entry' touched' => cases same
  | cons entry touched ih =>
      cases touched' with
      | nil => cases same
      | cons entry' touched' =>
          obtain ⟨here, others⟩ := List.cons.inj same
          obtain ⟨first, own⟩ := List.forall_mem_cons.mp own
          obtain ⟨first', own'⟩ := List.forall_mem_cons.mp own'
          have sampled : pools.sampleFor count excluded entry.2 =
              pools.sampleFor count excluded entry'.2 :=
            sampleFor_congr (first.symm.trans (here.trans first'))
          rw [List.foldlM_cons, List.foldlM_cons, sampled, here]
          exact congrArg _ (funext fun out => ih own own' others out)

/-- A shared sample depends on its nodes only by the order in which their namespaces are first
seen. -/
theorem sampleShared_congr {nodes' : List NodeId}
    (inside : ∀ node ∈ nodes ++ nodes', (namespaceOf node).toNat < pools.source.slots)
    (order : (nodes.map namespaceOf).eraseDups = (nodes'.map namespaceOf).eraseDups) :
    pools.sampleShared count nodes excluded = pools.sampleShared count nodes' excluded := by
  obtain ⟨inside, inside'⟩ := List.forall_mem_append.mp inside
  obtain ⟨touched, found⟩ := exists_touchedNamespaces inside
  obtain ⟨touched', found'⟩ := exists_touchedNamespaces inside'
  have own := (firstSeen_of_touchedNamespaces found).spec
  have own' := (firstSeen_of_touchedNamespaces found').spec
  have same : touched.map Prod.fst = touched'.map Prod.fst := by
    rw [touchedNamespaces_order inside found, touchedNamespaces_order inside' found', order]
  unfold sampleShared
  dsimp only
  rw [found, found']
  exact foldlM_sampleFor_congr (fun entry member => (own entry member).2.1)
    (fun entry member => (own' entry member).2.1) same _

/-! ## Samples -/

/-- A sample of a namespace that was drawn: as many nodes as were asked for, all different,
candidates of the namespace that can be drawn, and none excluded. -/
structure IsDrawnSample (pools : NegativePools) (ns : NamespaceId) (count : Nat)
    (excluded sample : List NodeId) : Prop extends pools.IsSample ns count excluded sample where
  drawable : ∀ node ∈ sample, node ∈ pools.drawable ns

section Made

variable {source : Source} {kind : KernelKind} (made : source.IsMade)
  (built : build source kind = .ok pools)

include made built

/-- What pools draw for a node can be drawn for its namespace. -/
theorem mem_drawable_of_draw {node drawn : NodeId} {stream later : WordStream}
    (run : runFrom (pools.draw node) stream = (.ok drawn, later)) :
    drawn ∈ pools.drawable (namespaceOf node) := by
  obtain ⟨candidates, _, listed, _⟩ := runFrom_bind_eq_ok run
  obtain ⟨kernel, isPool⟩ := exists_isPool made.isSound built (congrArg Prod.fst listed)
  obtain ⟨other, _, run', member, -⟩ := isPool.exists_draw rfl stream
  cases run.symm.trans run'
  exact member

theorem isDrawnSample_of_sampledFor {node : NodeId} {sample : List NodeId}
    (sampled : pools.IsSampledFor count excluded node sample) :
    pools.IsDrawnSample (namespaceOf node) count excluded sample := by
  obtain ⟨_, _, run⟩ := sampled
  obtain ⟨length, distinct, spec⟩ :=
    spec_of_sampleFor _ (fun _ _ _ => mem_drawable_of_draw made built) run
  refine ⟨⟨length, distinct, fun node member => (spec node member).1, fun node member => ?_⟩,
    fun node member => (spec node member).2⟩
  obtain ⟨candidates, index, listed, there, -⟩ := mem_drawable_iff.mp (spec node member).2
  exact ⟨candidates, listed, List.mem_of_getElem? there⟩

/-- **Samples of negative nodes.** Let pools be built from a source that is made. A shared sample
has a list for each slot: in the slot of a namespace of a query node a sample of this namespace that
was drawn, and nothing in the slots that no query node touches. An independent sample has a sample
that was drawn for each query node. For query nodes whose namespaces all have slots and are first
seen in the same order, a shared sample from the same stream is the same, and so is its failure. -/
theorem samples_spec (count : Nat) (nodes excluded : List NodeId) (stream : WordStream) :
    (∀ lists later,
      runFrom (pools.sample .shared count nodes excluded) stream = (.ok lists, later) →
        lists.length = source.slots ∧ ∀ (slot : Nat) sample, lists[slot]? = some sample →
          (∀ node ∈ nodes, (namespaceOf node).toNat = slot →
            pools.IsDrawnSample (namespaceOf node) count excluded sample) ∧
          ((∀ node ∈ nodes, (namespaceOf node).toNat ≠ slot) → sample = [])) ∧
    (∀ lists later,
      runFrom (pools.sample .independent count nodes excluded) stream = (.ok lists, later) →
        List.Forall₂ (fun node sample =>
          pools.IsDrawnSample (namespaceOf node) count excluded sample) nodes lists) ∧
    ∀ nodes', (∀ node ∈ nodes ++ nodes', (namespaceOf node).toNat < source.slots) →
      (nodes.map namespaceOf).eraseDups = (nodes'.map namespaceOf).eraseDups →
        runFrom (pools.sample .shared count nodes excluded) stream =
          runFrom (pools.sample .shared count nodes' excluded) stream := by
  obtain ⟨same, -⟩ := source_of_build built
  refine ⟨fun lists later run => ?_, fun lists later run => ?_, fun nodes' inside order => ?_⟩
  · obtain ⟨length, slots⟩ := slots_of_sampleShared run
    refine ⟨same ▸ length, fun slot sample there => ?_⟩
    rcases slots slot sample there with ⟨node, member, own, sampled⟩ | ⟨nothing, untouched⟩
    · refine ⟨fun other _ own' => ?_, fun untouched => absurd own (untouched node member)⟩
      have ns : namespaceOf other = namespaceOf node := UInt16.toNat_inj.mp (own'.trans own.symm)
      exact ns ▸ isDrawnSample_of_sampledFor made built sampled
    · exact ⟨fun other member own => absurd own (untouched other member), fun _ => nothing⟩
  · refine (forall₂_of_runFrom_mapM run).imp fun node sample sampled => ?_
    exact isDrawnSample_of_sampledFor made built sampled
  · have alike := @sampleShared_congr pools count nodes excluded nodes' (same ▸ inside) order
    exact congrArg (runFrom · stream) alike

end Made

/-- Query nodes that all have the only namespace: one node is sampled for them, from a stream whose
first draw gives an excluded node. -/
theorem samples_spec_mixed :
    (∃ source : Source, source.IsMade ∧ build source .uniform = .ok evenPartition.negatives) ∧
    ∃ lists later,
      runFrom (evenPartition.negatives.sample .shared 1 [2, 4] [1]) (.cycle #[0, 4000000000]) =
        (.ok lists, later) ∧
      lists.length = evenPartition.negatives.source.slots ∧
      (∀ sample, lists[0]? = some sample →
        evenPartition.negatives.IsDrawnSample (namespaceOf 2) 1 [1] sample) ∧
      runFrom (evenPartition.negatives.sample .shared 1 [6] [1]) (.cycle #[0, 4000000000]) =
        (.ok lists, later) := by
  obtain ⟨source, made, built⟩ := isMade_even
  obtain ⟨same, -⟩ := source_of_build built
  have small : ∀ node ∈ [(2 : NodeId), 4] ++ [6],
      (namespaceOf node).toNat < evenPartition.negatives.source.slots := by
    have tested : ([(2 : NodeId), 4] ++ [6]).all (fun node =>
        decide ((namespaceOf node).toNat < evenPartition.negatives.source.slots)) = true := by
      decide +kernel
    exact fun node member => of_decide_eq_true (List.all_eq_true.mp tested node member)
  obtain ⟨lists, later, run⟩ : ∃ lists later, runFrom
      (evenPartition.negatives.sample .shared 1 [2, 4] [1]) (.cycle #[0, 4000000000]) =
        (.ok lists, later) := exists_of_isOk (by decide +kernel)
  obtain ⟨shared, -, alike⟩ := samples_spec made built 1 [2, 4] [1] (.cycle #[0, 4000000000])
  obtain ⟨length, slots⟩ := shared lists later run
  refine ⟨⟨source, made, built⟩, lists, later, run, same ▸ length, fun sample there => ?_, ?_⟩
  · exact (slots 0 sample there).1 2 (by decide) rfl
  · exact (alike [6] (same ▸ small) (by decide)).symm.trans run

end NegativePools

end ShardedGraph
