import Mathlib.Algebra.Order.Floor.Semifield
import Mathlib.Data.ENat.Lattice
import Mathlib.Data.Rat.Floor
import ShardedGraph.Proofs.Built
import ShardedGraph.Proofs.Regimes
import ShardedGraph.Proofs.Representation

/-!
# Selected hot nodes

Which nodes are hot is found out by several workers, but their number does not matter. Slices for
workers are cut from the nodes in order, none of them is empty, and there are no more slices than
workers (`HotNodes.isCut_slicesFor`). So a rule that looks at one node at a time selects what it
does of all nodes at once.

**Chance.** Each node takes one word, in order, and is kept when the fraction of the word is below
the threshold (`HotNodes.run_keepByChance`). Slices that are worked on one after the other take the
words that the whole list does (`HotNodes.run_keepSlices`). No fraction reaches one, so a threshold
that does keeps every node.

**Degree.** Nodes are sorted by their numbers of neighbors, and the sort is stable, so nodes with
equally many stay ascending (`HotNodes.isRanking_byDegree`).

Together this is `HotNodes.select_sequential`: what a rule selects for a threshold that is finite
and not nothing, for any number of workers.
-/

set_option autoImplicit false

namespace ShardedGraph

open Number

namespace Number

namespace Binary

variable {format : Format} {x y : Binary format}

/-! ## Whole parts -/

/-- The exact value of a finite number. -/
def value (x : Binary format) : ℚ := x.signedUnits / 2 ^ format.unitExponent

/-- The largest natural number that is not above a number; there is none for an infinite one. -/
def wholePart (x : Binary format) : ℕ∞ := if x.isInfinite then ⊤ else (⌊x.value⌋₊ : ℕ)

/-- The whole part of an amount is taken up to a limit. -/
theorem IsAmount.floorToNat_eq (isAmount : x.IsAmount) (some : 0 < format.infinity)
    (limit : Nat) : (x.floorToNat limit : ℕ∞) = min (limit : ℕ∞) x.wholePart := by
  rw [floorToNat, wholePart, isAmount.number, Bool.or_false]
  by_cases infinite : x.isInfinite = true
  · rw [isAmount.positive_of_isInfinite some infinite, if_pos infinite, if_pos infinite, min_top_right]
    rfl
  · have whole : ⌊x.value⌋₊ = x.units / 2 ^ format.unitExponent := by
      rw [value, isAmount.signedUnits_eq, ← Nat.floor_div_eq_div (K := ℚ)]
      push_cast
      rfl
    rw [if_neg infinite, if_neg infinite, whole, Nat.shiftRight_eq_div_pow]
    cases sign : x.negative with
    | false => exact Nat.mono_cast.map_min
    | true =>
        rw [isAmount.units_eq_zero sign, Nat.zero_div, Nat.cast_zero]
        exact (min_eq_right bot_le).symm

theorem IsAmount.floorToNat_lt_one_iff (isAmount : x.IsAmount) (some : 0 < format.infinity)
    {limit : Nat} (positive : 1 ≤ limit) : x.floorToNat limit < 1 ↔ x.wholePart < 1 := by
  have above : ¬(limit : ℕ∞) < 1 := not_lt.mpr (Nat.one_le_cast.mpr positive)
  rw [← Nat.cast_lt (α := ℕ∞), isAmount.floorToNat_eq some, Nat.cast_one, min_lt_iff,
    or_iff_right above]

/-! ## Thresholds -/

theorem le_iff : x ≤ y ↔ x.isNaN = false ∧ y.isNaN = false ∧ x.rank ≤ y.rank := by
  change le x y = true ↔ _
  simp [le, and_assoc]

/-- Amounts are ordered by their magnitudes. -/
theorem IsAmount.le_iff (first : x.IsAmount) (second : y.IsAmount) :
    x ≤ y ↔ x.magnitude ≤ y.magnitude := by
  rw [Binary.le_iff, first.rank_eq, second.rank_eq, Int.ofNat_le, first.number, second.number]
  simp

/-- What is above zero is an amount. -/
theorem isAmount_of_pos (positive : 0 < x) : x.IsAmount := by
  obtain ⟨-, number, above⟩ := lt_iff.mp positive
  exact ⟨number, Int.le_of_lt above⟩

theorem isAmount_of_one_le {x : Double} (large : 1 ≤ x) : x.IsAmount := by
  obtain ⟨-, number, above⟩ := le_iff.mp large
  exact ⟨number, Int.le_trans (by decide +kernel) above⟩

theorem isAmount_one : (1 : Double).IsAmount := isAmount_ofRatio _ _

theorem magnitude_one : (1 : Double).magnitude = 1023 * 2 ^ 52 := by decide +kernel

/-- A count that is not nothing, times one or more, is at least one. -/
theorem not_ofNat_mul_lt_one {count : Nat} (some : 0 < count) (small : count ≤ 2 ^ 127) {x : Double}
    (finite : x.isFinite = true) (large : 1 ≤ x) : ¬(ofNat count * x : Double) < 1 := by
  obtain ⟨counted, finite'⟩ := isAmount_ofNat small
  have amount := isAmount_of_one_le large
  rw [(counted.mul amount finite' finite).lt_iff isAmount_one, Nat.not_lt, magnitude_one,
    mul_of_isFinite finite' finite]
  refine Format.le_round_of_le (Nat.two_pow_pos _) (by decide) ?_
  rw [Format.units_double_one]
  have first := @Format.units_mono .double _ _ (magnitude_ofNat_mem some small).1
  have second := @Format.units_mono .double _ _ ((isAmount_one.le_iff amount).mp large)
  rw [magnitude_one] at second
  rw [Format.units_double_one] at first second
  exact Nat.mul_le_mul first second

end Binary

end Number

namespace HotNodes

/-! ## Slices -/

/-- Slices of a list for some workers: all of the list in order, nothing twice, and none without
work. -/
structure IsCut {α : Type} (workers : Nat) (list : List α) (slices : List (List α)) : Prop where
  flatten : slices.flatten = list
  length_le : slices.length ≤ max 1 workers
  ne_nil : ∀ slice ∈ slices, slice ≠ []

theorem isCut_slicesFor {α : Type} (workers : Nat) (list : List α) :
    IsCut workers list (slicesFor workers list) where
  flatten := flatten_slicesFor workers list
  length_le := by
    have length : 0 < sliceLength list.length workers := Nat.le_max_left _ _
    have enough : list.length ≤ sliceLength list.length workers * max 1 workers := by
      have covered := Nat.lt_div_mul_add (a := list.length + max 1 workers - 1)
        (Nat.le_max_left 1 workers)
      have longer := Nat.mul_le_mul_right (max 1 workers)
        (Nat.le_max_right 1 ((list.length + max 1 workers - 1) / max 1 workers))
      change list.length ≤ max 1 ((list.length + max 1 workers - 1) / max 1 workers) * _
      omega
    rw [slicesFor, slicesOf, List.length_map, List.length_range,
      Nat.div_le_iff_le_mul_add_pred length]
    omega
  ne_nil slice member := by
    obtain ⟨index, among, rfl⟩ := List.mem_map.mp member
    have length : 0 < sliceLength list.length workers := Nat.le_max_left _ _
    have before := (Nat.lt_div_iff_mul_lt length).mp (List.mem_range.mp among)
    rw [Ne, List.take_eq_nil_iff, List.drop_eq_nil_iff]
    omega

/-! ## Chance -/

/-- The fraction that a node draws with a word. -/
def fraction (word : UInt64) : Double := .ofDyadic (word.toNat >>> 11) 53

/-- The nodes that are kept when each node takes a word of a stream, in order. -/
def keptBy (probability : Double) (stream : WordStream) (nodes : List NodeId) : List NodeId :=
  ((nodes.zipIdx stream.used).filter fun entry =>
    fraction (stream.word entry.2) < probability).map Prod.fst

theorem keptBy_cons (probability : Double) (stream : WordStream) (node : NodeId)
    (nodes : List NodeId) :
    keptBy probability stream (node :: nodes) =
      if fraction (stream.word stream.used) < probability then
        node :: keptBy probability { stream with used := stream.used + 1 } nodes
      else keptBy probability { stream with used := stream.used + 1 } nodes := by
  rw [keptBy, List.zipIdx_cons, List.filter_cons]
  by_cases kept : fraction (stream.word stream.used) < probability
  · rw [if_pos (decide_eq_true kept), if_pos kept]
    rfl
  · rw [if_neg (by simpa using kept), if_neg kept]
    rfl

theorem keptBy_append (probability : Double) (stream : WordStream) (first second : List NodeId) :
    keptBy probability stream (first ++ second) =
      keptBy probability stream first ++
        keptBy probability { stream with used := stream.used + first.length } second := by
  rw [keptBy, List.zipIdx_append, List.filter_append, List.map_append]
  rfl

theorem keptBy_sublist (probability : Double) (stream : WordStream) (nodes : List NodeId) :
    (keptBy probability stream nodes).Sublist nodes := by
  have kept := (List.filter_sublist (l := nodes.zipIdx stream.used) (p := fun entry =>
    decide (fraction (stream.word entry.2) < probability))).map Prod.fst
  rwa [List.zipIdx_map_fst] at kept

/-- No fraction reaches one. -/
theorem fraction_lt_of_one_le {probability : Double} (large : 1 ≤ probability) (word : UInt64) :
    fraction word < probability := by
  have amount := Binary.isAmount_of_one_le large
  have least := (Binary.isAmount_one.le_iff amount).mp large
  obtain ⟨drawn, last⟩ := WordStream.fraction_le_last word
  refine (drawn.lt_iff amount).mpr (Nat.lt_of_le_of_lt last ?_)
  rw [Binary.magnitude_one] at least
  omega

/-- Every node is kept by a probability of one or more. -/
theorem keptBy_eq_self {probability : Double} (large : 1 ≤ probability) (stream : WordStream)
    (nodes : List NodeId) : keptBy probability stream nodes = nodes := by
  rw [keptBy, List.filter_eq_self.mpr fun entry _ =>
    decide_eq_true (fraction_lt_of_one_le large (stream.word entry.2)), List.zipIdx_map_fst]

/-- Every node takes one word, and those with a fraction below the probability are kept. -/
theorem run_keepByChance (probability : Double) (nodes : List NodeId) (stream : WordStream) :
    (keepByChance probability nodes).run stream =
      (keptBy probability stream nodes, { stream with used := stream.used + nodes.length }) := by
  induction nodes generalizing stream with
  | nil => rfl
  | cons node nodes ih =>
      have drawn : WordStream.double.run stream =
          (fraction (stream.word stream.used), { stream with used := stream.used + 1 }) := rfl
      rw [keepByChance]
      simp only [StateT.run_bind, StateT.run_pure, drawn, ih]
      rw [keptBy_cons, List.length_cons, Nat.add_comm nodes.length, ← Nat.add_assoc]
      rfl

theorem keepSlices_cons (probability : Double) (slice : List NodeId)
    (slices : List (List NodeId)) :
    keepSlices probability (slice :: slices) = (do
      let kept ← keepByChance probability slice
      let others ← keepSlices probability slices
      return kept ++ others) := by
  simp only [keepSlices, List.mapM_cons, bind_assoc, pure_bind, List.flatten_cons]

/-- Slices in a row take the words that their list does, and the same nodes are kept. -/
theorem run_keepSlices (probability : Double) (slices : List (List NodeId)) (stream : WordStream) :
    (keepSlices probability slices).run stream =
      (keptBy probability stream slices.flatten,
        { stream with used := stream.used + slices.flatten.length }) := by
  induction slices generalizing stream with
  | nil => rfl
  | cons slice slices ih =>
      rw [keepSlices_cons]
      simp only [StateT.run_bind, StateT.run_pure, run_keepByChance, ih]
      rw [List.flatten_cons, keptBy_append, List.length_append, ← Nat.add_assoc]
      rfl

/-! ## Degree -/

/-- All nodes with a context, those with more neighbors first, equal ones ascending. -/
structure IsRanking (graph : Graph) (nodes : List NodeId) : Prop where
  perm : nodes.Perm graph.keys
  ordered : nodes.Pairwise fun x y => graph.outDegree y < graph.outDegree x ∨
    (graph.outDegree x = graph.outDegree y ∧ x < y)

theorem pairwise_lt_keys (graph : Graph) : graph.keys.Pairwise (· < ·) := by
  rw [graph.keys_eq_map_toList]
  exact Graph.pairwise_lt_toList graph.contexts

theorem nodup_keys (graph : Graph) : graph.keys.Nodup :=
  (pairwise_lt_keys graph).imp UInt64.ne_of_lt

theorem isRanking_byDegree (graph : Graph) : IsRanking graph (byDegree graph) where
  perm := List.mergeSort_perm _ _
  ordered := by
    have trans : ∀ x y z : NodeId, decide (graph.outDegree y ≤ graph.outDegree x) = true →
        decide (graph.outDegree z ≤ graph.outDegree y) = true →
          decide (graph.outDegree z ≤ graph.outDegree x) = true := by
      intro x y z first second
      exact decide_eq_true (Nat.le_trans (of_decide_eq_true second) (of_decide_eq_true first))
    have total : ∀ x y : NodeId, (decide (graph.outDegree y ≤ graph.outDegree x) ||
        decide (graph.outDegree x ≤ graph.outDegree y)) = true := by
      intro x y
      simpa using Nat.le_total _ _
    have descending := List.pairwise_mergeSort trans total graph.keys
    rw [List.pairwise_iff_forall_sublist] at descending ⊢
    intro x y before
    rcases Nat.lt_or_eq_of_le (of_decide_eq_true (descending before)) with fewer | equal
    · exact .inl fewer
    -- Nodes with as many neighbors stay in the order of the keys.
    · refine .inr ⟨equal.symm, ?_⟩
      have kept := filter_mergeSort trans total
        (fun node => graph.outDegree node == graph.outDegree x)
        (fun a b here here' => by
          rw [eq_of_beq here, eq_of_beq here']
          exact decide_eq_true (Nat.le_refl _))
        graph.keys
      have tied := before.filter fun node => graph.outDegree node == graph.outDegree x
      have both : [x, y].filter (fun node => graph.outDegree node == graph.outDegree x) = [x, y] := by
        simp [equal]
      rw [byDegree, kept, both] at tied
      exact List.pairwise_iff_forall_sublist.mp (pairwise_lt_keys graph)
        (tied.trans List.filter_sublist)

/-! ## Rules -/

/-- The number of nodes with a context, times the threshold. -/
def share (graph : Graph) (threshold : Double) : Double :=
  .ofNat graph.keys.length * threshold

section Rules

variable (graph : Graph) {threshold : Double} (positive : 0 < threshold) (workers : Nat)
  (stream : WordStream)

include positive

/-- A positive threshold is neither refused nor nothing. -/
theorem select_of_pos (rule : HotRule) :
    select graph rule threshold workers stream =
      match rule with
      | .random =>
          if share graph threshold < 1 then
            .error (.nothingHot .random threshold graph.keys.length)
          else .ok (keepSlices threshold (slicesFor workers graph.keys) stream).1
      | .degree =>
          if (share graph threshold).floorToNat countLimit < 1 then
            .error (.nothingHot .degree threshold graph.keys.length)
          else .ok ((byDegree graph).take ((share graph threshold).floorToNat countLimit))
      | .importance =>
          .ok ((slicesFor workers graph.keys).flatMap fun slice =>
            slice.filter fun node => threshold < importance graph node) := by
  have amount := Binary.isAmount_of_pos positive
  have above : 0 ≤ threshold :=
    ((Binary.isAmount_of_magnitude rfl).le_iff amount).mpr (Nat.zero_le _)
  have some : ¬threshold.isZero = true := fun nothing =>
    Nat.ne_of_gt (amount.pos_iff.mp positive) (of_decide_eq_true nothing)
  rw [select, if_neg (not_not_intro above), if_neg some]
  rfl

theorem select_random :
    select graph .random threshold workers stream =
      if share graph threshold < 1 then .error (.nothingHot .random threshold graph.keys.length)
      else .ok (keptBy threshold stream graph.keys) := by
  have kept : (keepSlices threshold (slicesFor workers graph.keys) stream).1 =
      keptBy threshold stream (slicesFor workers graph.keys).flatten :=
    congrArg Prod.fst (run_keepSlices threshold (slicesFor workers graph.keys) stream)
  rw [select_of_pos graph positive]
  dsimp only
  rw [kept, flatten_slicesFor]

theorem select_importance :
    select graph .importance threshold workers stream =
      .ok (graph.keys.filter fun node => threshold < importance graph node) := by
  rw [select_of_pos graph positive]
  dsimp only
  rw [List.flatMap_def, ← List.filter_flatten, flatten_slicesFor]

theorem select_degree :
    select graph .degree threshold workers stream =
      if (share graph threshold).floorToNat countLimit < 1 then
        .error (.nothingHot .degree threshold graph.keys.length)
      else .ok ((byDegree graph).take ((share graph threshold).floorToNat countLimit)) :=
  select_of_pos graph positive workers stream .degree

theorem select_workers (rule : HotRule) (others : Nat) :
    select graph rule threshold others stream = select graph rule threshold workers stream := by
  cases rule with
  | random => rw [select_random graph positive, select_random graph positive]
  | degree => rw [select_degree graph positive, select_degree graph positive]
  | importance => rw [select_importance graph positive, select_importance graph positive]

/-- A rule only selects nodes with a context, each of them once. -/
theorem select_nodup_subset {rule : HotRule} {nodes : List NodeId}
    (run : select graph rule threshold workers stream = .ok nodes) :
    nodes.Nodup ∧ nodes ⊆ graph.keys := by
  suffices within : nodes.Subperm graph.keys by
    refine ⟨?_, within.subset⟩
    obtain ⟨_, perm, sublist⟩ := within
    exact perm.nodup_iff.mp ((nodup_keys graph).sublist sublist)
  cases rule with
  | random =>
      rw [select_random graph positive] at run
      split at run
      · cases run
      · obtain rfl := Except.ok.inj run
        exact (keptBy_sublist threshold stream graph.keys).subperm
  | degree =>
      rw [select_degree graph positive] at run
      split at run
      · cases run
      · obtain rfl := Except.ok.inj run
        exact (List.take_sublist _ _).subperm.trans (isRanking_byDegree graph).perm.subperm
  | importance =>
      obtain rfl := Except.ok.inj ((select_importance graph positive workers stream).symm.trans run)
      exact List.filter_sublist.subperm

end Rules

section Shares

variable {graph : Graph} {threshold : Double} (finite : threshold.isFinite = true)

include finite

theorem isAmount_share (positive : 0 < threshold) (small : graph.keys.length ≤ 2 ^ 127) :
    (share graph threshold).IsAmount := by
  obtain ⟨counted, finite'⟩ := isAmount_ofNat small
  exact counted.mul (Binary.isAmount_of_pos positive) finite' finite

/-- Without nodes there is no share. -/
theorem share_lt_one (none : graph.keys = []) : share graph threshold < 1 := by
  have nothing : (share graph threshold).magnitude = 0 := by
    have zero : (Binary.ofNat graph.keys.length : Double).units = 0 := by rw [none]; rfl
    rw [share, Binary.mul_of_isFinite (isAmount_ofNat (by rw [none]; decide)).2 finite, zero,
      Nat.zero_mul]
    exact Format.round_zero _ (Nat.two_pow_pos _)
  rw [(Binary.isAmount_of_magnitude nothing).lt_iff Binary.isAmount_one, nothing,
    Binary.magnitude_one]
  decide

end Shares

/-- What each rule selects for a threshold of a graph, when some workers are at work and chance
takes the words of a stream. -/
structure Selects (graph : Graph) (threshold : Double) (workers : Nat) (stream : WordStream) :
    Prop where
  keys_ascending : graph.keys.Pairwise (· < ·)
  importance : select graph .importance threshold workers stream =
    .ok (graph.keys.filter fun node =>
      threshold < (.ofNat (graph.inDegree node) + 1) / (.ofNat (graph.outDegree node) + 1))
  degree_refused : (share graph threshold).wholePart < 1 →
    ∃ error, select graph .degree threshold workers stream = .error error ∧ error.kind = .config
  degree : 1 ≤ (share graph threshold).wholePart →
    ∃ (nodes : List NodeId) (count : Nat), IsRanking graph nodes ∧
      (count : ℕ∞) = min (graph.keys.length : ℕ∞) (share graph threshold).wholePart ∧
        select graph .degree threshold workers stream = .ok (nodes.take count)
  chance_refused : share graph threshold < 1 →
    ∃ error, select graph .random threshold workers stream = .error error ∧ error.kind = .config
  chance : ¬share graph threshold < 1 →
    select graph .random threshold workers stream = .ok (keptBy threshold stream graph.keys)
  /-- A threshold of one or more leaves nothing to chance. -/
  chance_all : 1 ≤ threshold →
    (graph.keys = [] → share graph threshold < 1) ∧
      (graph.keys ≠ [] → select graph .random threshold workers stream = .ok graph.keys)
  nodup : ∀ rule nodes, select graph rule threshold workers stream = .ok nodes → nodes.Nodup
  subset : ∀ rule nodes, select graph rule threshold workers stream = .ok nodes →
    nodes ⊆ graph.keys
  /-- The number of workers does not matter. -/
  any_workers : ∀ rule others,
    select graph rule threshold others stream = select graph rule threshold workers stream
  slices : IsCut workers graph.keys (slicesFor workers graph.keys)

/-- **The rules, node by node.** For any graph with fewer keys than a word can count, any finite
threshold above zero and any words, each rule selects what it says, whatever the number of
workers. -/
theorem select_sequential (graph : Graph) {threshold : Double} (positive : 0 < threshold)
    (finite : threshold.isFinite = true) (short : graph.keys.length < UInt64.size) (workers : Nat)
    (stream : WordStream) : Selects graph threshold workers stream := by
  have small : graph.keys.length ≤ 2 ^ 127 := Nat.le_of_lt (Nat.lt_trans short (by decide))
  have shared := isAmount_share finite positive small
  have random := select_random graph positive workers stream
  have degree := select_degree graph positive workers stream
  have ranking := isRanking_byDegree graph
  have few_iff : (share graph threshold).floorToNat countLimit < 1 ↔
      (share graph threshold).wholePart < 1 :=
    shared.floorToNat_lt_one_iff (by decide) (by decide)
  refine ⟨pairwise_lt_keys graph, select_importance graph positive workers stream,
    fun few => ?degree_refused, fun many => ?degree, fun few => ?chance_refused,
    fun many => random.trans (if_neg many),
    fun large => ⟨share_lt_one finite, fun some => ?chance_all⟩,
    fun _ _ run => (select_nodup_subset graph positive workers stream run).1,
    fun _ _ run => (select_nodup_subset graph positive workers stream run).2,
    select_workers graph positive workers stream, isCut_slicesFor workers graph.keys⟩
  case degree_refused => exact ⟨_, degree.trans (if_pos (few_iff.mpr few)), rfl⟩
  case degree =>
    have some : ¬(share graph threshold).floorToNat countLimit < 1 := fun few =>
      not_lt.mpr many (few_iff.mp few)
    -- No list is longer than the limit of a count, so the limit is not seen.
    have limit : (graph.keys.length : ℕ∞) ≤ countLimit := Nat.cast_le.mpr (Nat.le_pred_of_lt short)
    refine ⟨byDegree graph, min graph.keys.length ((share graph threshold).floorToNat countLimit),
      ranking, ?_, ?_⟩
    · rw [Nat.mono_cast.map_min, shared.floorToNat_eq (by decide), ← min_assoc, min_eq_left limit]
    · rw [degree, if_neg some, List.take_eq_take_min, ranking.perm.length_eq, Nat.min_comm]
  case chance_refused => exact ⟨_, random.trans (if_pos few), rfl⟩
  case chance_all =>
    rw [random, if_neg, keptBy_eq_self large]
    exact Binary.not_ofNat_mul_lt_one (List.length_pos_of_ne_nil some) small finite large

/-- A graph in which node 0 has two neighbors, and nodes 1 and 2 have one. -/
def fanGraph : Graph :=
  (Graph.build .single [.context 0 [(1, 1), (2, 1)], .context 1 [(0, 1)], .context 2 [(1, 1)]]
    ).toOption.get (by decide +kernel)

/-- Two workers select by a threshold of three quarters, which leaves a share of two nodes. -/
theorem select_sequential_fan :
    (0 : Double) < .ofDyadic 3 2 ∧ (.ofDyadic 3 2 : Double).isFinite = true ∧
      fanGraph.keys.length < UInt64.size ∧ Selects fanGraph (.ofDyadic 3 2) 2 (.cycle #[]) ∧
      fanGraph.keys = [0, 1, 2] ∧
      (share fanGraph (.ofDyadic 3 2)).floorToNat countLimit = 2 := by
  have positive : (0 : Double) < .ofDyadic 3 2 := by decide +kernel
  have finite : (.ofDyadic 3 2 : Double).isFinite = true := by decide +kernel
  have short : fanGraph.keys.length < UInt64.size := by decide +kernel
  exact ⟨positive, finite, short, select_sequential fanGraph positive finite short 2 _,
    by decide +kernel, by decide +kernel⟩

end HotNodes

end ShardedGraph
