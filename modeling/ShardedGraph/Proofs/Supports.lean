import ShardedGraph.Proofs.Draws
import ShardedGraph.Proofs.Rounding

/-!
# What kernels can draw

A kernel that was built over weights can draw some index (`Kernel.support_pos_of_build`). A unigram
table has a slot for its first entry. An alias table ends with a bucket that is set to one, because
pairing never uses up the last bucket. In prefix sums the total is positive, so somewhere a sum
goes up: sums of weights are never below zero and always numbers (`Number.Binary.IsAmount`), and
such numbers are ordered without gaps.

**Counts.** The support of a built kernel is the number of indices that can be drawn
(`Kernel.support_eq_of_build`). A uniform kernel keeps its size, and a unigram table the number of
indices that were placed: these are all different, and they are exactly the indices that have a slot
(`Kernel.UnigramTable.mem_layOut_iff`).
-/

set_option autoImplicit false

namespace ShardedGraph

/-! ## Amounts -/

namespace Number

namespace Binary

variable {format : Format} {x y : Binary format}

/-- A number that is not below zero. -/
structure IsAmount (x : Binary format) : Prop where
  number : x.isNaN = false
  least : 0 ≤ x.rank

/-- Zero of either sign is an amount. -/
theorem isAmount_of_magnitude (nothing : x.magnitude = 0) : x.IsAmount where
  number := by simp [isNaN, nothing]
  least := by simp [rank, nothing]

theorem isAmount_ofRatio (numerator denominator : Nat) :
    (ofRatio false numerator denominator : Binary format).IsAmount where
  number := decide_eq_false (Nat.not_lt.mpr (format.round_le_infinity numerator denominator))
  least := Int.natCast_nonneg _

/-- An amount with a negative sign is nothing. -/
theorem IsAmount.magnitude_eq_zero (isAmount : x.IsAmount) (negative : x.negative = true) :
    x.magnitude = 0 := by
  have least := isAmount.least
  rw [rank, negative, if_pos rfl] at least
  omega

theorem IsAmount.units_eq_zero (isAmount : x.IsAmount) (negative : x.negative = true) :
    x.units = 0 := by
  rw [units, isAmount.magnitude_eq_zero negative, format.units_zero]

/-- A ratio with a sign is an amount when it is nothing. -/
theorem isAmount_ofRatio_of {negative : Bool} {numerator denominator : Nat}
    (positive : 0 < denominator) (nothing : negative = true → numerator = 0) :
    (ofRatio negative numerator denominator : Binary format).IsAmount := by
  cases negative with
  | false => exact isAmount_ofRatio _ _
  | true =>
      rw [nothing rfl]
      exact isAmount_of_magnitude (format.round_zero positive)

theorem IsAmount.signedUnits_nonneg (isAmount : x.IsAmount) : 0 ≤ x.signedUnits := by
  unfold signedUnits
  split
  · next negative =>
    rw [isAmount.units_eq_zero negative]
    exact Int.le_refl 0
  · exact Int.natCast_nonneg _

/-- An infinite amount is positive. -/
theorem IsAmount.positive_of_isInfinite (some : 0 < format.infinity) (isAmount : x.IsAmount)
    (infinite : x.isInfinite = true) : x.negative = false := by
  refine Bool.eq_false_iff.mpr fun negative => ?_
  have most := of_decide_eq_true infinite
  rw [isAmount.magnitude_eq_zero negative] at most
  exact absurd most (Nat.ne_of_lt some)

/-- An infinity without a sign is an amount. -/
theorem isAmount_infinity : (infinity false : Binary format).IsAmount :=
  ⟨decide_eq_false (Nat.lt_irrefl _), Int.natCast_nonneg _⟩

/-- An amount is an amount in every format. -/
theorem IsAmount.convert (some : 0 < format.infinity) (isAmount : x.IsAmount) (target : Format) :
    (x.convert target).IsAmount := by
  unfold Binary.convert
  rw [isAmount.number, if_neg Bool.false_ne_true]
  split
  · next infinite =>
    rw [isAmount.positive_of_isInfinite some infinite]
    exact isAmount_infinity
  · refine isAmount_ofRatio_of (Nat.two_pow_pos _) fun sign => ?_
    rw [isAmount.units_eq_zero sign, Nat.zero_shiftLeft]

/-- Sums of amounts are amounts. -/
theorem IsAmount.add (some : 0 < format.infinity) (first : x.IsAmount) (second : y.IsAmount) :
    (x + y).IsAmount := by
  change (Binary.add x y).IsAmount
  unfold Binary.add
  rw [first.number, second.number, if_neg Bool.false_ne_true, if_neg Bool.false_ne_true]
  split
  · next infinite =>
    split
    · next opposed =>
      obtain ⟨infinite', differ⟩ := Bool.and_eq_true_iff.mp opposed
      -- Infinite amounts are positive, so they do not cancel.
      rw [first.positive_of_isInfinite some infinite, second.positive_of_isInfinite some infinite']
        at differ
      cases differ
    · exact first
  · split
    · exact second
    · have total := Int.add_nonneg first.signedUnits_nonneg second.signedUnits_nonneg
      dsimp only
      split
      · exact isAmount_of_magnitude rfl
      · rw [decide_eq_false (Int.not_lt.mpr total)]
        exact isAmount_ofRatio _ _

/-- Numbers that do not lie one below the other lie the other way around. -/
theorem rank_le_of_not_lt (first : x.isNaN = false) (second : y.isNaN = false)
    (order : ¬x < y) : y.rank ≤ x.rank := by
  refine Int.not_lt.mp fun less => order ?_
  change lt x y = true
  simp [lt, first, second, less]

end Binary

/-- A weight is an amount. -/
theorem isAmount_of_isWeight {weight : Single} (isWeight : Kernel.isWeight weight = true) :
    weight.IsAmount := by
  obtain ⟨finite, notBelow⟩ := Bool.and_eq_true_iff.mp isWeight
  have finite := of_decide_eq_true finite
  have number : weight.isNaN = false := decide_eq_false (Nat.not_lt.mpr (Nat.le_of_lt finite))
  have zero : (0 : Single).IsAmount := Binary.isAmount_of_magnitude rfl
  refine ⟨number, Binary.rank_le_of_not_lt number zero.number ?_⟩
  simpa using notBelow

/-- The wider number that stands for a weight is an amount. -/
theorem isAmount_widen {weight : Single} (isWeight : Kernel.isWeight weight = true) :
    weight.widen.IsAmount :=
  (isAmount_of_isWeight isWeight).convert (by decide) .double

end Number

namespace Kernel

open Number

theorem isWeight_of_checkWeights {kind : KernelKind} {weights : List Single}
    (run : checkWeights kind weights = .ok ()) : ∀ weight ∈ weights, isWeight weight = true := by
  unfold checkWeights at run
  split at run
  · cases run
  · split at run
    · cases run
    · next none =>
      intro weight member
      simpa using List.find?_eq_none.mp none weight member

/-! ## Alias tables -/

/-- Buckets that are filled hold one, and those that held one before still do. -/
theorem getElem?_fill {α : Type} [One α] {keep : List α} {indices : List Nat} {index : Nat}
    (inside : index < keep.length) (full : index ∈ indices ∨ keep[index]? = some 1) :
    (fill keep indices)[index]? = some 1 := by
  induction indices generalizing keep with
  | nil => exact full.resolve_left List.not_mem_nil
  | cons other indices ih =>
      apply ih (by rwa [List.length_set])
      by_cases same : other = index
      · subst same
        exact .inr (List.getElem?_set_self inside)
      · rw [List.getElem?_set_ne same]
        exact full.imp_left fun member => (List.mem_cons.mp member).resolve_left (Ne.symm same)

section Buckets

variable {α : Type} [Zero α] [One α] [Add α] [Sub α] [LT α] [DecidableLT α]

/-- Pairing leaves a bucket that holds one, when there is any. -/
theorem exists_full_of_pair (buckets : Buckets α) {smaller larger : List Nat}
    (occupied : smaller ++ larger ≠ [])
    (inside : ∀ index ∈ smaller ++ larger, index < buckets.keep.length) :
    ∃ index < buckets.keep.length, (pair buckets smaller larger).keep[index]? = some 1 := by
  fun_induction pair buckets smaller larger with
  | case1 buckets small smaller top larger left next short ih =>
      have length : next.keep.length = buckets.keep.length := List.length_set
      rw [← length] at inside ⊢
      apply ih (by simp)
      intro index member
      apply inside
      simp only [List.cons_append, List.mem_cons, List.mem_append] at member ⊢
      tauto
  | case2 buckets small smaller top larger left next long ih =>
      have length : next.keep.length = buckets.keep.length := List.length_set
      rw [← length] at inside ⊢
      apply ih (by simp)
      intro index member
      apply inside
      rw [List.cons_append]
      exact List.mem_cons_of_mem _ member
  | case3 buckets smaller larger done =>
      obtain ⟨index, member⟩ := List.exists_mem_of_ne_nil _ occupied
      exact ⟨index, inside index member, getElem?_fill (inside index member) (.inl member)⟩

variable [Mul α] [Div α] [NatCast α]

/-- The buckets of weights, of which there are some, end with one that holds one. -/
theorem exists_full_of_ofWeights {weights : List α} (positive : 0 < weights.length) :
    ∃ index < weights.length, (Buckets.ofWeights weights).keep[index]? = some 1 := by
  have length : (scaled weights).length = weights.length := List.length_map _
  unfold Buckets.ofWeights
  dsimp only
  generalize scaled weights = keep at length ⊢
  rw [← length] at positive ⊢
  have among : ∀ index, index ∈ ((List.range keep.length).filter fun index =>
      decide (keep.getD index 0 < 1)).reverse ++ ((List.range keep.length).filter fun index =>
        !decide (keep.getD index 0 < 1)).reverse ↔ index < keep.length := by
    intro index
    simp [← and_or_left, Decidable.em]
  apply exists_full_of_pair ⟨keep, List.range keep.length⟩
  · exact List.ne_nil_of_mem ((among 0).mpr positive)
  · exact fun index member => (among index).mp member

end Buckets

/-- An alias table keeps some index. -/
theorem AliasTable.exists_reachable {weights : List Single} {table : AliasTable}
    (run : AliasTable.build weights = .ok table) :
    ∃ index < table.size, table.isReachable index = true := by
  have size := size_of_build run
  obtain ⟨checked, -, rfl⟩ := of_build run
  have positive := length_pos_of_checkWeights checked
  rw [← List.length_map Single.widen] at positive
  obtain ⟨index, inside, full⟩ := exists_full_of_ofWeights positive
  rw [List.length_map] at inside
  refine ⟨index, Nat.lt_of_lt_of_eq inside size.symm, ?_⟩
  have kept : 0 < Double.narrow 1 := by decide +kernel
  simp [isReachable, List.getD_eq_getElem?_getD, full, kept]

/-! ## Unigram tables -/

section Places

variable {count : UnigramEntry → Nat} {room index : Nat} {entries : List UnigramEntry}

/-- Entries are placed in order. -/
theorem UnigramTable.place_sublist :
    (place count room entries).Sublist (entries.map UnigramEntry.index) := by
  induction entries generalizing room with
  | nil => exact List.Sublist.slnil
  | cons entry entries ih =>
      rw [place]
      split
      · exact List.nil_sublist _
      · exact ih.cons_cons _

theorem UnigramTable.place_zero : place count 0 entries = [] := by
  cases entries with
  | nil => rfl
  | cons entry entries => exact if_pos rfl

/-- When every entry asks for a slot, the placed indices are those that have one. -/
theorem UnigramTable.mem_layOut_iff (asked : ∀ entry, 0 < count entry) :
    index ∈ layOut count room entries ↔ index ∈ place count room entries := by
  induction entries generalizing room with
  | nil => exact Iff.rfl
  | cons entry entries ih =>
      rw [layOut, List.mem_append, ih, List.mem_replicate, place]
      by_cases full : room = 0
      · simp [full, place_zero]
      · have taken : min (count entry) room ≠ 0 := by
          have := asked entry
          omega
        rw [if_neg full, List.mem_cons]
        exact or_congr_left (and_iff_right taken)

end Places

theorem UnigramTable.slotsOf_pos (sum : Double) (slots : Nat) (entry : UnigramEntry) :
    0 < slotsOf sum slots entry :=
  Nat.lt_of_lt_of_le Nat.one_pos (Nat.le_max_left _ _)

/-- An entry has the positive frequency of its index. -/
theorem UnigramTable.frequency_of_mem_entries {frequencies : List Single} {entry : UnigramEntry}
    (member : entry ∈ entries frequencies) :
    frequencies[entry.index]? = some entry.frequency ∧ 0 < entry.frequency := by
  obtain ⟨⟨frequency, index⟩, among, made⟩ := List.mem_filterMap.mp member
  dsimp only at made
  split at made
  · next positive =>
    cases made
    exact ⟨List.mk_mem_zipIdx_iff_getElem?.mp among, positive⟩
  · cases made

/-- No index has two entries. -/
theorem UnigramTable.nodup_index_entries (frequencies : List Single) :
    ((entries frequencies).map UnigramEntry.index).Nodup := by
  have apart : frequencies.zipIdx.Pairwise fun one other => one.2 ≠ other.2 := by
    rw [← List.pairwise_map (f := Prod.snd), List.zipIdx_map_snd]
    exact List.nodup_range'
  refine List.pairwise_map.mpr (apart.filterMap _ ?_)
  intro one other different entry made entry' made'
  dsimp only at made made'
  split at made
  · split at made'
    · cases made
      cases made'
      exact different
    · cases made'
  · cases made

/-- The placed indices of a table are all different and have positive frequencies, and each of them
has a slot. -/
theorem UnigramTable.placed_of_build {frequencies : List Single} {table : UnigramTable}
    (run : UnigramTable.build frequencies = .ok table) :
    table.placed.Nodup ∧ (∀ index, index ∈ table.slots ↔ index ∈ table.placed) ∧
      ∀ index ∈ table.placed, ∃ frequency, frequencies[index]? = some frequency ∧ 0 < frequency := by
  obtain ⟨-, -, sum, slots, rfl⟩ := of_build run
  refine ⟨?_, fun index => mem_layOut_iff (slotsOf_pos sum slots), fun index member => ?_⟩
  · exact place_sublist.nodup
      (((List.mergeSort_perm _ _).map _).nodup_iff.mpr (nodup_index_entries frequencies))
  · obtain ⟨entry, among, rfl⟩ := List.mem_map.mp (place_sublist.subset member)
    exact ⟨_, frequency_of_mem_entries (mem_ranked.mp among)⟩

/-- A unigram table places its first entry. -/
theorem UnigramTable.exists_reachable {weights : List Single} {table : UnigramTable}
    (run : UnigramTable.build weights = .ok table) :
    ∃ index < table.size, table.isReachable index = true := by
  obtain ⟨-, some, sum, slots, rfl⟩ := of_build run
  obtain ⟨entry, others, order⟩ : ∃ entry others, ranked (entries weights) = entry :: others :=
    List.exists_cons_of_ne_nil fun nothing => some (List.length_eq_zero_iff.mp (by
      rw [← (List.mergeSort_perm _ _).length_eq, ← ranked, nothing]
      rfl))
  have among : entry ∈ entries weights := mem_ranked.mp (order ▸ List.mem_cons_self)
  refine ⟨entry.index, index_lt_of_mem_entries entry among, List.contains_iff_mem.mpr ?_⟩
  rw [order, place, if_neg (by decide)]
  exact List.mem_cons_self

/-! ## Prefix sums -/

/-- What stands before an index is one of the sums, or nothing. -/
theorem sumBefore_eq_zero_or_mem {α : Type} [Zero α] (sums : List α) (index : Nat) :
    sumBefore sums index = 0 ∨ sumBefore sums index ∈ sums := by
  unfold sumBefore
  split
  · exact .inl rfl
  · rw [List.getD_eq_getElem?_getD]
    cases there : sums[index - 1]? with
    | none => exact .inl rfl
    | some sum => exact .inr (List.mem_of_getElem? there)

/-- The sum before an index of amounts is an amount. -/
theorem isAmount_sumBefore {sums : List Double} (amounts : ∀ sum ∈ sums, sum.IsAmount)
    (index : Nat) : (sumBefore sums index).IsAmount := by
  rcases sumBefore_eq_zero_or_mem sums index with zero | member
  · rw [zero]
    exact Binary.isAmount_of_magnitude rfl
  · exact amounts _ member

/-- What has gone up in the end goes up at some index. -/
theorem exists_rise {sums : List Double} (amounts : ∀ sum ∈ sums, sum.IsAmount) {last : Nat}
    (total : 0 < sumBefore sums last) :
    ∃ index < last, sumBefore sums index < sumBefore sums (index + 1) := by
  have amount := isAmount_sumBefore amounts
  have rises : ∀ last, 0 < (sumBefore sums last).rank →
      ∃ index < last, sumBefore sums index < sumBefore sums (index + 1) := by
    intro last
    induction last with
    | zero => exact fun total => (Int.lt_irrefl 0 total).elim
    | succ last ih =>
        intro total
        by_cases rise : sumBefore sums last < sumBefore sums (last + 1)
        · exact ⟨last, Nat.lt_succ_self last, rise⟩
        · have level := Binary.rank_le_of_not_lt (amount last).number (amount _).number rise
          obtain ⟨index, before, rise⟩ := ih (Int.lt_of_lt_of_le total level)
          exact ⟨index, Nat.lt_succ_of_lt before, rise⟩
  have less : Binary.lt 0 (sumBefore sums last) = true := total
  exact rises last (of_decide_eq_true (Bool.and_eq_true_iff.mp less).2)

theorem isAmount_of_mem_sumsAfter {before : Double} {weights : List Double}
    (isAmount : before.IsAmount) (amounts : ∀ weight ∈ weights, weight.IsAmount) :
    ∀ sum ∈ sumsAfter before weights, sum.IsAmount := by
  induction weights generalizing before with
  | nil => exact fun _ member => absurd member List.not_mem_nil
  | cons weight weights ih =>
      obtain ⟨first, others⟩ := List.forall_mem_cons.mp amounts
      have next := isAmount.add (by decide) first
      exact List.forall_mem_cons.mpr ⟨next, ih next others⟩

/-- Prefix sums go up somewhere. -/
theorem PrefixSums.exists_reachable {weights : List Single} {table : PrefixSums}
    (run : PrefixSums.build weights = .ok table) :
    ∃ index < table.size, table.isReachable index = true := by
  obtain ⟨checked, total, rfl⟩ := of_build run
  have amounts : ∀ sum ∈ prefixSums (weights.map Single.widen), sum.IsAmount := by
    refine isAmount_of_mem_sumsAfter (Binary.isAmount_of_magnitude rfl) fun wide member => ?_
    obtain ⟨weight, among, rfl⟩ := List.mem_map.mp member
    exact isAmount_widen (isWeight_of_checkWeights checked weight among)
  obtain ⟨index, inside, rise⟩ := exists_rise amounts total
  exact ⟨index, inside, Bool.and_eq_true_iff.mpr ⟨decide_eq_true inside, decide_eq_true rise⟩⟩

/-! ## Supports -/

theorem countBelow_eq_self {size : Nat} {test : Nat → Bool}
    (all : ∀ index < size, test index = true) : countBelow size test = size := by
  rw [countBelow, List.countP_eq_length.mpr fun index member => all index (List.mem_range.mp member),
    List.length_range]

/-- Different indices below a size are counted once. -/
theorem countBelow_contains {indices : List Nat} {size : Nat} (distinct : indices.Nodup)
    (inside : ∀ index ∈ indices, index < size) :
    countBelow size indices.contains = indices.length := by
  rw [countBelow, List.countP_eq_length_filter]
  refine ((List.perm_ext_iff_of_nodup (List.nodup_range.filter _) distinct).mpr ?_).length_eq
  intro index
  rw [List.mem_filter, List.mem_range, List.contains_iff_mem]
  exact and_iff_right_of_imp (inside index)

theorem support_uniform (size : Nat) :
    (uniform size).support = countBelow size (uniform size).isReachable :=
  (countBelow_eq_self fun _ inside => decide_eq_true inside).symm

/-- **The support is a count.** What a built kernel says is the number of indices that can be
drawn is their number. -/
theorem support_eq_of_build {kind : KernelKind} {weights : List Single} {kernel : Kernel}
    (run : build kind weights = .ok kernel) :
    kernel.support = countBelow kernel.size kernel.isReachable := by
  cases kind with
  | uniform =>
      obtain ⟨⟨⟩, -, run⟩ := except_bind_eq_ok.mp run
      cases run
      exact support_uniform _
  | aliased =>
      obtain ⟨table, built, rfl⟩ := except_map_eq_ok.mp run
      rfl
  | unigram =>
      obtain ⟨table, built, rfl⟩ := except_map_eq_ok.mp run
      obtain ⟨distinct, -, frequent⟩ := UnigramTable.placed_of_build built
      refine (countBelow_contains distinct fun index member => ?_).symm
      obtain ⟨frequency, there, -⟩ := frequent index member
      have size : (unigram table).size = weights.length := size_of_build run
      rw [size]
      exact (List.getElem?_eq_some_iff.mp there).1
  | prefixSum =>
      obtain ⟨table, built, rfl⟩ := except_map_eq_ok.mp run
      rfl

/-- A kernel that was built over weights can draw something. -/
theorem support_pos_of_build {kind : KernelKind} {weights : List Single} {kernel : Kernel}
    (run : build kind weights = .ok kernel) : 0 < kernel.support := by
  obtain ⟨index, inside, reachable⟩ :
      ∃ index < kernel.size, kernel.isReachable index = true := by
    cases kind with
    | uniform =>
        obtain ⟨⟨⟩, checked, run⟩ := except_bind_eq_ok.mp run
        cases run
        have positive := length_pos_of_checkWeights checked
        exact ⟨0, positive, decide_eq_true positive⟩
    | aliased =>
        obtain ⟨table, built, rfl⟩ := except_map_eq_ok.mp run
        exact AliasTable.exists_reachable built
    | unigram =>
        obtain ⟨table, built, rfl⟩ := except_map_eq_ok.mp run
        exact UnigramTable.exists_reachable built
    | prefixSum =>
        obtain ⟨table, built, rfl⟩ := except_map_eq_ok.mp run
        exact PrefixSums.exists_reachable built
  rw [support_eq_of_build run]
  exact List.countP_pos_iff.mpr ⟨index, List.mem_range.mpr inside, reachable⟩

end Kernel

end ShardedGraph
