import Mathlib.Data.List.Nodup
import ShardedGraph.Proofs.Amounts

/-!
# What is drawn is reachable

A kernel that was built over weights draws only what it says it can draw, as many different indices
as its support says, and every draw takes a word (`Kernel.isHonest_of_build`,
`Kernel.draws_supported`).

**Alias tables.** A bucket keeps an index only when its share is above the fraction, so the share is
something. A bucket that gives its alias has a share that is at most the fraction, so the share is
below one. This needs that every share is a number: while buckets are paired, all of them hold
amounts, a small one less than one and a large one at least one (`Kernel.Paired`).

**Prefix sums.** A point is a fraction of the total, which is below the total also after it was
rounded (`Number.Format.round_mul_lt`). So some sum lies above the point, and the first such sum is
larger than the one before (`Kernel.firstAbove_spec`), which it is only where there is a weight.

**Slots.** Every slot has an index that was placed, and only indices with positive frequencies are.
-/

set_option autoImplicit false

namespace ShardedGraph

open Number

/-! ## Fractions and words -/

namespace WordStream

/-- A 32-bit fraction is an amount below one. -/
theorem single_lt_one (stream : WordStream) :
    (single.run stream).1.IsAmount ∧ (single.run stream).1 < 1 := by
  have fraction : (single.run stream).1.IsAmount := Binary.isAmount_ofRatio _ _
  have small : lowHalf (stream.word stream.used) >>> 8 < 2 ^ 24 := by
    have := lowHalf_lt (stream.word stream.used)
    rw [Nat.shiftRight_eq_div_pow, Nat.div_lt_iff_lt_mul (by decide)]
    exact this
  have last := @magnitude_ofDyadic_le .single (by decide) (127 * 2 ^ 23 - 1) _ small
    (by decide)
  refine ⟨fraction, (fraction.lt_iff (Binary.isAmount_ofRatio _ _)).mpr ?_⟩
  exact Nat.lt_of_le_of_lt last (by decide)

/-- A 64-bit fraction has 53 digits. -/
theorem fraction_lt (word : UInt64) : word.toNat >>> 11 < 2 ^ 53 := by
  have := word.toNat_lt
  rw [Nat.shiftRight_eq_div_pow, Nat.div_lt_iff_lt_mul (by decide)]
  exact this

/-- The 64-bit fraction of a word is an amount that is at most the last one below one. -/
theorem fraction_le_last (word : UInt64) :
    (Binary.ofDyadic (word.toNat >>> 11) 53 : Double).IsAmount ∧
      (Binary.ofDyadic (word.toNat >>> 11) 53 : Double).magnitude ≤ 1023 * 2 ^ 52 - 1 :=
  ⟨Binary.isAmount_ofRatio _ _,
    @magnitude_ofDyadic_le .double (by decide) _ _ (fraction_lt word) (by decide +kernel)⟩

theorem double_le_last (stream : WordStream) :
    (double.run stream).1.IsAmount ∧ (double.run stream).1.magnitude ≤ 1023 * 2 ^ 52 - 1 :=
  fraction_le_last (stream.word stream.used)

/-- An index takes a word or two. -/
theorem used_lt_below (n : Nat) (stream : WordStream) :
    stream.used < ((below n).run stream).2.used := by
  rw [below, run_indexFrom]
  split
  · exact Nat.lt_succ_of_lt (Nat.lt_succ_self _)
  · exact Nat.lt_succ_self _

end WordStream

namespace Kernel

/-- The support counts the reachable indices. Whatever the stream, a draw gives one of them, and takes
a word. -/
structure IsHonest (kernel : Kernel) : Prop where
  counts : kernel.support = countBelow kernel.size kernel.isReachable
  reachable : ∀ stream, kernel.isReachable (kernel.draw.run stream).1 = true
  takes : ∀ stream, stream.used < (kernel.draw.run stream).2.used

/-! ## Sums of weights -/

section Sums

variable {before wide : Double} {wides : List Double}
  (all : ∀ wide ∈ wides, wide.IsBetween Format.leastWide Format.mostWide)

/-- A sum of weights stays between its bounds when a weight is added. -/
theorem isBetween_add (sum : before.IsBetween Format.leastWide Format.mostSum)
    (weight : wide.IsBetween Format.leastWide Format.mostWide) :
    (before + wide).IsBetween Format.leastWide Format.mostSum :=
  sum.add (by decide) (by decide) (by decide) (by decide) weight

theorem isBetween_zero : (0 : Double).IsBetween Format.leastWide Format.mostSum :=
  ⟨Binary.isAmount_of_magnitude rfl, fun some => absurd some (by decide), by decide⟩

include all

theorem isBetween_total : (total wides).IsBetween Format.leastWide Format.mostSum := by
  have after : ∀ {before : Double}, before.IsBetween Format.leastWide Format.mostSum →
      (wides.foldl (· + ·) before).IsBetween Format.leastWide Format.mostSum := by
    induction wides with
    | nil => exact id
    | cons wide wides ih =>
        intro before sum
        obtain ⟨first, others⟩ := List.forall_mem_cons.mp all
        exact ih others (isBetween_add sum first)
  exact after isBetween_zero

theorem isBetween_of_mem_sumsAfter (sum : before.IsBetween Format.leastWide Format.mostSum) :
    ∀ sum ∈ sumsAfter before wides, sum.IsBetween Format.leastWide Format.mostSum := by
  induction wides generalizing before with
  | nil => exact fun _ member => absurd member List.not_mem_nil
  | cons wide wides ih =>
      obtain ⟨first, others⟩ := List.forall_mem_cons.mp all
      have next := isBetween_add sum first
      exact List.forall_mem_cons.mpr ⟨next, ih others next⟩

theorem isBetween_of_mem_prefixSums :
    ∀ sum ∈ prefixSums wides, sum.IsBetween Format.leastWide Format.mostSum :=
  isBetween_of_mem_sumsAfter all isBetween_zero

end Sums

theorem isBetween_sumBefore {sums : List Double}
    (all : ∀ sum ∈ sums, sum.IsBetween Format.leastWide Format.mostSum) (index : Nat) :
    (sumBefore sums index).IsBetween Format.leastWide Format.mostSum := by
  rcases sumBefore_eq_zero_or_mem sums index with zero | member
  · rw [zero]
    exact isBetween_zero
  · exact all _ member

theorem isBetween_of_checkWeights {kind : KernelKind} {weights : List Single}
    (checked : checkWeights kind weights = .ok ()) :
    ∀ wide ∈ weights.map Single.widen, wide.IsBetween Format.leastWide Format.mostWide := by
  intro wide member
  obtain ⟨weight, among, rfl⟩ := List.mem_map.mp member
  exact isBetween_widen (isWeight_of_checkWeights checked weight among)

/-! ## Alias tables -/

/-- What pairing keeps: every bucket holds an amount, the small ones less than one and the large
ones at least one, and no bucket waits twice. -/
structure Paired (keep : List Double) (smaller larger : List Nat) : Prop where
  amounts : ∀ share ∈ keep, share.IsAmount
  small : ∀ index ∈ smaller, keep.getD index 0 < 1
  large : ∀ index ∈ larger, ¬keep.getD index 0 < 1
  distinct : (smaller ++ larger).Nodup

theorem isAmount_getD {format : Format} {shares : List (Binary format)}
    (amounts : ∀ share ∈ shares, share.IsAmount) (index : Nat) :
    (shares.getD index 0).IsAmount := by
  rw [List.getD_eq_getElem?_getD]
  cases there : shares[index]? with
  | none => exact Binary.isAmount_of_magnitude rfl
  | some share => exact amounts share (List.mem_of_getElem? there)

section Pairing

variable {keep : List Double} {smaller larger : List Nat} {small top : Nat}

theorem getD_set_of_ne {α : Type} (items : List α) (value other : α) {index place : Nat}
    (apart : place ≠ index) : (items.set place value).getD index other = items.getD index other := by
  rw [List.getD_eq_getElem?_getD, List.getElem?_set_ne apart, List.getD_eq_getElem?_getD]

/-- The top large bucket gives away what the top small one lacks, and its share stays an amount. -/
theorem Paired.isAmount_left (paired : Paired keep (small :: smaller) (top :: larger)) :
    (keep.getD top 0 + (keep.getD small 0 - 1)).IsAmount :=
  (isAmount_getD paired.amounts top).add_sub_one (isAmount_getD paired.amounts small)
    (paired.small small List.mem_cons_self) (paired.large top List.mem_cons_self)

theorem Paired.inside (paired : Paired keep smaller larger) {index : Nat}
    (member : index ∈ larger) : index < keep.length := by
  by_contra outside
  refine paired.large index member ?_
  rw [List.getD_eq_getElem?_getD, List.getElem?_eq_none (Nat.not_lt.mp outside)]
  decide +kernel

/-- The small bucket is finished; the large one, with what it has left, waits among its like. -/
theorem Paired.next (paired : Paired keep (small :: smaller) (top :: larger)) {left : Double}
    (isAmount : left.IsAmount) :
    (left < 1 → Paired (keep.set top left) (top :: smaller) larger) ∧
      (¬left < 1 → Paired (keep.set top left) smaller (top :: larger)) := by
  have amounts : ∀ share ∈ keep.set top left, share.IsAmount := fun share member =>
    (List.mem_or_eq_of_mem_set member).elim (paired.amounts share) (· ▸ isAmount)
  have waiting : (smaller ++ top :: larger).Nodup := (List.nodup_cons.mp paired.distinct).2
  have waiting' : (top :: (smaller ++ larger)).Nodup := List.perm_middle.nodup_iff.mp waiting
  have apart : ∀ index ∈ smaller ++ larger, top ≠ index := fun index member same =>
    (List.nodup_cons.mp waiting').1 (same ▸ member)
  have here : (keep.set top left).getD top 0 = left := by
    simp [List.getD_eq_getElem?_getD, paired.inside List.mem_cons_self]
  have small' : ∀ index ∈ smaller, (keep.set top left).getD index 0 < 1 := fun index member => by
    rw [getD_set_of_ne _ _ _ (apart index (List.mem_append_left _ member))]
    exact paired.small index (.tail _ member)
  have large' : ∀ index ∈ larger, ¬(keep.set top left).getD index 0 < 1 := fun index member => by
    rw [getD_set_of_ne _ _ _ (apart index (List.mem_append_right _ member))]
    exact paired.large index (.tail _ member)
  refine ⟨fun less => ⟨amounts, ?_, large', waiting'⟩, fun least => ⟨amounts, small', ?_, waiting⟩⟩
  · exact List.forall_mem_cons.mpr ⟨here.symm ▸ less, small'⟩
  · exact List.forall_mem_cons.mpr ⟨here.symm ▸ least, large'⟩

theorem mem_of_mem_fill {α : Type} [One α] {keep : List α} {indices : List Nat} {share : α}
    (member : share ∈ fill keep indices) : share ∈ keep ∨ share = 1 := by
  induction indices generalizing keep with
  | nil => exact .inl member
  | cons index indices ih =>
      rcases ih member with old | one
      · exact List.mem_or_eq_of_mem_set old
      · exact .inr one

/-- Buckets hold amounts when they are paired to the end. -/
theorem isAmount_of_mem_pair {buckets : Buckets Double} {smaller larger : List Nat}
    (paired : Paired buckets.keep smaller larger) :
    ∀ share ∈ (pair buckets smaller larger).keep, share.IsAmount := by
  fun_induction pair buckets smaller larger with
  | case1 buckets small smaller top larger left next less ih =>
      exact ih ((paired.next paired.isAmount_left).1 less)
  | case2 buckets small smaller top larger left next least ih =>
      exact ih ((paired.next paired.isAmount_left).2 least)
  | case3 buckets smaller larger done =>
      intro share member
      rcases mem_of_mem_fill member with old | rfl
      · exact paired.amounts share old
      · exact Binary.isAmount_ofRatio _ _

end Pairing

theorem length_rest_pair {α : Type} [Zero α] [One α] [Add α] [Sub α] [LT α] [DecidableLT α]
    (buckets : Buckets α) (smaller larger : List Nat) :
    (pair buckets smaller larger).rest.length = buckets.rest.length := by
  fun_induction pair buckets smaller larger with
  | case1 buckets small smaller top larger left next less ih => exact ih.trans List.length_set
  | case2 buckets small smaller top larger left next least ih => exact ih.trans List.length_set
  | case3 buckets smaller larger done => rfl

/-- Weights are scaled to amounts. -/
theorem isAmount_of_mem_scaled {wides : List Double} (few : wides.length ≤ UInt64.size)
    (all : ∀ wide ∈ wides, wide.IsBetween Format.leastWide Format.mostWide) (some : 0 < total wides) :
    ∀ share ∈ scaled wides, share.IsAmount := by
  intro share member
  obtain ⟨wide, among, rfl⟩ := List.mem_map.mp member
  have sum := isBetween_total all
  obtain ⟨size, bounded⟩ := isAmount_ofNat (Nat.le_trans few (by decide))
  have finite : wide.isFinite = true :=
    decide_eq_true (Nat.lt_of_le_of_lt (all wide among).high (by decide))
  have finite' := Binary.isFinite_of_le_mostSum sum.high
  exact ((all wide among).isAmount.mul size finite bounded).div sum.isAmount finite'
    (sum.isAmount.pos_iff.mp some)

/-- Scaled weights that wait to be paired. -/
theorem paired_scaled {keep : List Double} (amounts : ∀ share ∈ keep, share.IsAmount)
    (indices : List Nat) (distinct : indices.Nodup) :
    Paired keep (indices.filter fun index => decide (keep.getD index 0 < 1)).reverse
      (indices.filter fun index => !decide (keep.getD index 0 < 1)).reverse where
  amounts := amounts
  small index member := by simpa using (List.mem_filter.mp (List.mem_reverse.mp member)).2
  large index member := by simpa using (List.mem_filter.mp (List.mem_reverse.mp member)).2
  distinct := by
    refine List.nodup_append.mpr ⟨List.nodup_reverse.mpr (distinct.filter _),
      List.nodup_reverse.mpr (distinct.filter _), fun index small other large same => ?_⟩
    have less := (List.mem_filter.mp (List.mem_reverse.mp small)).2
    have least := (List.mem_filter.mp (List.mem_reverse.mp large)).2
    rw [← same, less] at least
    cases least

theorem isAmount_of_mem_ofWeights {wides : List Double} (few : wides.length ≤ UInt64.size)
    (all : ∀ wide ∈ wides, wide.IsBetween Format.leastWide Format.mostWide) (some : 0 < total wides) :
    ∀ share ∈ (Buckets.ofWeights wides).keep, share.IsAmount :=
  isAmount_of_mem_pair (paired_scaled (isAmount_of_mem_scaled few all some) _ List.nodup_range)

theorem length_rest_ofWeights (wides : List Double) :
    (Buckets.ofWeights wides).rest.length = wides.length :=
  (length_rest_pair _ _ _).trans List.length_range

/-- Every share of a table is an amount, and every bucket has an alias. -/
theorem AliasTable.spec_of_build {weights : List Single} {table : AliasTable}
    (run : AliasTable.build weights = .ok table) (few : weights.length ≤ UInt64.size) :
    (∀ share ∈ table.keep, share.IsAmount) ∧ table.rest.length = table.keep.length := by
  obtain ⟨checked, some, rfl⟩ := of_build run
  rw [← List.length_map Single.widen] at few
  have keeps := isAmount_of_mem_ofWeights few (isBetween_of_checkWeights checked) some
  refine ⟨fun share member => ?_, ?_⟩
  · obtain ⟨wide, among, rfl⟩ := List.mem_map.mp member
    exact (keeps wide among).convert (by decide) .single
  · rw [List.length_map, length_keep_ofWeights, length_rest_ofWeights]

/-- A table whose shares are amounts draws what it keeps or gives away. -/
theorem AliasTable.isReachable_draw {table : AliasTable} (positive : 0 < table.size)
    (amounts : ∀ share ∈ table.keep, share.IsAmount)
    (length : table.rest.length = table.keep.length) (stream : WordStream) :
    table.isReachable (table.draw.run stream).1 = true := by
  have bucket := WordStream.below_lt positive stream
  obtain ⟨fraction, below⟩ := WordStream.single_lt_one ((WordStream.below table.size).run stream).2
  rw [value_draw, Buckets.pick]
  generalize (WordStream.single.run ((WordStream.below table.size).run stream).2).1 = share at *
  generalize ((WordStream.below table.size).run stream).1 = index at *
  have kept := isAmount_getD amounts index
  rw [isReachable, Bool.or_eq_true]
  split
  · next above =>
    rw [fraction.lt_iff kept] at above
    exact .inl (decide_eq_true (kept.pos_iff.mpr (Nat.zero_lt_of_lt above)))
  · next notAbove =>
    have one : (1 : Single).IsAmount := Binary.isAmount_ofRatio _ _
    rw [fraction.lt_iff kept, Nat.not_lt] at notAbove
    rw [fraction.lt_iff one] at below
    have less := (kept.lt_iff one).mpr (Nat.lt_of_le_of_lt notAbove below)
    refine .inr (List.any_eq_true.mpr ⟨(table.keep.getD index 0, table.rest.getD index 0), ?_, ?_⟩)
    · have inside : index < table.keep.length := bucket
      have inside' : index < table.rest.length := length ▸ bucket
      refine List.mem_of_getElem? (i := index) ?_
      rw [List.getElem?_zip_eq_some]
      simp [List.getD_eq_getElem?_getD, inside, inside']
    · exact Bool.and_eq_true_iff.mpr ⟨beq_self_eq_true _, decide_eq_true less⟩

theorem AliasTable.used_lt_draw (table : AliasTable) (stream : WordStream) :
    stream.used < (table.draw.run stream).2.used := by
  have taken := WordStream.used_lt_below table.size stream
  unfold draw
  generalize WordStream.below table.size = below at taken ⊢
  exact Nat.lt_succ_of_lt taken

/-! ## Unigram tables -/

/-- A table draws the index of one of its slots. -/
theorem UnigramTable.draw_mem_slots {table : UnigramTable} (some : 0 < table.slots.length)
    (stream : WordStream) : (table.draw.run stream).1 ∈ table.slots := by
  have slot := WordStream.below_lt some stream
  unfold draw
  generalize WordStream.below table.slots.length = below at slot ⊢
  change table.slots.getD (below.run stream).1 0 ∈ table.slots
  rw [List.getD_eq_getElem?_getD, List.getElem?_eq_getElem slot]
  exact List.getElem_mem slot

/-- A table that was built draws an index that it placed. -/
theorem UnigramTable.isReachable_draw {weights : List Single} {table : UnigramTable}
    (run : UnigramTable.build weights = .ok table) (stream : WordStream) :
    table.isReachable (table.draw.run stream).1 = true := by
  obtain ⟨-, placed, -⟩ := placed_of_build run
  obtain ⟨index, _, reachable⟩ := exists_reachable run
  have slot := (placed index).mpr (List.contains_iff_mem.mp reachable)
  exact List.contains_iff_mem.mpr
    ((placed _).mp (draw_mem_slots (List.length_pos_of_mem slot) stream))

/-! ## Prefix sums -/

section Sums

variable {α : Type} [Zero α] [Add α] {weights : List α} {index : Nat} {weight : α}

theorem getD_sumsAfter {before : α} (there : weights[index]? = some weight) :
    (sumsAfter before weights).getD index 0 =
      (if index = 0 then before else (sumsAfter before weights).getD (index - 1) 0) + weight := by
  induction weights generalizing before index with
  | nil => cases there
  | cons first weights ih =>
      cases index with
      | zero =>
          cases there
          rfl
      | succ index =>
          change (sumsAfter (before + first) weights).getD index 0 = _
          rw [ih there]
          cases index <;> rfl

/-- The sum after an index has its weight added to the sum before it. -/
theorem sumBefore_succ (there : weights[index]? = some weight) :
    sumBefore (prefixSums weights) (index + 1) = sumBefore (prefixSums weights) index + weight :=
  getD_sumsAfter there

end Sums

section Search

variable {α : Type} [Zero α]

theorem sumBefore_succ_eq {sums : List α} {index : Nat} (inside : index < sums.length) :
    sumBefore sums (index + 1) = sums[index] := by
  simp [sumBefore, List.getD_eq_getElem?_getD, inside]

/-- The sums of a range, one by one. -/
theorem getElem_take_drop {sums : List α} {first last offset : Nat} (inside : last ≤ sums.length)
    (within : offset < ((sums.drop first).take (last - first)).length) :
    ((sums.drop first).take (last - first))[offset] = sumBefore sums (first + offset + 1) := by
  rw [List.length_take, List.length_drop] at within
  rw [sumBefore_succ_eq (by omega), List.getElem_take, List.getElem_drop]

/-- When the sum at the end of a range lies above a point, the search ends before the end. -/
theorem findIdx_lt_of_above [LT α] [DecidableLT α] {sums : List α} {first last : Nat} {point : α}
    (order : first < last) (inside : last ≤ sums.length) (above : point < sumBefore sums last) :
    ((sums.drop first).take (last - first)).findIdx (fun sum => decide (point < sum)) <
      last - first := by
  have length : ((sums.drop first).take (last - first)).length = last - first := by
    rw [List.length_take, List.length_drop]
    omega
  have final : last - first - 1 < ((sums.drop first).take (last - first)).length := by omega
  refine Nat.lt_of_lt_of_eq (List.findIdx_lt_length_of_exists
    ⟨_, List.getElem_mem final, decide_eq_true ?_⟩) length
  have same : first + (last - first - 1) + 1 = last := by omega
  rwa [getElem_take_drop inside, same]

/-- Then the search is not cut off at the last index of the range. -/
theorem firstAbove_eq [LT α] [DecidableLT α] {sums : List α} {first last : Nat} {point : α}
    (order : first < last) (inside : last ≤ sums.length) (above : point < sumBefore sums last) :
    firstAbove sums first last point =
      first + ((sums.drop first).take (last - first)).findIdx fun sum => decide (point < sum) := by
  have found := findIdx_lt_of_above order inside above
  rw [firstAbove]
  omega

/-- Between a sum that is not above a point and one that is, the search finds where they pass it. -/
theorem firstAbove_spec [LT α] [DecidableLT α] {sums : List α} {first last : Nat} {point : α}
    (order : first < last) (inside : last ≤ sums.length) (start : ¬point < sumBefore sums first)
    (above : point < sumBefore sums last) :
    ¬point < sumBefore sums (firstAbove sums first last point) ∧
      point < sumBefore sums (firstAbove sums first last point + 1) := by
  have found := findIdx_lt_of_above order inside above
  rw [firstAbove_eq order inside above]
  obtain ⟨part, made⟩ : ∃ part, (sums.drop first).take (last - first) = part := ⟨_, rfl⟩
  have after : ∀ offset (within : offset < part.length),
      part[offset] = sumBefore sums (first + offset + 1) := fun offset within => by
    subst made
    exact getElem_take_drop inside within
  have length : part.length = last - first := by
    rw [← made, List.length_take, List.length_drop]
    omega
  rw [made, ← length] at found
  rw [made]
  refine ⟨?_, ?_⟩
  · cases offset : part.findIdx fun sum => decide (point < sum) with
    | zero => exact start
    | succ earlier =>
        have before : earlier < part.findIdx fun sum => decide (point < sum) := by omega
        rw [← Nat.add_assoc, ← after earlier (by omega)]
        exact of_decide_eq_false (List.not_of_lt_findIdx before)
  · rw [← after _ found]
    exact of_decide_eq_true (List.findIdx_getElem (w := found))

end Search

/-- The sums go up at the index that the search finds for a point. -/
theorem rises_at_firstAbove {sums : List Double} (all : ∀ sum ∈ sums, sum.IsAmount) {first last : Nat}
    {point : Double} (isAmount : point.IsAmount) (order : first < last)
    (inside : last ≤ sums.length) (start : ¬point < sumBefore sums first)
    (above : point < sumBefore sums last) :
    sumBefore sums (firstAbove sums first last point) <
      sumBefore sums (firstAbove sums first last point + 1) := by
  have amounts := isAmount_sumBefore all
  obtain ⟨before, after⟩ := firstAbove_spec order inside start above
  generalize firstAbove sums first last point = index at before after ⊢
  rw [isAmount.lt_iff (amounts _)] at before after
  exact ((amounts _).lt_iff (amounts _)).mpr (Nat.lt_of_le_of_lt (Nat.not_lt.mp before) after)

section Points

variable {sums : List Double} {first last : Nat} {fraction : Double}
  (nothing : (sumBefore sums first).magnitude = 0)
  (all : ∀ sum ∈ sums, sum.IsBetween Format.leastWide Format.mostSum)
  (some : 0 < sumBefore sums last) (isAmount : fraction.IsAmount)
  (last_le : fraction.magnitude ≤ 1023 * 2 ^ 52 - 1)

include nothing all some isAmount last_le

/-- Where nothing stands before, a point is a product of the fraction and the sum of weights: an
amount, and below the sum. -/
theorem pointOf_rounds :
    (pointOf sums first last fraction).IsAmount ∧
      (pointOf sums first last fraction).magnitude =
        Format.double.round (fraction.units * (sumBefore sums last).units)
          (2 ^ Format.double.unitExponent) ∧
      (pointOf sums first last fraction).magnitude < (sumBefore sums last).magnitude := by
  have between := isBetween_sumBefore all last
  rw [pointOf]
  generalize sumBefore sums last = high at some between ⊢
  generalize sumBefore sums first = low at nothing ⊢
  have something := between.isAmount.pos_iff.mp some
  have finite := Binary.isFinite_of_le_mostSum between.high
  have finite' : fraction.isFinite = true :=
    decide_eq_true (Nat.lt_of_le_of_lt last_le (by decide))
  have plus : high.negative = false := Bool.eq_false_iff.mpr fun sign =>
    Nat.ne_of_gt something (between.isAmount.magnitude_eq_zero sign)
  have whole : high - low = high :=
    (Binary.add_eq_self (y := low.neg) (by decide) finite plus nothing).1
  rw [whole]
  have product := isAmount.mul between.isAmount finite' finite
  have point := (Binary.isAmount_of_magnitude nothing).add (by decide) product
  have rounded : (fraction * high).magnitude =
      Format.double.round (fraction.units * high.units) (2 ^ Format.double.unitExponent) := by
    rw [Binary.mul_of_isFinite finite' finite]
    rfl
  have below : (fraction * high).magnitude < high.magnitude := by
    rw [rounded]
    refine Format.round_mul_lt (by decide) (Nat.two_pow_pos _)
      (Nat.le_trans (by decide) (between.low something)) ?_
    have part : fraction.units ≤ Format.double.units (1023 * 2 ^ 52 - 1) :=
      Format.units_mono last_le
    exact Nat.le_trans (Nat.mul_le_mul_right _ part) (by decide +kernel)
  have product_finite : (fraction * high).isFinite = true :=
    decide_eq_true (Nat.lt_trans below (of_decide_eq_true finite))
  have same := (product.magnitude_add_nothing (by decide) product_finite nothing).2
  exact ⟨point, same.trans rounded, same ▸ below⟩

theorem pointOf_lt : pointOf sums first last fraction < sumBefore sums last := by
  obtain ⟨point, -, below⟩ := pointOf_rounds nothing all some isAmount last_le
  exact (point.lt_iff (isBetween_sumBefore all last).isAmount).mpr below

/-- A pick from a range before which nothing stands is an index at which the sums go up. -/
theorem rises_at_pick (order : first < last) (inside : last ≤ sums.length) :
    sumBefore sums (pick sums first last fraction) <
      sumBefore sums (pick sums first last fraction + 1) := by
  obtain ⟨point, -⟩ := pointOf_rounds nothing all some isAmount last_le
  refine rises_at_firstAbove (fun sum member => (all sum member).isAmount) point order inside ?_
    (pointOf_lt nothing all some isAmount last_le)
  rw [point.lt_iff (Binary.isAmount_of_magnitude nothing), nothing]
  exact Nat.not_lt_zero _

end Points

theorem PrefixSums.size_pos {table : PrefixSums} (some : 0 < sumBefore table.sums table.size) :
    0 < table.size := by
  refine Nat.pos_of_ne_zero fun none => ?_
  have nothing : sumBefore table.sums table.size = 0 := if_pos none
  rw [nothing] at some
  exact absurd some (by decide)

/-- From a range with weight an index is picked, by one fraction. -/
theorem PrefixSums.drawBetween_picks {table : PrefixSums} {first last : Nat} (order : first < last)
    (inside : last ≤ table.size)
    (some : sumBefore table.sums first < sumBefore table.sums last) (stream : WordStream) :
    runFrom (table.drawBetween first last) stream =
      (.ok (pick table.sums first last (WordStream.double.run stream).1),
        (WordStream.double.run stream).2) := by
  have accepted : runFrom (liftM (checkRange table.size first last)) stream =
      (.ok (), stream) := by rw [runFrom_liftM, checkRange, if_neg (by omega)]
  refine (runFrom_bind_of_ok accepted).trans ?_
  rw [if_pos some]
  rfl

/-- Prefix sums that have a total draw a pick from all indices. -/
theorem PrefixSums.run_draw {table : PrefixSums} (some : 0 < sumBefore table.sums table.size)
    (stream : WordStream) :
    table.draw.run stream =
      (pick table.sums 0 table.size (WordStream.double.run stream).1,
        (WordStream.double.run stream).2) := by
  have start : sumBefore table.sums 0 = 0 := if_pos rfl
  have run : (table.drawBetween 0 table.size).run.run stream = _ :=
    drawBetween_picks (size_pos some) (Nat.le_refl _) (start ▸ some) stream
  rw [draw, StateT.run_bind, run]
  rfl

/-- A table that was built has a total, and its sums are sums of weights. -/
theorem PrefixSums.spec_of_build {weights : List Single} {table : PrefixSums}
    (run : PrefixSums.build weights = .ok table) :
    0 < sumBefore table.sums table.size ∧
      ∀ sum ∈ table.sums, sum.IsBetween Format.leastWide Format.mostSum := by
  obtain ⟨checked, some, rfl⟩ := of_build run
  exact ⟨some, isBetween_of_mem_prefixSums (isBetween_of_checkWeights checked)⟩

/-- The sums go up only at an index that has weight. -/
theorem PrefixSums.weight_of_isReachable {weights : List Single} {table : PrefixSums}
    (run : PrefixSums.build weights = .ok table) {index : Nat}
    (reachable : table.isReachable index = true) :
    ∃ weight, weights[index]? = some weight ∧ 0 < weight := by
  obtain ⟨inside, rises⟩ := Bool.and_eq_true_iff.mp reachable
  have rises := of_decide_eq_true rises
  have inside : index < weights.length := size_of_build run ▸ of_decide_eq_true inside
  have there : weights[index]? = some weights[index] := List.getElem?_eq_getElem inside
  obtain ⟨checked, -, made⟩ := of_build run
  have isWeight := isWeight_of_checkWeights checked _ (List.mem_of_getElem? there)
  have isAmount := isAmount_widen isWeight
  have after : sumBefore table.sums (index + 1) =
      sumBefore table.sums index + weights[index].widen := by
    rw [made]
    exact sumBefore_succ (by rw [List.getElem?_map, there]; rfl)
  have before := isBetween_sumBefore (spec_of_build run).2 index
  refine ⟨_, there, (pos_widen_iff isWeight).mp (isAmount.pos_iff.mpr ?_)⟩
  refine Nat.pos_of_ne_zero fun nothing => ?_
  have finite := Binary.isFinite_of_le_mostSum before.high
  have same := (before.isAmount.magnitude_add_nothing (by decide) finite nothing).1
  rw [after, before.isAmount.lt_iff (before.isAmount.add (by decide) isAmount), same] at rises
  exact Nat.lt_irrefl _ rises

/-! ## Kernels -/

theorem isHonest_uniform {size : Nat} (positive : 0 < size) : (uniform size).IsHonest :=
  ⟨support_uniform size, fun stream => decide_eq_true (WordStream.below_lt positive stream),
    WordStream.used_lt_below _⟩

/-- **What is drawn is reachable.** A kernel that was built over weights, not more than there are
words, draws only what it can draw, and takes a word for it. -/
theorem isHonest_of_build {kind : KernelKind} {weights : List Single} {kernel : Kernel}
    (run : build kind weights = .ok kernel) (few : weights.length ≤ UInt64.size) :
    kernel.IsHonest := by
  have counts := support_eq_of_build run
  cases kind with
  | uniform =>
      obtain ⟨⟨⟩, checked, run⟩ := except_bind_eq_ok.mp run
      cases run
      exact isHonest_uniform (length_pos_of_checkWeights checked)
  | aliased =>
      obtain ⟨table, built, rfl⟩ := except_map_eq_ok.mp run
      obtain ⟨amounts, length⟩ := AliasTable.spec_of_build built few
      have positive : 0 < table.size := by
        obtain ⟨index, inside, _⟩ := AliasTable.exists_reachable built
        exact Nat.zero_lt_of_lt inside
      exact ⟨counts, AliasTable.isReachable_draw positive amounts length, table.used_lt_draw⟩
  | unigram =>
      obtain ⟨table, built, rfl⟩ := except_map_eq_ok.mp run
      exact ⟨counts, UnigramTable.isReachable_draw built,
        fun stream => WordStream.used_lt_below _ stream⟩
  | prefixSum =>
      obtain ⟨table, built, rfl⟩ := except_map_eq_ok.mp run
      obtain ⟨some, all⟩ := PrefixSums.spec_of_build built
      refine ⟨counts, fun stream => ?_, fun stream => ?_⟩
      · obtain ⟨fraction, last⟩ := WordStream.double_le_last stream
        change table.isReachable (table.draw.run stream).1 = true
        rw [PrefixSums.run_draw some]
        have positive := PrefixSums.size_pos some
        have bounds := @pick_bounds table.sums _ _ positive (WordStream.double.run stream).1
        have rises := rises_at_pick rfl all some fraction last positive (Nat.le_refl _)
        exact Bool.and_eq_true_iff.mpr ⟨decide_eq_true bounds.2, decide_eq_true rises⟩
      · change stream.used < (table.draw.run stream).2.used
        rw [PrefixSums.run_draw some]
        exact Nat.lt_succ_self _

/-- **No draw leaves the support.** A kernel that was built over weights, as many as a machine word
can count, has one index for each of them. Whatever the stream, a draw gives one of these indices and
one that is reachable, and the support is the number of indices that are. Of slots and of prefix sums
only an index with a positive weight is reachable. -/
theorem draws_supported {kind : KernelKind} {weights : List Single} {kernel : Kernel}
    (run : build kind weights = .ok kernel) (few : weights.length ≤ UInt64.size) :
    kernel.size = weights.length ∧
    (∀ stream, (kernel.draw.run stream).1 < kernel.size ∧
      kernel.isReachable (kernel.draw.run stream).1 = true) ∧
    kernel.support = (List.range kernel.size).countP kernel.isReachable ∧
    (kind = .unigram ∨ kind = .prefixSum → ∀ index, kernel.isReachable index = true →
      ∃ weight, weights[index]? = some weight ∧ 0 < weight) := by
  have size := size_of_build run
  have honest := isHonest_of_build run few
  refine ⟨size, fun stream => ⟨?_, honest.reachable stream⟩, honest.counts, ?_⟩
  · rw [size]
    exact (inBounds_of_build run).draw stream
  · rintro (rfl | rfl) index reachable
    · obtain ⟨table, built, rfl⟩ := except_map_eq_ok.mp run
      exact (UnigramTable.placed_of_build built).2.2 index (List.contains_iff_mem.mp reachable)
    · obtain ⟨table, built, rfl⟩ := except_map_eq_ok.mp run
      exact PrefixSums.weight_of_isReachable built reachable

/-- Three weights, the middle one of which is nothing. -/
def gappedWeights : List Single := [3, 0, 1].map Binary.ofNat

theorem exists_gapped (kind : KernelKind) : ∃ kernel, build kind gappedWeights = .ok kernel := by
  have built : ((build kind gappedWeights).toOption).isSome = true := by
    cases kind <;> decide +kernel
  obtain ⟨kernel, run⟩ := Option.isSome_iff_exists.mp built
  exact ⟨kernel, except_toOption_eq_some.mp run⟩

/-- Over these weights an alias table, slots and prefix sums draw only what they can draw, and neither
the slots nor the sums give the middle index. -/
theorem draws_supported_gapped :
    ∃ aliased slots sums, gappedWeights.length ≤ UInt64.size ∧
      build .aliased gappedWeights = .ok aliased ∧ build .unigram gappedWeights = .ok slots ∧
      build .prefixSum gappedWeights = .ok sums ∧
      (∀ stream, aliased.isReachable (aliased.draw.run stream).1 = true) ∧
      (∀ stream, (slots.draw.run stream).1 < slots.size) ∧
      sums.support = (List.range sums.size).countP sums.isReachable ∧
      slots.isReachable 1 = false ∧ sums.isReachable 1 = false := by
  have few : gappedWeights.length ≤ UInt64.size := by decide
  obtain ⟨aliased, built⟩ := exists_gapped .aliased
  obtain ⟨slots, built'⟩ := exists_gapped .unigram
  obtain ⟨sums, built''⟩ := exists_gapped .prefixSum
  obtain ⟨-, drawn, -⟩ := draws_supported built few
  obtain ⟨-, drawn', -, weighted⟩ := draws_supported built' few
  obtain ⟨-, -, support, weighted'⟩ := draws_supported built'' few
  have none : ¬∃ weight, gappedWeights[1]? = some weight ∧ 0 < weight := by
    rintro ⟨weight, there, positive⟩
    cases there
    exact absurd positive (by decide +kernel)
  exact ⟨aliased, slots, sums, few, built, built', built'', fun stream => (drawn stream).2,
    fun stream => (drawn' stream).1, support,
    Bool.eq_false_iff.mpr fun reachable => none (weighted (.inl rfl) 1 reachable),
    Bool.eq_false_iff.mpr fun reachable => none (weighted' (.inr rfl) 1 reachable)⟩

end Kernel

end ShardedGraph
