import Mathlib.Algebra.BigOperators.Intervals
import Mathlib.Algebra.Order.BigOperators.Group.Finset
import Mathlib.Algebra.Order.Field.Basic
import Mathlib.Order.CompletePartialOrder
import Mathlib.Order.SuccPred.IntervalSucc
import Mathlib.Tactic.FieldSimp
import ShardedGraph.Proofs.Reachable

/-!
# The width of an index

Over exact numbers the sum before an index is the weight of all indices before it
(`Kernel.sumBefore_prefixSums`), and the point of a range lies in the interval of an index exactly
when the fraction lies between the parts of the range's weight before the index and after it
(`Kernel.mem_interval_iff`).

So every index of a range owns an interval of fractions, whose width is the part that its weight has
in the range. These intervals are next to each other and fill the fractions below one, and the
search is never cut off at the end of the range (`Kernel.pick_intervals`).
-/

set_option autoImplicit false

namespace ShardedGraph.Kernel

variable {α : Type} [Field α]

/-- The weight of the indices at least `first` and below `last`. -/
def weightBetween (weights : List α) (first last : Nat) : α :=
  ∑ index ∈ Finset.Ico first last, weights.getD index 0

/-- The part of the weight of a range that lies before an index. -/
def partBefore (weights : List α) (first last index : Nat) : α :=
  weightBetween weights first index / weightBetween weights first last

/-- The interval of an index: the fractions that are not below the part before the index, and below
the part before the next one. -/
def interval [LinearOrder α] (weights : List α) (first last index : Nat) : Set α :=
  Set.Ico (partBefore weights first last index) (partBefore weights first last (index + 1))

variable {weights : List α} {first last index : Nat}

/-! ## Sums -/

theorem weightBetween_self (weights : List α) (index : Nat) :
    weightBetween weights index index = 0 := by
  rw [weightBetween, Finset.Ico_self, Finset.sum_empty]

/-- The weight of a range is put together from the weights of its two parts. -/
theorem weightBetween_add (weights : List α) {middle : Nat} (before : first ≤ middle)
    (after : middle ≤ last) :
    weightBetween weights first middle + weightBetween weights middle last =
      weightBetween weights first last :=
  Finset.sum_Ico_consecutive _ before after

theorem weightBetween_succ {weight : α} (least : first ≤ index)
    (there : weights[index]? = some weight) :
    weightBetween weights first (index + 1) = weightBetween weights first index + weight := by
  rw [weightBetween, Finset.sum_Ico_succ_top least, List.getD_eq_getElem?_getD, there]
  rfl

/-- The sum before an index is the weight of the indices before it. -/
theorem sumBefore_prefixSums (inside : index ≤ weights.length) :
    sumBefore (prefixSums weights) index = weightBetween weights 0 index := by
  induction index with
  | zero => exact (weightBetween_self weights 0).symm
  | succ index ih =>
      have there := List.getElem?_eq_getElem (Nat.lt_of_succ_le inside)
      rw [sumBefore_succ there, ih (Nat.le_of_succ_le inside),
        weightBetween_succ (Nat.zero_le index) there]

/-- What a sum has more than an earlier one is the weight between them. -/
theorem sumBefore_eq_add (order : first ≤ index) (inside : index ≤ weights.length) :
    sumBefore (prefixSums weights) index =
      sumBefore (prefixSums weights) first + weightBetween weights first index := by
  rw [sumBefore_prefixSums inside, sumBefore_prefixSums (Nat.le_trans order inside),
    weightBetween_add weights (Nat.zero_le first) order]

theorem pointOf_eq (order : first ≤ last) (inside : last ≤ weights.length) (fraction : α) :
    pointOf (prefixSums weights) first last fraction =
      sumBefore (prefixSums weights) first + fraction * weightBetween weights first last := by
  rw [pointOf, sumBefore_eq_add order inside, add_sub_cancel_left]

/-- The parts of the weight before the first index of a range and before its end. -/
theorem partBefore_ends (some : weightBetween weights first last ≠ 0) :
    partBefore weights first last first = 0 ∧ partBefore weights first last last = 1 := by
  rw [partBefore, partBefore, weightBetween_self, zero_div]
  exact ⟨rfl, div_self some⟩

/-- The part of the weight up to an index has the part of its own weight added to the part before
it. -/
theorem partBefore_succ {weight : α} (least : first ≤ index)
    (there : weights[index]? = some weight) :
    partBefore weights first last (index + 1) =
      partBefore weights first last index + weight / weightBetween weights first last := by
  rw [partBefore, weightBetween_succ least there, add_div, partBefore]

/-! ## Intervals -/

variable [LinearOrder α]

/-- The interval of an index without weight is empty. -/
theorem interval_eq_empty (least : first ≤ index) (there : weights[index]? = some 0) :
    interval weights first last index = ∅ := by
  rw [interval, partBefore_succ least there, zero_div, add_zero, Set.Ico_self]

variable [IsStrictOrderedRing α]

section Order

variable (all : ∀ weight ∈ weights, 0 ≤ weight)

include all

omit [IsStrictOrderedRing α] in
theorem getD_nonneg (index : Nat) : 0 ≤ weights.getD index 0 := by
  rw [List.getD_eq_getElem?_getD]
  cases there : weights[index]? with
  | none => exact le_refl 0
  | some weight => exact all weight (List.mem_of_getElem? there)

theorem weightBetween_mono (first : Nat) : Monotone (weightBetween weights first) := by
  intro earlier later order
  exact Finset.sum_le_sum_of_subset_of_nonneg (Finset.Ico_subset_Ico_right order)
    fun index _ _ => getD_nonneg all index

theorem partBefore_mono (first last : Nat) : Monotone (partBefore weights first last) := by
  intro earlier later order
  refine div_le_div_of_nonneg_right (weightBetween_mono all first order) ?_
  exact Finset.sum_nonneg fun index _ => getD_nonneg all index

/-- The intervals of different indices have no fraction in common. -/
theorem pairwise_disjoint_interval (first last : Nat) :
    Pairwise fun index other =>
      Disjoint (interval weights first last index) (interval weights first last other) :=
  (partBefore_mono all first last).pairwise_disjoint_on_Ico_succ

end Order

section Range

variable (order : first < last) (inside : last ≤ weights.length)
  (some : 0 < weightBetween weights first last) {fraction : α}

include inside some

/-- A point lies in the part of an index exactly when its fraction lies in the interval of the
index. -/
theorem mem_interval_iff (least : first ≤ index) (below : index < last) :
    fraction ∈ interval weights first last index ↔
      ¬pointOf (prefixSums weights) first last fraction < sumBefore (prefixSums weights) index ∧
        pointOf (prefixSums weights) first last fraction <
          sumBefore (prefixSums weights) (index + 1) := by
  have within : index + 1 ≤ weights.length := Nat.le_trans below inside
  rw [pointOf_eq (Nat.le_trans least (Nat.le_of_lt below)) inside,
    sumBefore_eq_add least (Nat.le_of_succ_le within),
    sumBefore_eq_add (Nat.le_succ_of_le least) within, not_lt, add_le_add_iff_left,
    add_lt_add_iff_left, interval, Set.mem_Ico, partBefore, partBefore, div_le_iff₀ some,
    lt_div_iff₀ some]

include order

/-- A fraction of the range lies between the sum before the range and the sum at its end. -/
theorem pointOf_mem (low : 0 ≤ fraction) (high : fraction < 1) :
    ¬pointOf (prefixSums weights) first last fraction < sumBefore (prefixSums weights) first ∧
      pointOf (prefixSums weights) first last fraction < sumBefore (prefixSums weights) last := by
  rw [pointOf_eq (Nat.le_of_lt order) inside, not_lt,
    sumBefore_eq_add (Nat.le_of_lt order) inside, add_lt_add_iff_left]
  exact ⟨le_add_of_nonneg_right (mul_nonneg low some.le), mul_lt_of_lt_one_left some high⟩

/-- What is picked is an index of the range, and its interval has the fraction. -/
theorem mem_interval_pick (low : 0 ≤ fraction) (high : fraction < 1) :
    first ≤ pick (prefixSums weights) first last fraction ∧
      pick (prefixSums weights) first last fraction < last ∧
      fraction ∈ interval weights first last (pick (prefixSums weights) first last fraction) := by
  have inside' : last ≤ (prefixSums weights).length := by
    rw [prefixSums, length_sumsAfter]
    exact inside
  obtain ⟨start, above⟩ := pointOf_mem order inside some low high
  obtain ⟨least, below⟩ := firstAbove_bounds (α := α) order
    (pointOf (prefixSums weights) first last fraction)
  exact ⟨least, below, (mem_interval_iff inside some least below).mpr
    (firstAbove_spec order inside' start above)⟩

/-- The intervals of a range fill the fractions below one. -/
theorem iUnion_interval (all : ∀ weight ∈ weights, 0 ≤ weight) :
    ⋃ index ∈ Set.Ico first last, interval weights first last index = Set.Ico 0 1 := by
  obtain ⟨start, finish⟩ := partBefore_ends some.ne'
  have mono := partBefore_mono all first last
  ext fraction
  simp only [Set.mem_iUnion, exists_prop]
  constructor
  · rintro ⟨index, ⟨least, below⟩, low, high⟩
    exact ⟨start.symm.le.trans ((mono least).trans low),
      high.trans_le ((mono below).trans finish.le)⟩
  · rintro ⟨low, high⟩
    obtain ⟨least, below, member⟩ := mem_interval_pick order inside some low high
    exact ⟨_, ⟨least, below⟩, member⟩

end Range

/-! ## Draws -/

/-- **The width of an index.** Let exact weights, none of them negative, be summed, and a range of
them have weight. Then the range is not refused. By a fraction below one exactly the index of the
range is picked whose interval has the fraction, and the search is not cut off. An interval is as
wide as the part that the weight of its index has in the range, so without weight it is empty;
different intervals have no fraction in common, and together they are all fractions below one. By
the same pick a table draws from a range, and its draw is one from the range of all indices. -/
theorem pick_intervals (all : ∀ weight ∈ weights, 0 ≤ weight) (order : first < last)
    (inside : last ≤ weights.length) (some : 0 < weightBetween weights first last) :
    sumBefore (prefixSums weights) first < sumBefore (prefixSums weights) last ∧
    (∀ fraction, 0 ≤ fraction → fraction < 1 →
      (∀ index, pick (prefixSums weights) first last fraction = index ↔
        first ≤ index ∧ index < last ∧ partBefore weights first last index ≤ fraction ∧
          fraction < partBefore weights first last (index + 1)) ∧
      pick (prefixSums weights) first last fraction =
        first + (((prefixSums weights).drop first).take (last - first)).findIdx fun sum =>
          decide (pointOf (prefixSums weights) first last fraction < sum)) ∧
    (∀ index weight, first ≤ index → weights[index]? = Option.some weight →
      partBefore weights first last (index + 1) - partBefore weights first last index =
        weight / weightBetween weights first last ∧
      (weight = 0 → interval weights first last index = ∅)) ∧
    (Pairwise fun index other =>
      Disjoint (interval weights first last index) (interval weights first last other)) ∧
    ⋃ index ∈ Set.Ico first last, interval weights first last index = Set.Ico 0 1 ∧
    ∀ (table : PrefixSums) (stream : WordStream),
      (∀ first last, first < last → last ≤ table.size →
        sumBefore table.sums first < sumBefore table.sums last →
          runFrom (table.drawBetween first last) stream =
            (.ok (pick table.sums first last (WordStream.double.run stream).1),
              (WordStream.double.run stream).2)) ∧
      (0 < sumBefore table.sums table.size →
        runFrom (table.drawBetween 0 table.size) stream =
          (.ok (table.draw.run stream).1, (table.draw.run stream).2)) := by
  have disjoint := pairwise_disjoint_interval all first last
  refine ⟨?_, fun fraction low high => ⟨fun index => ⟨?_, ?_⟩, ?_⟩, fun index weight least there =>
    ⟨?_, ?_⟩, disjoint, iUnion_interval order inside some all, fun table stream =>
    ⟨fun first last order inside some => PrefixSums.drawBetween_picks order inside some stream,
      fun some => ?_⟩⟩
  · rw [sumBefore_eq_add (Nat.le_of_lt order) inside]
    exact lt_add_of_pos_right _ some
  · rintro rfl
    exact mem_interval_pick order inside some low high
  · rintro ⟨-, -, member⟩
    by_contra other
    obtain ⟨-, -, picked⟩ := mem_interval_pick order inside some low high
    exact Set.disjoint_left.mp (disjoint other) picked member
  · refine firstAbove_eq order ?_ (pointOf_mem order inside some low high).2
    rw [prefixSums, length_sumsAfter]
    exact inside
  · rw [partBefore_succ least there, add_sub_cancel_left]
  · rintro rfl
    exact interval_eq_empty least there
  · have start : sumBefore table.sums 0 = 0 := if_pos rfl
    rw [PrefixSums.run_draw some]
    exact PrefixSums.drawBetween_picks (PrefixSums.size_pos some) (Nat.le_refl _) (start ▸ some)
      stream

/-- Five weights, the fourth of which is nothing. -/
def nestedWeights : List ℚ := [5, 1, 3, 0, 9]

/-- From the three weights in the middle the first is picked by the fractions below a quarter, the
second by the others, and the third by none. -/
theorem pick_intervals_nested :
    (∀ weight ∈ nestedWeights, 0 ≤ weight) ∧ 4 ≤ nestedWeights.length ∧
    0 < weightBetween nestedWeights 1 4 ∧
    (∀ fraction, 0 ≤ fraction → fraction < 1 →
      (pick (prefixSums nestedWeights) 1 4 fraction = 1 ↔ fraction < 1 / 4) ∧
      (pick (prefixSums nestedWeights) 1 4 fraction = 2 ↔ 1 / 4 ≤ fraction)) ∧
    interval nestedWeights 1 4 3 = ∅ := by
  have all : ∀ weight ∈ nestedWeights, 0 ≤ weight := by decide +kernel
  have some : 0 < weightBetween nestedWeights 1 4 := by decide +kernel
  have start : partBefore nestedWeights 1 4 1 = 0 := by decide +kernel
  have middle : partBefore nestedWeights 1 4 2 = 1 / 4 := by decide +kernel
  have finish : partBefore nestedWeights 1 4 3 = 1 := by decide +kernel
  obtain ⟨-, picks, widths, -⟩ := pick_intervals all (by decide : 1 < 4) (by decide) some
  refine ⟨all, by decide, some, fun fraction low high => ⟨?_, ?_⟩,
    (widths 3 0 (by decide) rfl).2 rfl⟩
  · rw [(picks fraction low high).1, start, middle]
    simp [low]
  · rw [(picks fraction low high).1, middle, finish]
    simp [high]

end ShardedGraph.Kernel
