import Mathlib.MeasureTheory.Measure.Lebesgue.Basic
import ShardedGraph.Proofs.Conservation

/-!
# Chances of aliased draws

A draw picks one of the buckets, each with the same chance, and a fraction, uniform below one. The
chance of an index is its mass over the number of buckets (`Kernel.Buckets.chance_eq`): a bucket keeps
its index for the fractions below its share and gives its alias for the others.

Buckets of exact weights conserve mass, so every index is drawn with the chance that is its part of
the total (`Kernel.Buckets.ofWeights_conserves`).
-/

set_option autoImplicit false

namespace ShardedGraph.Kernel.Buckets

open MeasureTheory

/-! ## Picks -/

/-- An index without mass is given by no bucket for a fraction below one. -/
theorem pick_ne {α : Type} [Field α] [LinearOrder α] [IsStrictOrderedRing α] {buckets : Buckets α}
    (amount : ∀ bucket, 0 ≤ buckets.keep.getD bucket 0)
    (most : ∀ bucket < buckets.keep.length, buckets.keep.getD bucket 0 ≤ 1) {index : Nat}
    (none : buckets.mass index = 0) {bucket : Nat} (inside : bucket < buckets.keep.length)
    {fraction : α} (low : 0 ≤ fraction) (high : fraction < 1) :
    buckets.pick bucket fraction ≠ index := by
  have gives : ∀ bucket ∈ (Finset.range buckets.keep.length).filter
      (buckets.rest.getD · 0 = index), 0 ≤ 1 - buckets.keep.getD bucket 0 :=
    fun bucket member => sub_nonneg.mpr
      (most bucket (Finset.mem_range.mp (Finset.mem_filter.mp member).1))
  obtain ⟨kept, given⟩ :=
    (add_eq_zero_iff_of_nonneg (amount index) (Finset.sum_nonneg gives)).mp none
  have given := (Finset.sum_eq_zero_iff_of_nonneg gives).mp given
  rw [pick]
  split
  · next below =>
    rintro rfl
    rw [kept] at below
    exact absurd below (not_lt.mpr low)
  · next notBelow =>
    intro given'
    have whole := given bucket
      (Finset.mem_filter.mpr ⟨Finset.mem_range.mpr inside, given'⟩)
    rw [← sub_eq_zero.mp whole] at notBelow
    exact notBelow high

/-! ## Chances -/

/-- The chance that an index is given, by a bucket as likely as the others and a fraction below one. -/
noncomputable def chance (buckets : Buckets ℝ) (index : Nat) : ℝ :=
  (∑ bucket ∈ Finset.range buckets.keep.length,
    volume.real {fraction ∈ Set.Ico (0 : ℝ) 1 | buckets.pick bucket fraction = index}) /
      buckets.keep.length

variable {buckets : Buckets ℝ}

/-- A bucket gives its own index for the fractions below its share, and its alias for the others. -/
theorem volume_pick {bucket : Nat} (low : 0 ≤ buckets.keep.getD bucket 0)
    (high : buckets.keep.getD bucket 0 ≤ 1) (index : Nat) :
    volume.real {fraction ∈ Set.Ico (0 : ℝ) 1 | buckets.pick bucket fraction = index} =
      (if bucket = index then buckets.keep.getD bucket 0 else 0) +
        if buckets.rest.getD bucket 0 = index then 1 - buckets.keep.getD bucket 0 else 0 := by
  unfold pick
  generalize buckets.keep.getD bucket 0 = share at low high ⊢
  generalize buckets.rest.getD bucket 0 = other
  -- A bucket may be its own alias, so whether its index and its alias are meant are two questions.
  by_cases own : bucket = index
  · by_cases given : other = index
    · have all : {fraction ∈ Set.Ico (0 : ℝ) 1 |
          (if fraction < share then bucket else other) = index} = Set.Ico 0 1 := by
        ext fraction
        simp [own, given]
      rw [all, Real.volume_real_Ico_of_le zero_le_one, if_pos own, if_pos given]
      ring
    · have part : {fraction ∈ Set.Ico (0 : ℝ) 1 |
          (if fraction < share then bucket else other) = index} = Set.Ico 0 share := by
        ext fraction
        simp only [own, Set.mem_ofPred_eq, Set.mem_Ico, ite_eq_left_iff, given, imp_false, not_not]
        exact ⟨fun ⟨⟨least, _⟩, below⟩ => ⟨least, below⟩,
          fun ⟨least, below⟩ => ⟨⟨least, below.trans_le high⟩, below⟩⟩
      rw [part, Real.volume_real_Ico_of_le low, if_pos own, if_neg given]
      ring
  · by_cases given : other = index
    · have part : {fraction ∈ Set.Ico (0 : ℝ) 1 |
          (if fraction < share then bucket else other) = index} = Set.Ico share 1 := by
        ext fraction
        simp only [given, Set.mem_ofPred_eq, Set.mem_Ico, ite_eq_right_iff, own, imp_false, not_lt]
        exact ⟨fun ⟨⟨_, below⟩, least⟩ => ⟨least, below⟩,
          fun ⟨least, below⟩ => ⟨⟨low.trans least, below⟩, least⟩⟩
      rw [part, Real.volume_real_Ico_of_le high, if_neg own, if_pos given, zero_add]
    · have none : {fraction ∈ Set.Ico (0 : ℝ) 1 |
          (if fraction < share then bucket else other) = index} = ∅ := by
        ext fraction
        simp only [Set.mem_ofPred_eq, Set.mem_empty_iff_false, iff_false, not_and]
        intro _
        split
        · exact own
        · exact given
      rw [none, Measure.real, measure_empty, ENNReal.toReal_zero, if_neg own, if_neg given, add_zero]

/-- The chance of an index is its mass over the number of buckets. -/
theorem chance_eq (amount : ∀ bucket, 0 ≤ buckets.keep.getD bucket 0)
    (most : ∀ bucket < buckets.keep.length, buckets.keep.getD bucket 0 ≤ 1) {index : Nat}
    (inside : index < buckets.keep.length) :
    buckets.chance index = buckets.mass index / buckets.keep.length := by
  have picks : ∀ bucket ∈ Finset.range buckets.keep.length,
      volume.real {fraction ∈ Set.Ico (0 : ℝ) 1 | buckets.pick bucket fraction = index} = _ :=
    fun bucket member => volume_pick (amount bucket) (most bucket (Finset.mem_range.mp member)) index
  rw [chance, Finset.sum_congr rfl picks, Finset.sum_add_distrib, Finset.sum_ite_eq',
    if_pos (Finset.mem_range.mpr inside), ← Finset.sum_filter, mass]

/-! ## Exact weights -/

/-- The same buckets, to be compared with real fractions. -/
noncomputable def toReal (buckets : Buckets ℚ) : Buckets ℝ :=
  ⟨buckets.keep.map (Rat.cast : ℚ → ℝ), buckets.rest⟩

theorem getD_toReal (buckets : Buckets ℚ) (bucket : Nat) :
    buckets.toReal.keep.getD bucket 0 = (buckets.keep.getD bucket 0 : ℚ) := by
  simp only [toReal, List.getD_eq_getElem?_getD, List.getElem?_map]
  cases buckets.keep[bucket]? with
  | none => exact Rat.cast_zero.symm
  | some share => rfl

theorem length_toReal (buckets : Buckets ℚ) :
    buckets.toReal.keep.length = buckets.keep.length := List.length_map _

theorem mass_toReal (buckets : Buckets ℚ) (index : Nat) :
    buckets.toReal.mass index = (buckets.mass index : ℚ) := by
  simp only [mass, getD_toReal, length_toReal]
  push_cast
  rfl

section Shares

variable {buckets : Buckets ℚ} (amount : ∀ bucket, 0 ≤ buckets.keep.getD bucket 0)
  (most : ∀ bucket < buckets.keep.length, buckets.keep.getD bucket 0 ≤ 1)

include amount in
theorem toReal_nonneg (bucket : Nat) : 0 ≤ buckets.toReal.keep.getD bucket 0 := by
  rw [getD_toReal]
  exact Rat.cast_nonneg.mpr (amount bucket)

include most in
theorem toReal_le_one (bucket : Nat) (inside : bucket < buckets.toReal.keep.length) :
    buckets.toReal.keep.getD bucket 0 ≤ 1 := by
  rw [getD_toReal]
  exact_mod_cast most bucket (buckets.length_toReal ▸ inside)

end Shares

/-- **Pairing conserves weight.** Let exact weights, none of them negative, have a total. Pairing them
ends, and on its way finishes every index once, except for those that are left; these hold exactly
one. The buckets are as many as the weights, and each keeps between nothing and one and has one of
their indices as its alias. An index has the mass of its scaled weight, so it is drawn with the chance
that its weight has in the total, and one without weight by no bucket and no fraction. -/
theorem ofWeights_conserves {weights : List ℚ} (all : ∀ weight ∈ weights, 0 ≤ weight)
    (some : 0 < weights.sum) :
    (∃ finished last, (Pairing.start weights).Runs finished last ∧
      ofWeights weights = last.buckets ∧
      (finished ++ last.waiting).Perm (List.range weights.length) ∧
      ∀ index ∈ last.waiting, last.share index = 1) ∧
    (ofWeights weights).keep.length = weights.length ∧
    (ofWeights weights).rest.length = weights.length ∧
    (∀ share ∈ (ofWeights weights).keep, 0 ≤ share ∧ share ≤ 1) ∧
    (∀ index ∈ (ofWeights weights).rest, index < weights.length) ∧
    ∀ index weight, weights[index]? = Option.some weight →
      (ofWeights weights).mass index = weights.length * weight / weights.sum ∧
      (ofWeights weights).toReal.chance index = (weight / weights.sum : ℚ) ∧
      (weight = 0 → ∀ bucket < weights.length, ∀ fraction : ℝ, 0 ≤ fraction → fraction < 1 →
        (ofWeights weights).toReal.pick bucket fraction ≠ index) := by
  obtain ⟨finished, last, run, balanced, full, same⟩ := Pairing.exists_runs_start all some.ne'
  have scale := Pairing.length_scaled weights
  have keeps : (ofWeights weights).keep.length = weights.length := length_keep_ofWeights weights
  have amount : ∀ bucket, 0 ≤ (ofWeights weights).keep.getD bucket 0 := same ▸ balanced.amount
  have most : ∀ bucket < (ofWeights weights).keep.length,
      (ofWeights weights).keep.getD bucket 0 ≤ 1 := fun bucket inside =>
    same ▸ balanced.share_le_one full (scale.symm ▸ keeps ▸ inside)
  refine ⟨⟨finished, last, run, same, scale ▸ balanced.once, full⟩, keeps,
    same ▸ balanced.rests.trans scale, fun share member => ?_, rest_lt_of_mem_ofWeights weights,
    fun index weight there => ?_⟩
  · obtain ⟨bucket, inside, rfl⟩ := List.mem_iff_getElem.mp member
    have here : (ofWeights weights).keep.getD bucket 0 = (ofWeights weights).keep[bucket] := by
      simp [List.getD_eq_getElem?_getD, inside]
    exact here ▸ ⟨amount bucket, most bucket inside⟩
  · have mass : (ofWeights weights).mass index = weights.length * weight / weights.sum := by
      rw [same, balanced.mass_eq full]
      exact Pairing.getD_scaled there
    have inside : index < weights.length := (List.getElem?_eq_some_iff.mp there).1
    have length : (ofWeights weights).toReal.keep.length = weights.length :=
      (length_toReal _).trans keeps
    refine ⟨mass, ?_, fun nothing bucket within fraction low high => ?_⟩
    · have positive : (weights.length : ℚ) ≠ 0 :=
        Nat.cast_ne_zero.mpr (Nat.ne_of_gt (Nat.zero_lt_of_lt inside))
      have part : weights.length * weight / weights.sum / weights.length =
          weight / weights.sum := by field_simp
      rw [chance_eq (toReal_nonneg amount) (toReal_le_one most) (length.symm ▸ inside),
        mass_toReal, mass, length, ← part]
      push_cast
      rfl
    · refine pick_ne (toReal_nonneg amount) (toReal_le_one most) ?_ (length.symm ▸ within) low high
      rw [mass_toReal, mass, nothing, mul_zero, zero_div, Rat.cast_zero]

/-- A half, nothing and two quarters. -/
def partedWeights : List ℚ := [1 / 2, 0, 1 / 4, 1 / 4]

/-- The parts of one are the chances of their indices. -/
theorem ofWeights_conserves_parted :
    (∀ weight ∈ partedWeights, 0 ≤ weight) ∧ 0 < partedWeights.sum ∧
    (ofWeights partedWeights).mass 0 = 2 ∧
    (ofWeights partedWeights).toReal.chance 0 = (1 / 2 : ℚ) ∧
    (ofWeights partedWeights).toReal.chance 1 = (0 : ℚ) ∧
    (ofWeights partedWeights).toReal.chance 3 = (1 / 4 : ℚ) ∧
    ∀ bucket < 4, ∀ fraction : ℝ, 0 ≤ fraction → fraction < 1 →
      (ofWeights partedWeights).toReal.pick bucket fraction ≠ 1 := by
  have all : ∀ weight ∈ partedWeights, 0 ≤ weight := by decide +kernel
  have sum : partedWeights.sum = 1 := by decide +kernel
  have some : 0 < partedWeights.sum := by rw [sum]; exact one_pos
  obtain ⟨-, -, -, -, -, each⟩ := ofWeights_conserves all some
  obtain ⟨mass, half, -⟩ := each 0 (1 / 2) rfl
  obtain ⟨-, nothing, never⟩ := each 1 0 rfl
  obtain ⟨-, quarter, -⟩ := each 3 (1 / 4) rfl
  rw [sum, div_one] at mass half nothing quarter
  refine ⟨all, some, mass.trans ?_, half, nothing, quarter, never rfl⟩
  norm_num [partedWeights]

end ShardedGraph.Kernel.Buckets
