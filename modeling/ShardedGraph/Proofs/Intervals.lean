import ShardedGraph.Proofs.Reachable

/-!
# Draws from a range of prefix sums

A range of prefix sums is drawn from exactly when it is a range and its weight is not nothing; what is
drawn is an index of the range (`Kernel.PrefixSums.ranged_draws`).

**The point.** It is the sum before the range and a fraction of what the range adds to it. Sums do not
go down when weights are added, so the point is not below the sum before the range
(`Kernel.pointOf_spec`). While it is below the sum at the end of the range, the search finds an index
at which the sums go up, so one that has weight.

**Rounding.** The fraction is below one, but the point is rounded once more when the sum before the
range is added, and may become the sum at the end. Then no sum of the range lies above it, and the
last index of the range is drawn, whether it has weight or not
(`Kernel.PrefixSums.draws_weightless_trailing`). This needs weight before the range: otherwise the
point is the fraction of what the range adds, which stays below it.
-/

set_option autoImplicit false

namespace ShardedGraph

open Number

namespace Number

namespace Binary

section Sums

variable {x y : Double} (first : x.IsAmount) (second : y.IsAmount)
  (small : x.magnitude ≤ Format.mostSum) (small' : y.magnitude ≤ Format.mostSum)

include first second small small'

/-- A sum of amounts is not below its first part. -/
theorem le_magnitude_add : x.magnitude ≤ (x + y).magnitude := by
  rw [first.magnitude_add second (isFinite_of_le_mostSum small) (isFinite_of_le_mostSum small')]
  have room : 2 * Format.double.units Format.mostSum ≤
      Format.double.units Format.double.infinity := by decide +kernel
  have part : x.units ≤ Format.double.units Format.mostSum := Format.units_mono small
  have part' : y.units ≤ Format.double.units Format.mostSum := Format.units_mono small'
  refine (Format.round_mem_of_mem (by decide) Nat.one_pos (Nat.le_refl _) ?_ (by omega)).1
  change x.units * 1 ≤ _
  omega

/-- What a sum has more than another one is an amount that is at most the sum. -/
theorem isAmount_sub (le : y.magnitude ≤ x.magnitude) :
    (x - y).IsAmount ∧ (x - y).magnitude ≤ x.magnitude := by
  have finite := isFinite_of_le_mostSum small
  have finite' : y.neg.isFinite = true := isFinite_of_le_mostSum small'
  have lacks : y.units ≤ x.units := Format.units_mono le
  have taken : y.neg.signedUnits = -(y.units : Int) := by
    rw [← second.signedUnits_eq]
    cases sign : y.negative
    · simp [signedUnits, neg, sign, units]
    · simp [signedUnits, neg, sign, units]
  refine ⟨first.add_of_neg_le finite' (neg_units_le_signedUnits le), ?_⟩
  change (x + y.neg).magnitude ≤ _
  rw [add_of_isFinite finite finite', taken, first.signedUnits_eq]
  split
  · exact Nat.zero_le _
  · refine Format.round_le_of_le (by decide) Nat.one_pos ?_
    change _ ≤ x.units * 1
    omega

end Sums

/-- A fraction of an amount is at most the amount. -/
theorem magnitude_mul_le {fraction whole : Double} (part : fraction.magnitude ≤ 1023 * 2 ^ 52)
    (finite : whole.isFinite = true) : (fraction * whole).magnitude ≤ whole.magnitude := by
  have finite' : fraction.isFinite = true :=
    decide_eq_true (Nat.lt_of_le_of_lt part (by decide))
  have most : fraction.units ≤ 2 ^ Format.double.unitExponent :=
    Format.units_double_one ▸ Format.units_mono part
  rw [mul_of_isFinite finite' finite]
  refine Format.round_le_of_le (by decide) (Nat.two_pow_pos _) ?_
  rw [Nat.mul_comm]
  exact Nat.mul_le_mul_left _ most

end Binary

end Number

namespace Kernel

/-! ## Sums -/

/-- Sums of weights do not go down. -/
theorem magnitude_sumBefore_mono {weights : List Double}
    (all : ∀ weight ∈ weights, weight.IsBetween Format.leastWide Format.mostWide)
    {earlier later : Nat} (order : earlier ≤ later) (inside : later ≤ weights.length) :
    (sumBefore (prefixSums weights) earlier).magnitude ≤
      (sumBefore (prefixSums weights) later).magnitude := by
  induction later, order using Nat.le_induction with
  | base => exact Nat.le_refl _
  | succ later order ih =>
      have weight := all _ (List.getElem_mem inside)
      have before := isBetween_sumBefore (isBetween_of_mem_prefixSums all) later
      refine Nat.le_trans (ih (Nat.le_of_succ_le inside)) ?_
      rw [sumBefore_succ (List.getElem?_eq_getElem inside)]
      exact Binary.le_magnitude_add before.isAmount weight.isAmount before.high
        (Nat.le_trans weight.high (by decide))

/-! ## Points -/

/-- A point of a range is an amount, and not below the sum before the range. -/
theorem pointOf_spec {sums : List Double}
    (all : ∀ sum ∈ sums, sum.IsBetween Format.leastWide Format.mostSum) {first last : Nat}
    (some : sumBefore sums first < sumBefore sums last) {fraction : Double}
    (isAmount : fraction.IsAmount) (last_le : fraction.magnitude ≤ 1023 * 2 ^ 52 - 1) :
    (pointOf sums first last fraction).IsAmount ∧
      ¬pointOf sums first last fraction < sumBefore sums first := by
  have low := isBetween_sumBefore all first
  have high := isBetween_sumBefore all last
  have le := Nat.le_of_lt ((low.isAmount.lt_iff high.isAmount).mp some)
  obtain ⟨gap, gap_le⟩ := Binary.isAmount_sub high.isAmount low.isAmount high.high low.high le
  have gap_small := Nat.le_trans gap_le high.high
  have gap_finite := Binary.isFinite_of_le_mostSum gap_small
  have part := Binary.magnitude_mul_le (Nat.le_trans last_le (Nat.sub_le _ _)) gap_finite
  have product := isAmount.mul gap
    (decide_eq_true (Nat.lt_of_le_of_lt last_le (by decide))) gap_finite
  have point := low.isAmount.add (by decide) product
  refine ⟨point, ?_⟩
  rw [pointOf, point.lt_iff low.isAmount, Nat.not_lt]
  exact Binary.le_magnitude_add low.isAmount product low.high (Nat.le_trans part gap_small)

/-- When no sum of a range lies above a point, the search answers the last index of the range. -/
theorem firstAbove_of_none {α : Type} [Zero α] [LT α] [DecidableLT α] {sums : List α}
    {first last : Nat} {point : α} (inside : last ≤ sums.length)
    (none : ∀ index < last, ¬point < sumBefore sums (index + 1)) :
    firstAbove sums first last point = last - 1 := by
  have nowhere : ∀ sum ∈ (sums.drop first).take (last - first), decide (point < sum) = false := by
    intro sum member
    obtain ⟨offset, within, rfl⟩ := List.mem_iff_getElem.mp member
    rw [List.length_take, List.length_drop] at within
    rw [List.getElem_take, List.getElem_drop, ← sumBefore_succ_eq (by omega)]
    exact decide_eq_false (none _ (by omega))
  rw [firstAbove, List.findIdx_eq_length.mpr nowhere, List.length_take, List.length_drop]
  omega

/-- A pick from a range is an index at which the sums go up while the point is below the sum at the
end. It only fails to be when something stands before the range, and then the pick is the last
index. -/
theorem pick_spec {weights sums : List Double} (made : sums = prefixSums weights)
    (all : ∀ weight ∈ weights, weight.IsBetween Format.leastWide Format.mostWide)
    {first last : Nat} (order : first < last) (inside : last ≤ weights.length)
    (some : sumBefore sums first < sumBefore sums last) {fraction : Double}
    (isAmount : fraction.IsAmount) (last_le : fraction.magnitude ≤ 1023 * 2 ^ 52 - 1) :
    (pointOf sums first last fraction < sumBefore sums last →
      sumBefore sums (pick sums first last fraction) <
        sumBefore sums (pick sums first last fraction + 1)) ∧
    (¬pointOf sums first last fraction < sumBefore sums last →
      pick sums first last fraction = last - 1 ∧ 0 < sumBefore sums first) := by
  subst made
  have between := isBetween_of_mem_prefixSums all
  have amounts := fun index => (isBetween_sumBefore between index).isAmount
  have inside' : last ≤ (prefixSums weights).length := by rwa [prefixSums, length_sumsAfter]
  obtain ⟨point, start⟩ := pointOf_spec between some isAmount last_le
  refine ⟨fun above => ?_, fun notBelow => ⟨?_, ?_⟩⟩
  · exact rises_at_firstAbove (fun sum member => (between sum member).isAmount) point order inside'
      start above
  · -- All sums of the range are at most the sum at its end, which is not above the point.
    refine firstAbove_of_none inside' fun index within => ?_
    have mono := magnitude_sumBefore_mono all within inside
    have below : ¬pointOf (prefixSums weights) first last fraction <
        sumBefore (prefixSums weights) (index + 1) := by
      rw [point.lt_iff (amounts _), Nat.not_lt] at notBelow ⊢
      exact Nat.le_trans mono notBelow
    exact below
  · by_contra nothing
    rw [(amounts first).pos_iff, Nat.not_lt, Nat.le_zero] at nothing
    have total := (amounts last).pos_iff.mpr
      (Nat.zero_lt_of_lt (((amounts first).lt_iff (amounts last)).mp some))
    exact notBelow (pointOf_lt nothing between total isAmount last_le)

/-! ## Draws -/

namespace PrefixSums

variable {table : PrefixSums} {first last : Nat}

/-- A range without weight is refused before a word is taken. -/
theorem drawBetween_massless (order : first < last) (inside : last ≤ table.size)
    (flat : ¬sumBefore table.sums first < sumBefore table.sums last) (stream : WordStream) :
    runFrom (table.drawBetween first last) stream =
      (.error (.noMassInRange first last), stream) := by
  have accepted : runFrom (liftM (checkRange table.size first last)) stream =
      (.ok (), stream) := by rw [runFrom_liftM, checkRange, if_neg (by omega)]
  refine (runFrom_bind_of_ok accepted).trans ?_
  rw [if_neg flat]
  rfl

/-- A range that is none, or has no weight, is refused before a word is taken. -/
theorem drawBetween_refuses (without : last ≤ first ∨ table.size < last ∨
      ¬sumBefore table.sums first < sumBefore table.sums last) (stream : WordStream) :
    ∃ error, error.kind = .data ∧
      runFrom (table.drawBetween first last) stream = (.error error, stream) := by
  by_cases bad : last ≤ first ∨ table.size < last
  · have refused : runFrom (liftM (checkRange table.size first last)) stream =
        (.error (.badRange first last table.size), stream) := by
      rw [runFrom_liftM, checkRange, if_pos bad]
    exact ⟨_, rfl, runFrom_bind_of_error refused⟩
  · have none : ¬sumBefore table.sums first < sumBefore table.sums last := by tauto
    exact ⟨_, rfl, drawBetween_massless (by omega) (by omega) none stream⟩

/-- **What a range draws.** Over accepted weights, and whatever the stream, a range is refused with a
fault of the data and without taking a word exactly when it is none or adds nothing to the sum before
it. From any other range one word draws an index of the range. The index has weight while the point
is below the sum at the end of the range. The point only fails to be when there is weight before the
range, and then the last index is drawn. -/
theorem ranged_draws {weights : List Single} (run : PrefixSums.build weights = .ok table)
    (first last : Nat) (stream : WordStream) :
    ((last ≤ first ∨ weights.length < last ∨
        ¬sumBefore table.sums first < sumBefore table.sums last) →
      ∃ error, error.kind = .data ∧
        runFrom (table.drawBetween first last) stream = (.error error, stream)) ∧
    (first < last → last ≤ weights.length →
        sumBefore table.sums first < sumBefore table.sums last →
      ∃ index, runFrom (table.drawBetween first last) stream =
          (.ok index, { stream with used := stream.used + 1 }) ∧
        first ≤ index ∧ index < last ∧
        (pointOf table.sums first last (WordStream.double.run stream).1 <
            sumBefore table.sums last → table.isReachable index = true) ∧
        (¬pointOf table.sums first last (WordStream.double.run stream).1 <
            sumBefore table.sums last → index = last - 1 ∧ 0 < sumBefore table.sums first)) := by
  have size := size_of_build run
  obtain ⟨checked, -, made⟩ := of_build run
  refine ⟨fun without => drawBetween_refuses (by rwa [size]) stream, fun order inside some => ?_⟩
  have inside' : last ≤ table.size := by rwa [size]
  obtain ⟨isAmount, last_le⟩ := WordStream.double_le_last stream
  have drawn := drawBetween_picks order inside' some stream
  have later : (WordStream.double.run stream).2 = { stream with used := stream.used + 1 } := rfl
  rw [later] at drawn
  generalize (WordStream.double.run stream).1 = fraction at *
  obtain ⟨rises, ends⟩ := pick_spec (congrArg PrefixSums.sums made)
    (isBetween_of_checkWeights checked) order (by rwa [List.length_map]) some isAmount last_le
  obtain ⟨least, below⟩ := @pick_bounds table.sums _ _ order fraction
  exact ⟨_, drawn, least, below, fun above => Bool.and_eq_true_iff.mpr
    ⟨decide_eq_true (Nat.lt_of_lt_of_le below inside'), decide_eq_true (rises above)⟩, ends⟩

/-- Three weights, the last one of which is nothing. -/
def trailingWeights : List Single := [3, 1, 0].map Binary.ofNat

def trailingSums : PrefixSums := ⟨prefixSums (trailingWeights.map Single.widen)⟩

theorem build_trailing : build trailingWeights = .ok trailingSums :=
  except_toOption_eq_some.mp (by decide +kernel)

/-- The last two of these weights are drawn from, and by a small fraction the middle one is given.
The last one alone is refused. -/
theorem ranged_draws_trailing :
    build trailingWeights = .ok trailingSums ∧
    (∃ error, error.kind = .data ∧
      runFrom (trailingSums.drawBetween 2 3) (.cycle #[0]) = (.error error, .cycle #[0])) ∧
    sumBefore trailingSums.sums 1 < sumBefore trailingSums.sums 3 ∧
    ∃ index, runFrom (trailingSums.drawBetween 1 3) (.cycle #[0]) =
        (.ok index, { WordStream.cycle #[0] with used := 1 }) ∧
      1 ≤ index ∧ index < 3 ∧ trailingSums.isReachable index = true := by
  have some : sumBefore trailingSums.sums 1 < sumBefore trailingSums.sums 3 := by decide +kernel
  have refused := (ranged_draws build_trailing 2 3 (.cycle #[0])).1
    (.inr (.inr (by decide +kernel)))
  obtain ⟨index, drawn, least, below, reachable, -⟩ :=
    (ranged_draws build_trailing 1 3 (.cycle #[0])).2 (by decide) (by decide) some
  exact ⟨build_trailing, refused, some, index, drawn, least, below,
    reachable (by decide +kernel)⟩

/-- By the largest fraction the last of these weights is given, which is nothing. -/
theorem draws_weightless_trailing :
    build trailingWeights = .ok trailingSums ∧
    sumBefore trailingSums.sums 1 < sumBefore trailingSums.sums 3 ∧
    (runFrom (trailingSums.drawBetween 1 3) (.cycle #[18446744073709551615])).1 = .ok 2 ∧
    trailingWeights[2]? = some 0 ∧ trailingSums.isReachable 2 = false := by
  refine ⟨build_trailing, by decide +kernel, ?_, by decide +kernel, by decide +kernel⟩
  exact except_toOption_eq_some.mp (by decide +kernel)

end PrefixSums

end Kernel

end ShardedGraph
