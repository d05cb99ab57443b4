import ShardedGraph.Proofs.Supports

/-!
# Amounts

An amount is a number that is not below zero (`Number.Binary.IsAmount`). A sum of amounts is
something exactly when one of them is (`Number.Binary.IsAmount.pos_add_iff`), and products and
quotients of finite amounts are amounts.

**Room.** A format has far more binades than sums and products of weights need. Weights, made
wider, are nothing or lie between two powers of two, and so do their sums, however many there are
(`Number.Binary.IsBetween`): where a sum has grown so large that it could leave this range, a weight
is less than half of its last place and is rounded away.
-/

set_option autoImplicit false

namespace ShardedGraph

namespace Number

/-! ## Something and nothing -/

/-- What is at least a unit is not rounded to nothing. -/
theorem Format.round_pos {format : Format} (some : 0 < format.infinity)
    {numerator denominator : Nat} (positive : 0 < denominator) (least : denominator ≤ numerator) :
    0 < format.round numerator denominator := by
  refine Nat.lt_min.mpr ⟨?_, some⟩
  cases shift : Nat.log2 (numerator / denominator) - format.fractionBits with
  | zero =>
      refine Nat.add_pos_right _ (Nat.lt_of_lt_of_le (Nat.div_pos least positive) ?_)
      rw [divideToEven, Nat.shiftLeft_zero]
      split
      · exact Nat.le_succ _
      · exact Nat.le_refl _
  | succ shift => exact Nat.add_pos_left (Nat.mul_pos (Nat.succ_pos _) (Nat.two_pow_pos _)) _

namespace Binary

variable {format : Format} {x y : Binary format}

theorem lt_iff : x < y ↔ x.isNaN = false ∧ y.isNaN = false ∧ x.rank < y.rank := by
  change lt x y = true ↔ _
  simp [lt, and_assoc]

theorem IsAmount.rank_eq (isAmount : x.IsAmount) : x.rank = x.magnitude := by
  rw [rank]
  split
  · next sign =>
    rw [isAmount.magnitude_eq_zero sign]
    rfl
  · rfl

/-- Amounts are ordered by their magnitudes. -/
theorem IsAmount.lt_iff (first : x.IsAmount) (second : y.IsAmount) :
    x < y ↔ x.magnitude < y.magnitude := by
  rw [Binary.lt_iff, first.rank_eq, second.rank_eq, Int.ofNat_lt, first.number, second.number]
  simp

/-- An amount is something when its magnitude is. -/
theorem IsAmount.pos_iff (isAmount : x.IsAmount) : 0 < x ↔ 0 < x.magnitude :=
  IsAmount.lt_iff (isAmount_of_magnitude rfl) isAmount

theorem IsAmount.signedUnits_eq (isAmount : x.IsAmount) : x.signedUnits = x.units := by
  rw [signedUnits]
  split
  · next sign =>
    rw [units, isAmount.magnitude_eq_zero sign, format.units_zero]
    rfl
  · rfl

/-- A magnitude is something when its value is. -/
theorem units_pos_iff : 0 < x.units ↔ 0 < x.magnitude := by
  rw [units]
  cases x.magnitude with
  | zero => rw [format.units_zero]
  | succ magnitude =>
      exact iff_of_true (Nat.zero_lt_of_lt (Format.units_lt_units_succ _)) (Nat.succ_pos _)

/-- A sum of amounts is something when one of them is. -/
theorem IsAmount.pos_add_iff (some : 0 < format.infinity) (first : x.IsAmount)
    (second : y.IsAmount) : 0 < x + y ↔ 0 < x ∨ 0 < y := by
  rw [(first.add some second).pos_iff, first.pos_iff, second.pos_iff]
  change 0 < (Binary.add x y).magnitude ↔ _
  unfold Binary.add
  rw [first.number, second.number, if_neg Bool.false_ne_true, if_neg Bool.false_ne_true]
  split
  · next infinite =>
    have large : 0 < x.magnitude := of_decide_eq_true infinite ▸ some
    split
    · next opposed =>
      obtain ⟨infinite', differ⟩ := Bool.and_eq_true_iff.mp opposed
      rw [first.positive_of_isInfinite some infinite, second.positive_of_isInfinite some infinite']
        at differ
      cases differ
    · exact iff_of_true large (.inl large)
  · split
    · next infinite =>
      have large : 0 < y.magnitude := of_decide_eq_true infinite ▸ some
      exact iff_of_true large (.inr large)
    · have total : x.signedUnits + y.signedUnits = ((x.units + y.units : Nat) : Int) := by
        rw [first.signedUnits_eq, second.signedUnits_eq, Int.natCast_add]
      have either : (0 < x.magnitude ∨ 0 < y.magnitude) ↔ 0 < x.units + y.units := by
        rw [← units_pos_iff, ← @units_pos_iff _ y]
        omega
      rw [either, total]
      dsimp only
      split
      · next nothing => exact iff_of_false (Nat.lt_irrefl 0) (by omega)
      · next something =>
        refine iff_of_true ?_ (by omega)
        rw [Int.natAbs_natCast]
        exact Format.round_pos some Nat.one_pos (by omega)

/-- The total of amounts is something when one of them is. -/
theorem pos_total_iff (some : 0 < format.infinity) {amounts : List (Binary format)}
    (all : ∀ amount ∈ amounts, amount.IsAmount) :
    0 < Kernel.total amounts ↔ ∃ amount ∈ amounts, 0 < amount := by
  have zero : (0 : Binary format).IsAmount := isAmount_of_magnitude rfl
  have after : ∀ {before : Binary format}, before.IsAmount →
      (0 < amounts.foldl (· + ·) before ↔ 0 < before ∨ ∃ amount ∈ amounts, 0 < amount) := by
    induction amounts with
    | nil => exact fun _ => ⟨.inl, fun either => either.resolve_right (by simp)⟩
    | cons first amounts ih =>
        intro before isAmount
        obtain ⟨here, others⟩ := List.forall_mem_cons.mp all
        rw [List.foldl_cons, ih others (isAmount.add some here), isAmount.pos_add_iff some here]
        simp [or_assoc]
  rw [Kernel.total, after zero, zero.pos_iff]
  exact or_iff_right (Nat.lt_irrefl 0)

end Binary

/-- The wider number that stands for a weight is something when the weight is. -/
theorem pos_widen_iff {weight : Single} (isWeight : Kernel.isWeight weight = true) :
    0 < weight.widen ↔ 0 < weight := by
  have isAmount := isAmount_of_isWeight isWeight
  have finite := of_decide_eq_true (Bool.and_eq_true_iff.mp isWeight).1
  have bounded : weight.isInfinite = false := decide_eq_false (Nat.ne_of_lt finite)
  rw [(isAmount_widen isWeight).pos_iff, isAmount.pos_iff, ← Binary.units_pos_iff (x := weight)]
  unfold Single.widen Binary.convert
  rw [isAmount.number, bounded, if_neg Bool.false_ne_true, if_neg Bool.false_ne_true]
  change 0 < Format.double.round (weight.units <<< Format.double.unitExponent)
    (2 ^ Format.single.unitExponent) ↔ _
  rcases Nat.eq_zero_or_pos weight.units with nothing | something
  · rw [nothing, Nat.zero_shiftLeft, Format.round_zero _ (Nat.two_pow_pos _)]
  · refine iff_of_true (Format.round_pos (by decide) (Nat.two_pow_pos _) ?_) something
    rw [Nat.shiftLeft_eq]
    exact Nat.le_trans (Nat.pow_le_pow_right (by decide) (by decide))
      (Nat.le_mul_of_pos_left _ something)

end Number
namespace Number

namespace Binary

variable {format : Format} {x y : Binary format}

theorem isNaN_of_isFinite (finite : x.isFinite = true) : x.isNaN = false :=
  decide_eq_false (Nat.not_lt.mpr (Nat.le_of_lt (of_decide_eq_true finite)))

theorem isInfinite_of_isFinite (finite : x.isFinite = true) : x.isInfinite = false :=
  decide_eq_false (Nat.ne_of_lt (of_decide_eq_true finite))

/-! ## Products and quotients -/

/-- Finite numbers are multiplied exactly, and rounded once. -/
theorem mul_of_isFinite (finite : x.isFinite = true) (finite' : y.isFinite = true) :
    x * y = ofRatio (x.negative != y.negative) (x.units * y.units) (2 ^ format.unitExponent) := by
  change Binary.mul x y = _
  unfold Binary.mul
  simp only [isNaN_of_isFinite finite, isNaN_of_isFinite finite', isInfinite_of_isFinite finite,
    isInfinite_of_isFinite finite', Bool.or_self, Bool.false_eq_true, if_false]
  rfl

/-- Products of finite amounts are amounts. -/
theorem IsAmount.mul (first : x.IsAmount) (second : y.IsAmount) (finite : x.isFinite = true)
    (finite' : y.isFinite = true) : (x * y).IsAmount := by
  rw [mul_of_isFinite finite finite']
  refine isAmount_ofRatio_of (Nat.two_pow_pos _) fun opposed => ?_
  rcases Bool.eq_false_or_eq_true x.negative with sign | sign
  · rw [first.units_eq_zero sign, Nat.zero_mul]
  · rw [second.units_eq_zero (by simpa [sign] using opposed), Nat.mul_zero]

/-- An amount over a finite amount that is something is an amount. -/
theorem IsAmount.div (first : x.IsAmount) (second : y.IsAmount) (finite : y.isFinite = true)
    (some : 0 < y.magnitude) : (x / y).IsAmount := by
  have plus : y.negative = false :=
    Bool.eq_false_iff.mpr fun sign => Nat.ne_of_gt some (second.magnitude_eq_zero sign)
  have notZero : y.isZero = false := decide_eq_false (Nat.ne_of_gt some)
  have room : 0 < format.infinity := Nat.lt_trans some (of_decide_eq_true finite)
  change (Binary.div x y).IsAmount
  unfold Binary.div
  simp only [first.number, second.number, isInfinite_of_isFinite finite, notZero, plus,
    Bool.bne_false, Bool.false_eq_true, if_false]
  split
  · next infinite =>
    rw [first.positive_of_isInfinite room infinite]
    exact isAmount_infinity
  · refine isAmount_ofRatio_of (units_pos_iff.mpr some) fun sign => ?_
    rw [first.units_eq_zero sign, Nat.zero_shiftLeft]

/-! ## Sums -/

/-- Nothing is added to a finite number without a sign, from either side. -/
theorem add_eq_self (wide : 0 < format.fractionBits) (finite : x.isFinite = true)
    (plus : x.negative = false) (nothing : y.magnitude = 0) : x + y = x ∧ y + x = x := by
  have finite' : y.isFinite = true := decide_eq_true (by
    rw [nothing]
    exact Nat.zero_lt_of_lt (of_decide_eq_true finite))
  have none : y.signedUnits = 0 := by simp [signedUnits, units, nothing, format.units_zero]
  have all : x.signedUnits = x.units := if_neg (by simp [plus])
  rw [add_of_isFinite finite finite', add_of_isFinite finite' finite, none, all, Int.zero_add,
    Int.add_zero, plus, Bool.and_false, Bool.false_and, and_self]
  split
  · next zero =>
    have magnitude : x.magnitude = 0 := by
      have := @units_pos_iff _ x
      omega
    cases x
    cases plus
    cases magnitude
    rfl
  · rw [decide_eq_false (by omega), Int.natAbs_natCast]
    have exact := Format.round_units wide (Nat.le_of_lt (of_decide_eq_true finite))
    cases x
    cases plus
    simpa [ofRatio, units] using exact

/-- The sum of finite amounts is their exact sum, rounded. -/
theorem IsAmount.magnitude_add (first : x.IsAmount) (second : y.IsAmount)
    (finite : x.isFinite = true) (finite' : y.isFinite = true) :
    (x + y).magnitude = format.round (x.units + y.units) 1 := by
  rw [add_of_isFinite finite finite', first.signedUnits_eq, second.signedUnits_eq,
    ← Int.natCast_add]
  split
  · next nothing =>
    rw [Int.natCast_eq_zero.mp nothing, format.round_zero Nat.one_pos]
    rfl
  · rw [Int.natAbs_natCast]
    rfl

/-- Nothing is added to a finite amount, from either side. -/
theorem IsAmount.magnitude_add_nothing (wide : 0 < format.fractionBits) (isAmount : x.IsAmount)
    (finite : x.isFinite = true) (nothing : y.magnitude = 0) :
    (x + y).magnitude = x.magnitude ∧ (y + x).magnitude = x.magnitude := by
  have finite' : y.isFinite = true :=
    decide_eq_true (nothing ▸ Nat.zero_lt_of_lt (of_decide_eq_true finite))
  have none : y.units = 0 := by rw [units, nothing, format.units_zero]
  have exact : format.round x.units 1 = x.magnitude :=
    Format.round_units wide (Nat.le_of_lt (of_decide_eq_true finite))
  have isAmount' : y.IsAmount := isAmount_of_magnitude nothing
  rw [isAmount.magnitude_add isAmount' finite finite', isAmount'.magnitude_add isAmount finite' finite,
    none, Nat.add_zero, Nat.zero_add]
  exact ⟨exact, exact⟩

theorem neg_units_le_signedUnits (le : x.magnitude ≤ y.magnitude) :
    -(y.units : Int) ≤ x.signedUnits := by
  have most : x.units ≤ y.units := Format.units_mono le
  rw [signedUnits]
  split <;> omega

/-- What a part lacks of a whole is at most the whole, also after it was rounded. -/
theorem IsAmount.magnitude_sub_le {part whole : Binary format} (wide : 0 < format.fractionBits)
    (isAmount : part.IsAmount) (finite : whole.isFinite = true) (plus : whole.negative = false)
    (le : part.magnitude ≤ whole.magnitude) : (part - whole).magnitude ≤ whole.magnitude := by
  have finite' : part.isFinite = true :=
    decide_eq_true (Nat.lt_of_le_of_lt le (of_decide_eq_true finite))
  have finite'' : whole.neg.isFinite = true := finite
  have lacks : part.units ≤ whole.units := Format.units_mono le
  have taken : whole.neg.signedUnits = -(whole.units : Int) := by
    rw [signedUnits, neg, plus]
    rfl
  change (part + whole.neg).magnitude ≤ _
  rw [add_of_isFinite finite' finite'', taken, isAmount.signedUnits_eq]
  split
  · exact Nat.zero_le _
  · refine Format.round_le_of_le wide Nat.one_pos ?_
    change _ ≤ whole.units * 1
    omega

/-- An amount plus a finite number is an amount, when the number takes no more than the amount. -/
theorem IsAmount.add_of_neg_le {given : Binary format} (isAmount : x.IsAmount)
    (finite : given.isFinite = true) (most : -(x.units : Int) ≤ given.signedUnits) :
    (x + given).IsAmount := by
  by_cases infinite : x.isInfinite = true
  · have same : x + given = x := by
      change Binary.add x given = x
      unfold Binary.add
      simp [isAmount.number, isNaN_of_isFinite finite, infinite, isInfinite_of_isFinite finite]
    rwa [same]
  · have number := Nat.not_lt.mp (of_decide_eq_false isAmount.number)
    have bounded : x.isFinite = true := by
      simp only [isInfinite, decide_eq_true_eq] at infinite
      exact decide_eq_true (by omega)
    rw [add_of_isFinite bounded finite, isAmount.signedUnits_eq]
    split
    · exact isAmount_of_magnitude rfl
    · rw [decide_eq_false (by omega)]
      exact isAmount_ofRatio _ _

/-- A part that is less than one is given away by an amount that is at least one, so that an amount
is left. -/
theorem IsAmount.add_sub_one {small large : Double} (first : large.IsAmount)
    (second : small.IsAmount) (less : small < 1) (least : ¬large < 1) :
    (large + (small - 1)).IsAmount := by
  have one : (1 : Double).IsAmount := isAmount_ofRatio _ _
  have finite : (1 : Double).isFinite = true := by decide +kernel
  rw [second.lt_iff one] at less
  rw [first.lt_iff one, Nat.not_lt] at least
  have gap := second.magnitude_sub_le (by decide) finite rfl (Nat.le_of_lt less)
  refine first.add_of_neg_le (decide_eq_true (Nat.lt_of_le_of_lt gap (of_decide_eq_true finite))) ?_
  exact neg_units_le_signedUnits (Nat.le_trans gap least)

/-- An amount that is nothing or lies between two magnitudes. -/
structure IsBetween (least most : Nat) (x : Binary format) : Prop where
  isAmount : x.IsAmount
  low : 0 < x.magnitude → least ≤ x.magnitude
  high : x.magnitude ≤ most

/-- Adding a part that is less than half of the last place of the bound keeps the bounds. -/
theorem IsBetween.add {least part most : Nat} (wide : 0 < format.fractionBits)
    (finite : most < format.infinity) (part_le : part ≤ most)
    (gap : format.units most + 2 * format.units part < format.units (most + 1))
    (first : x.IsBetween least most) (second : y.IsBetween least part) :
    (x + y).IsBetween least most := by
  have room : 0 < format.infinity := Nat.zero_lt_of_lt finite
  have next : most + 1 ≤ format.infinity := finite
  have bounded : x.isFinite = true := decide_eq_true (Nat.lt_of_le_of_lt first.high finite)
  have bounded' : y.isFinite = true :=
    decide_eq_true (Nat.lt_of_le_of_lt (Nat.le_trans second.high part_le) finite)
  have most_x : x.units ≤ format.units most := Format.units_mono first.high
  have most_y : y.units ≤ format.units part := Format.units_mono second.high
  have magnitude := first.isAmount.magnitude_add second.isAmount bounded bounded'
  refine ⟨first.isAmount.add room second.isAmount, fun some => ?_, ?_⟩
  · rw [magnitude] at some ⊢
    have reached : format.units least ≤ x.units + y.units := by
      rcases Nat.eq_zero_or_pos x.magnitude with nothing | something
      · rcases Nat.eq_zero_or_pos y.magnitude with nothing' | something'
        · rw [units, units, nothing, nothing', format.units_zero,
            format.round_zero Nat.one_pos] at some
          exact absurd some (Nat.lt_irrefl 0)
        · exact Nat.le_add_left_of_le (Format.units_mono (second.low something'))
      · exact Nat.le_add_right_of_le (Format.units_mono (first.low something))
    exact (Format.round_mem_of_mem wide Nat.one_pos next (by omega) (by omega)).1
  · rw [magnitude]
    exact Format.round_le wide Nat.one_pos (by omega)

end Binary

/-! ## Counts -/

/-- One, and the power of two that bounds counts, as magnitudes of the two formats. -/
theorem Format.units_double_one : double.units (1023 * 2 ^ 52) = 2 ^ double.unitExponent := by
  decide +kernel

theorem Format.units_double_bound :
    double.units (1150 * 2 ^ 52) = 2 ^ 127 * 2 ^ double.unitExponent := by
  decide +kernel

theorem Format.units_single_one : single.units (127 * 2 ^ 23) = 2 ^ single.unitExponent := by
  decide

theorem Format.units_single_bound :
    single.units (254 * 2 ^ 23) = 2 ^ 127 * 2 ^ single.unitExponent := by
  decide

/-- A count that is not too large lies between one and a power of two. -/
theorem magnitude_ofNat_mem {count : Nat} (some : 0 < count) (small : count ≤ 2 ^ 127) :
    1023 * 2 ^ 52 ≤ (Binary.ofNat count : Double).magnitude ∧
      (Binary.ofNat count : Double).magnitude ≤ 1150 * 2 ^ 52 := by
  have shifted : count <<< Format.double.unitExponent =
      count * 2 ^ Format.double.unitExponent := Nat.shiftLeft_eq _ _
  refine Format.round_mem_of_mem (by decide) Nat.one_pos (by decide) ?_ ?_
  · rw [Format.units_double_one, shifted, Nat.mul_one]
    exact Nat.le_mul_of_pos_left _ some
  · rw [Format.units_double_bound, shifted, Nat.mul_one]
    exact Nat.mul_le_mul_right _ small

/-- The number of a list that is not too long is a finite amount. -/
theorem isAmount_ofNat {count : Nat} (small : count ≤ 2 ^ 127) :
    (Binary.ofNat count : Double).IsAmount ∧ (Binary.ofNat count : Double).isFinite = true := by
  refine ⟨Binary.isAmount_ofRatio _ _, decide_eq_true ?_⟩
  rcases Nat.eq_zero_or_pos count with rfl | some
  · decide
  · exact Nat.lt_of_le_of_lt (magnitude_ofNat_mem some small).2 (by decide)

/-! ## Weights made wider -/

/-- The magnitudes between which every weight lies that is made wider, and one that the sums of such
weights do not exceed. -/
def Format.leastWide : Nat := 874 * 2 ^ 52

def Format.mostWide : Nat := 1151 * 2 ^ 52

def Format.mostSum : Nat := 1205 * 2 ^ 52

theorem Binary.isFinite_of_le_mostSum {x : Double} (small : x.magnitude ≤ Format.mostSum) :
    x.isFinite = true :=
  decide_eq_true (Nat.lt_of_le_of_lt small (by decide))

theorem Format.units_leastWide :
    double.units leastWide * 2 ^ single.unitExponent = 2 ^ double.unitExponent := by
  decide +kernel

theorem Format.units_mostWide : double.units mostWide * 2 ^ single.unitExponent =
    single.units single.infinity * 2 ^ double.unitExponent := by
  decide +kernel

/-- A weight that is made wider is nothing or lies between two powers of two. -/
theorem isBetween_widen {weight : Single} (isWeight : Kernel.isWeight weight = true) :
    weight.widen.IsBetween Format.leastWide Format.mostWide := by
  have isAmount := isAmount_of_isWeight isWeight
  have finite := (Bool.and_eq_true_iff.mp isWeight).1
  have magnitude : weight.widen.magnitude = Format.double.round
      (weight.units * 2 ^ Format.double.unitExponent) (2 ^ Format.single.unitExponent) := by
    unfold Single.widen Binary.convert
    rw [isAmount.number, Binary.isInfinite_of_isFinite finite, if_neg Bool.false_ne_true,
      if_neg Bool.false_ne_true, Nat.shiftLeft_eq]
    rfl
  have most : weight.units ≤ Format.single.units Format.single.infinity :=
    Format.units_mono (Nat.le_of_lt (of_decide_eq_true finite))
  have lower := Format.units_leastWide
  have upper := Format.units_mostWide
  have unit : 0 < 2 ^ Format.single.unitExponent := Nat.two_pow_pos _
  have room : Format.mostWide ≤ Format.double.infinity := by decide
  refine ⟨isAmount_widen isWeight, fun some => ?_, ?_⟩
  · rw [magnitude] at some ⊢
    have something : 0 < weight.units := by
      refine Nat.pos_of_ne_zero fun nothing => Nat.ne_of_gt some ?_
      rw [nothing, Nat.zero_mul, Format.round_zero _ unit]
    refine (Format.round_mem_of_mem (by decide) unit room ?_ ?_).1
    · rw [lower]
      exact Nat.le_mul_of_pos_left _ something
    · rw [upper]
      exact Nat.mul_le_mul_right _ most
  · rw [magnitude]
    refine Format.round_le_of_le (by decide) unit ?_
    rw [upper]
    exact Nat.mul_le_mul_right _ most

/-! ## Fractions -/

/-- A fraction is below one: it is at most the last magnitude before one. -/
theorem magnitude_ofDyadic_le {format : Format} (wide : 0 < format.fractionBits)
    {bound numerator : Nat} (small : numerator < 2 ^ (format.fractionBits + 1))
    (last : format.units bound * 2 ^ (format.fractionBits + 1) =
      (2 ^ (format.fractionBits + 1) - 1) * 2 ^ format.unitExponent) :
    (Binary.ofDyadic numerator (format.fractionBits + 1) : Binary format).magnitude ≤ bound := by
  change format.round (numerator <<< format.unitExponent) (2 ^ (format.fractionBits + 1)) ≤ bound
  refine Format.round_le_of_le wide (Nat.two_pow_pos _) ?_
  rw [last, Nat.shiftLeft_eq]
  exact Nat.mul_le_mul_right _ (Nat.le_sub_one_of_lt small)

end Number

end ShardedGraph
