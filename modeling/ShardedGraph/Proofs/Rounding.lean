import Mathlib.Tactic.Linarith
import Mathlib.Tactic.Ring
import ShardedGraph.Number.Binary

/-!
# Rounding to the nearest magnitude

A magnitude is a position on a scale of binades. It is a binade times the length of a binade,
plus a significand, and its value is the significand shifted by the binade
(`Format.units_binade`). So the next magnitude is one significand further, also where a binade
ends, and every magnitude is of this form (`Format.exists_binade`).

**Nearest.** Whatever lies between the middles of a magnitude and its two neighbors is rounded to
this magnitude; a middle itself is when the magnitude is even (`Format.round_of_between`). The
lower neighbor of the first magnitude of a binade is closer than the upper one, and what lies
below the binade is rounded in the binade before, up to its end. So rounding keeps order, and a
fraction of a number stays below the number (`Format.round_mul_lt`).

**Exact numbers.** A natural number with no more digits than a significand has is a value of the
format (`Format.exists_units`), so numbers that are small enough are exact and so are their sums
(`Binary.ofNat_add_ofNat`).
-/

set_option autoImplicit false

namespace ShardedGraph.Number

namespace Format

variable (format : Format)

theorem units_zero : format.units 0 = 0 := by simp [units]

/-- Nothing is rounded to nothing. -/
theorem round_zero {denominator : Nat} (positive : 0 < denominator) :
    format.round 0 denominator = 0 := by
  simp [round, divideToEven, Nat.ne_of_lt positive]

/-! ## Binades -/

section Binades

variable {binade significand : Nat}

/-- A significand of a binade: all but those of the first binade have a leading one. -/
structure IsSignificand (binade significand : Nat) : Prop where
  below : significand < 2 ^ (format.fractionBits + 1)
  leading : binade = 0 ∨ 2 ^ format.fractionBits ≤ significand

variable {format}

/-- The value of a magnitude is its significand, shifted by its binade. -/
theorem units_binade (isSignificand : format.IsSignificand binade significand) :
    format.units (binade * 2 ^ format.fractionBits + significand) = significand * 2 ^ binade := by
  obtain ⟨below, leading⟩ := isSignificand
  have size : 0 < 2 ^ format.fractionBits := Nat.two_pow_pos _
  rw [Nat.pow_succ] at below
  have field : (binade * 2 ^ format.fractionBits + significand) / 2 ^ format.fractionBits =
      binade + significand / 2 ^ format.fractionBits := by
    rw [Nat.add_comm, Nat.add_mul_div_right _ _ size, Nat.add_comm]
  have fraction : (binade * 2 ^ format.fractionBits + significand) % 2 ^ format.fractionBits =
      significand % 2 ^ format.fractionBits := Nat.mul_add_mod_self_right _ _ _
  simp only [units, Nat.shiftRight_eq_div_pow, Nat.shiftLeft_eq, Nat.pow_eq, field, fraction]
  by_cases small : significand < 2 ^ format.fractionBits
  · obtain rfl : binade = 0 := leading.resolve_right (Nat.not_le.mpr small)
    rw [Nat.div_eq_of_lt small, Nat.mod_eq_of_lt small, if_pos rfl, Nat.pow_zero, Nat.mul_one]
  · have one : significand / 2 ^ format.fractionBits = 1 :=
      Nat.div_eq_of_lt_le (by omega) (by omega)
    have rest : significand % 2 ^ format.fractionBits = significand - 2 ^ format.fractionBits := by
      rw [Nat.mod_eq_sub_mod (Nat.not_lt.mp small), Nat.mod_eq_of_lt (by omega)]
    rw [one, rest, if_neg (Nat.succ_ne_zero binade), Nat.add_sub_cancel,
      Nat.add_sub_cancel' (Nat.not_lt.mp small)]

variable (format)

/-- Every magnitude is in a binade. -/
theorem exists_binade (magnitude : Nat) : ∃ binade significand,
    format.IsSignificand binade significand ∧
      magnitude = binade * 2 ^ format.fractionBits + significand := by
  have size : 0 < 2 ^ format.fractionBits := Nat.two_pow_pos _
  have split := Nat.div_add_mod' magnitude (2 ^ format.fractionBits)
  have rest := Nat.mod_lt magnitude size
  by_cases small : magnitude < 2 ^ format.fractionBits
  · refine ⟨0, magnitude, ⟨?_, .inl rfl⟩, by omega⟩
    rw [Nat.pow_succ]
    omega
  · have some : 1 ≤ magnitude / 2 ^ format.fractionBits :=
      (Nat.one_le_div_iff size).mpr (Nat.not_lt.mp small)
    obtain ⟨binade, quotient⟩ := Nat.exists_eq_add_of_le' some
    refine ⟨binade, 2 ^ format.fractionBits + magnitude % 2 ^ format.fractionBits,
      ⟨?_, .inr (Nat.le_add_right _ _)⟩, ?_⟩
    · rw [Nat.pow_succ]
      omega
    · rw [quotient, Nat.succ_mul] at split
      omega

variable {format}

/-- The next magnitude is one significand further, also at the end of a binade. -/
theorem units_binade_succ (isSignificand : format.IsSignificand binade significand) :
    format.units (binade * 2 ^ format.fractionBits + significand + 1) =
      (significand + 1) * 2 ^ binade := by
  obtain ⟨below, leading⟩ := isSignificand
  by_cases last : significand + 1 = 2 ^ (format.fractionBits + 1)
  · have next : binade * 2 ^ format.fractionBits + significand + 1 =
        (binade + 1) * 2 ^ format.fractionBits + 2 ^ format.fractionBits := by
      rw [Nat.pow_succ] at last
      rw [Nat.succ_mul]
      omega
    rw [next, units_binade ⟨?_, .inr (Nat.le_refl _)⟩, last, Nat.pow_succ, Nat.pow_succ]
    · ring
    · rw [Nat.pow_succ]
      have := Nat.two_pow_pos format.fractionBits
      omega
  · exact units_binade ⟨by omega, leading.imp_right Nat.le_succ_of_le⟩

theorem units_lt_units_succ (magnitude : Nat) :
    format.units magnitude < format.units (magnitude + 1) := by
  obtain ⟨binade, significand, isSignificand, rfl⟩ := format.exists_binade magnitude
  rw [units_binade isSignificand, units_binade_succ isSignificand]
  exact Nat.mul_lt_mul_of_pos_right (Nat.lt_succ_self _) (Nat.two_pow_pos _)

end Binades

/-! ## Quotients -/

/-- What lies between two middles goes to the number between these, and so does a middle when
this number is even. -/
theorem divideToEven_of_between {numerator denominator nearest : Nat} (positive : 0 < denominator)
    (low : 2 * (nearest * denominator) ≤ 2 * numerator + denominator)
    (high : 2 * numerator ≤ 2 * (nearest * denominator) + denominator)
    (strict : nearest % 2 = 1 → 2 * (nearest * denominator) < 2 * numerator + denominator ∧
      2 * numerator < 2 * (nearest * denominator) + denominator) :
    divideToEven numerator denominator = nearest := by
  have split := Nat.div_add_mod' numerator denominator
  have rest := Nat.mod_lt numerator positive
  unfold divideToEven
  dsimp only
  have le : numerator / denominator ≤ nearest := by
    by_contra above
    have := Nat.mul_le_mul_right denominator (Nat.not_le.mp above)
    rw [Nat.succ_mul] at this
    omega
  have near : nearest ≤ numerator / denominator + 1 := by
    by_contra above
    have := Nat.mul_le_mul_right denominator (Nat.not_le.mp above)
    rw [Nat.succ_mul, Nat.succ_mul] at this
    omega
  rcases Nat.lt_or_ge (numerator / denominator) nearest with less | ge
  · obtain rfl : nearest = numerator / denominator + 1 := by omega
    rw [Nat.succ_mul (numerator / denominator)] at low high strict
    rw [if_pos (by omega)]
  · obtain rfl : nearest = numerator / denominator := by omega
    rw [if_neg (by omega)]

/-! ## Nearest magnitudes -/

/-- How far the quotient of two numbers is shifted before it is rounded. -/
theorem shift_eq {bits shift quotient : Nat} (low : shift = 0 ∨ 2 ^ (bits + shift) ≤ quotient)
    (high : quotient < 2 ^ (bits + shift + 1)) : Nat.log2 quotient - bits = shift := by
  rcases Nat.eq_zero_or_pos quotient with rfl | positive
  · rcases low with rfl | low
    · simp
    · exact absurd low (Nat.not_le.mpr (Nat.two_pow_pos _))
  · have below := (Nat.log2_lt (Nat.ne_of_gt positive)).mpr high
    rcases low with rfl | low
    · omega
    · have above := (Nat.le_log2 (Nat.ne_of_gt positive)).mpr low
      omega

section Nearest

variable {format}

/-- A number whose binade is known is rounded to a significand of it. -/
theorem round_of_shift {numerator denominator binade nearest : Nat} (positive : 0 < denominator)
    (low : binade = 0 ∨ 2 ^ (format.fractionBits + binade) * denominator ≤ numerator)
    (high : numerator < 2 ^ (format.fractionBits + binade + 1) * denominator)
    (divide : divideToEven numerator (2 ^ binade * denominator) = nearest)
    (finite : binade * 2 ^ format.fractionBits + nearest ≤ format.infinity) :
    format.round numerator denominator = binade * 2 ^ format.fractionBits + nearest := by
  have shift : Nat.log2 (numerator / denominator) - format.fractionBits = binade :=
    shift_eq (low.imp_right (Nat.le_div_iff_mul_le positive).mpr)
      ((Nat.div_lt_iff_lt_mul positive).mpr high)
  simp only [round, shift, Nat.shiftLeft_eq, Nat.pow_eq, Nat.mul_comm denominator, divide]
  exact Nat.min_eq_left finite

/-- What lies between the middles around a significand of its binade is rounded to it. -/
theorem round_of_significand {numerator denominator binade significand : Nat}
    (positive : 0 < denominator) (isSignificand : format.IsSignificand binade significand)
    (finite : binade * 2 ^ format.fractionBits + significand ≤ format.infinity)
    (reached : binade = 0 ∨ 2 ^ format.fractionBits * (2 ^ binade * denominator) ≤ numerator)
    (low : 2 * (significand * (2 ^ binade * denominator)) ≤
      2 * numerator + 2 ^ binade * denominator)
    (high : 2 * numerator ≤
      2 * (significand * (2 ^ binade * denominator)) + 2 ^ binade * denominator)
    (strict : significand % 2 = 1 →
      2 * (significand * (2 ^ binade * denominator)) < 2 * numerator + 2 ^ binade * denominator ∧
        2 * numerator <
          2 * (significand * (2 ^ binade * denominator)) + 2 ^ binade * denominator) :
    format.round numerator denominator = binade * 2 ^ format.fractionBits + significand := by
  have unit : 0 < 2 ^ binade * denominator := Nat.mul_pos (Nat.two_pow_pos _) positive
  refine round_of_shift positive ?_ ?_ (divideToEven_of_between unit low high strict) finite
  · rwa [Nat.pow_add, Nat.mul_assoc]
  · have most := Nat.mul_le_mul_right (2 ^ binade * denominator)
      (Nat.succ_le_of_lt isSignificand.below)
    rw [Nat.succ_mul] at most
    have same : 2 ^ (format.fractionBits + binade + 1) * denominator =
        2 ^ (format.fractionBits + 1) * (2 ^ binade * denominator) := by ring
    omega

theorem even_binade (wide : 0 < format.fractionBits) : 2 ^ format.fractionBits % 2 = 0 := by
  rw [Nat.pow_mod, Nat.mod_self, Nat.zero_pow wide, Nat.zero_mod]

/-- What lies between the middles around the first magnitude of a binade is rounded to it, though
it may lie in the binade before. -/
theorem round_of_first (wide : 0 < format.fractionBits) {numerator denominator binade : Nat}
    (positive : 0 < denominator)
    (finite : (binade + 1) * 2 ^ format.fractionBits + 2 ^ format.fractionBits ≤ format.infinity)
    (low : 2 * (2 * 2 ^ format.fractionBits * (2 ^ binade * denominator)) ≤
      2 * numerator + 2 ^ binade * denominator)
    (high : 2 * numerator ≤ 2 * (2 ^ format.fractionBits * (2 ^ (binade + 1) * denominator)) +
      2 ^ (binade + 1) * denominator) :
    format.round numerator denominator =
      (binade + 1) * 2 ^ format.fractionBits + 2 ^ format.fractionBits := by
  have even := even_binade wide
  have double : 2 ^ (binade + 1) * denominator = 2 * (2 ^ binade * denominator) := by ring
  have unit : 0 < 2 ^ binade * denominator := Nat.mul_pos (Nat.two_pow_pos _) positive
  have size : 0 < 2 ^ format.fractionBits := Nat.two_pow_pos _
  have units : 2 ^ binade * denominator ≤ 2 ^ format.fractionBits * (2 ^ binade * denominator) :=
    Nat.le_mul_of_pos_left _ size
  rw [Nat.mul_assoc 2] at low
  by_cases inside : 2 ^ format.fractionBits * (2 ^ (binade + 1) * denominator) ≤ numerator
  · refine round_of_significand positive ⟨?_, .inr (Nat.le_refl _)⟩ finite (.inr inside) ?_ high ?_
    · rw [Nat.pow_succ]
      omega
    · exact Nat.le_trans (Nat.mul_le_mul_left 2 inside) (Nat.le_add_right _ _)
    · exact fun odd => absurd odd (by omega)
  · have last : (binade + 1) * 2 ^ format.fractionBits + 2 ^ format.fractionBits =
        binade * 2 ^ format.fractionBits + 2 * 2 ^ format.fractionBits := by ring
    rw [double, Nat.mul_left_comm] at inside
    rw [last] at finite ⊢
    refine round_of_shift positive (.inr ?_) ?_ (divideToEven_of_between unit ?_ ?_ ?_) finite
    · rw [Nat.pow_add, Nat.mul_assoc]
      omega
    · have same : 2 ^ (format.fractionBits + binade + 1) * denominator =
          2 * (2 ^ format.fractionBits * (2 ^ binade * denominator)) := by ring
      omega
    · rwa [Nat.mul_assoc 2]
    · rw [Nat.mul_assoc 2]
      omega
    · exact fun odd => absurd odd (by omega)

/-- The magnitude before one that is not the first of a later binade is one significand less. -/
theorem units_binade_pred {binade significand : Nat}
    (isSignificand : format.IsSignificand binade (significand + 1))
    (later : binade = 0 ∨ 2 ^ format.fractionBits ≤ significand) :
    format.units (binade * 2 ^ format.fractionBits + (significand + 1) - 1) =
      significand * 2 ^ binade :=
  units_binade ⟨Nat.lt_of_succ_lt isSignificand.below, later⟩

/-- The magnitude before the first one of a later binade has the last significand of the binade
before. -/
theorem units_pred_first (before : Nat) :
    format.units ((before + 1) * 2 ^ format.fractionBits + 2 ^ format.fractionBits - 1) =
      (2 ^ (format.fractionBits + 1) - 1) * 2 ^ before := by
  have size : 0 < 2 ^ format.fractionBits := Nat.two_pow_pos _
  have same : (before + 1) * 2 ^ format.fractionBits + 2 ^ format.fractionBits - 1 =
      before * 2 ^ format.fractionBits + (2 ^ (format.fractionBits + 1) - 1) := by
    rw [Nat.succ_mul, Nat.pow_succ]
    omega
  rw [same, units_binade ⟨Nat.sub_lt (Nat.two_pow_pos _) Nat.one_pos, .inr ?_⟩]
  rw [Nat.pow_succ]
  omega

/-- **Rounding is to the nearest.** What lies between the middles of a magnitude and its two
neighbors is rounded to this magnitude; a middle itself is when the magnitude is even. -/
theorem round_of_between (wide : 0 < format.fractionBits) {numerator denominator magnitude : Nat}
    (positive : 0 < denominator) (finite : magnitude ≤ format.infinity)
    (low : (format.units (magnitude - 1) + format.units magnitude) * denominator ≤ 2 * numerator)
    (high : 2 * numerator ≤
      (format.units magnitude + format.units (magnitude + 1)) * denominator)
    (strict : magnitude % 2 = 1 →
      (format.units (magnitude - 1) + format.units magnitude) * denominator < 2 * numerator ∧
        2 * numerator <
          (format.units magnitude + format.units (magnitude + 1)) * denominator) :
    format.round numerator denominator = magnitude := by
  obtain ⟨binade, significand, isSignificand, rfl⟩ := format.exists_binade magnitude
  have parity : (binade * 2 ^ format.fractionBits + significand) % 2 = significand % 2 := by
    rw [Nat.add_mod, Nat.mul_mod, even_binade wide, Nat.mul_zero, Nat.zero_mod, Nat.zero_add,
      Nat.mod_mod]
  have top : (significand * 2 ^ binade + (significand + 1) * 2 ^ binade) * denominator =
      2 * (significand * (2 ^ binade * denominator)) + 2 ^ binade * denominator := by ring
  rw [units_binade isSignificand, units_binade_succ isSignificand, top] at high strict
  rw [units_binade isSignificand] at low
  rw [parity] at strict
  by_cases first : binade ≠ 0 ∧ significand = 2 ^ format.fractionBits
  · -- The first magnitude of a later binade: its lower neighbor has the last significand before.
    obtain ⟨later, rfl⟩ := first
    obtain ⟨before, rfl⟩ := Nat.exists_eq_succ_of_ne_zero later
    have size : 0 < 2 ^ format.fractionBits := Nat.two_pow_pos _
    refine round_of_first wide positive finite ?_ high
    have bottom : ((2 ^ (format.fractionBits + 1) - 1) * 2 ^ before +
        2 ^ format.fractionBits * 2 ^ before.succ) * denominator + 2 ^ before * denominator =
          2 * (2 * 2 ^ format.fractionBits * (2 ^ before * denominator)) := by
      obtain ⟨rest, equal⟩ := Nat.exists_eq_add_of_le' size
      rw [Nat.pow_succ, equal, Nat.pow_succ, show (rest + 1) * 2 - 1 = 2 * rest + 1 by omega]
      ring
    rw [units_pred_first] at low
    omega
  · have leading : binade = 0 ∨ 2 ^ format.fractionBits < significand := by
      have := isSignificand.leading
      omega
    have lower : 2 * (significand * (2 ^ binade * denominator)) ≤
          2 * numerator + 2 ^ binade * denominator ∧
        (significand % 2 = 1 → 2 * (significand * (2 ^ binade * denominator)) <
          2 * numerator + 2 ^ binade * denominator) := by
      cases significand with
      | zero => exact ⟨by omega, by omega⟩
      | succ less =>
          have bottom : (less * 2 ^ binade + (less + 1) * 2 ^ binade) * denominator +
              2 ^ binade * denominator = 2 * ((less + 1) * (2 ^ binade * denominator)) := by ring
          rw [units_binade_pred isSignificand (leading.imp_right Nat.le_of_lt_succ)] at low strict
          refine ⟨by omega, fun odd => ?_⟩
          have := (strict odd).1
          omega
    refine round_of_significand positive isSignificand finite (leading.imp_right fun more => ?_)
      lower.1 high fun odd => ⟨lower.2 odd, (strict odd).2⟩
    have most := Nat.mul_le_mul_right (2 ^ binade * denominator) (Nat.succ_le_of_lt more)
    rw [Nat.succ_mul] at most
    omega

variable (format) in
/-- A magnitude is nearest to a fraction of units: the fraction lies between the middles to the two
neighbors, and on one of them only when the magnitude is even. -/
structure IsNearest (magnitude numerator denominator : Nat) : Prop where
  low : (format.units (magnitude - 1) + format.units magnitude) * denominator ≤ 2 * numerator
  high : 2 * numerator ≤ (format.units magnitude + format.units (magnitude + 1)) * denominator
  strict : magnitude % 2 = 1 →
    (format.units (magnitude - 1) + format.units magnitude) * denominator < 2 * numerator ∧
      2 * numerator < (format.units magnitude + format.units (magnitude + 1)) * denominator

/-- What is nearest to a fraction does not depend on how the fraction is written. -/
theorem IsNearest.of_eq {magnitude numerator denominator numerator' denominator' : Nat}
    (nearest : format.IsNearest magnitude numerator denominator) (positive : 0 < denominator)
    (positive' : 0 < denominator') (equal : numerator * denominator' = numerator' * denominator) :
    format.IsNearest magnitude numerator' denominator' := by
  have twice : 2 * numerator * denominator' = 2 * numerator' * denominator := by
    rw [Nat.mul_assoc, equal, Nat.mul_assoc]
  refine ⟨?_, ?_, fun odd => ⟨?_, ?_⟩⟩
  · refine Nat.le_of_mul_le_mul_right ?_ positive
    rw [← twice, Nat.mul_right_comm (_ + _)]
    exact Nat.mul_le_mul_right _ nearest.low
  · refine Nat.le_of_mul_le_mul_right ?_ positive
    rw [← twice, Nat.mul_right_comm (_ + _)]
    exact Nat.mul_le_mul_right _ nearest.high
  · refine Nat.lt_of_mul_lt_mul_right (a := denominator) ?_
    rw [← twice, Nat.mul_right_comm (_ + _)]
    exact Nat.mul_lt_mul_of_pos_right (nearest.strict odd).1 positive'
  · refine Nat.lt_of_mul_lt_mul_right (a := denominator) ?_
    rw [← twice, Nat.mul_right_comm (_ + _)]
    exact Nat.mul_lt_mul_of_pos_right (nearest.strict odd).2 positive'

/-- A fraction is rounded to its nearest magnitude. -/
theorem IsNearest.round_eq {magnitude numerator denominator : Nat} (wide : 0 < format.fractionBits)
    (nearest : format.IsNearest magnitude numerator denominator) (positive : 0 < denominator)
    (finite : magnitude ≤ format.infinity) : format.round numerator denominator = magnitude :=
  round_of_between wide positive finite nearest.low nearest.high nearest.strict

theorem units_mono {magnitude magnitude' : Nat} (le : magnitude ≤ magnitude') :
    format.units magnitude ≤ format.units magnitude' :=
  (strictMono_nat_of_lt_succ (@units_lt_units_succ format)).monotone le

variable (format) in
/-- Every fraction has a nearest magnitude. -/
theorem exists_isNearest (numerator : Nat) {denominator : Nat} (positive : 0 < denominator) :
    ∃ magnitude, format.IsNearest magnitude numerator denominator := by
  -- The last magnitude whose lower middle is not above the fraction.
  let reached (magnitude : Nat) : Prop :=
    (format.units (magnitude - 1) + format.units magnitude) * denominator ≤ 2 * numerator ∧
      (magnitude % 2 = 1 →
        (format.units (magnitude - 1) + format.units magnitude) * denominator < 2 * numerator)
  have far : ∃ magnitude, ¬ reached magnitude := by
    refine ⟨2 * numerator + 1, fun ⟨low, _⟩ => ?_⟩
    have large := (strictMono_nat_of_lt_succ (@units_lt_units_succ format)).le_apply
      (x := 2 * numerator + 1)
    have least := Nat.le_mul_of_pos_right (format.units (2 * numerator + 1)) positive
    rw [Nat.add_mul] at low
    omega
  classical
  obtain ⟨magnitude, last⟩ : ∃ magnitude, Nat.find far = magnitude + 1 := by
    refine Nat.exists_eq_succ_of_ne_zero fun none => Nat.find_spec far ?_
    rw [none]
    exact ⟨by simp [units_zero], fun odd => absurd odd (by decide)⟩
  have here : reached magnitude := not_not.mp (Nat.find_min far (by omega))
  have next : ¬ reached (magnitude + 1) := last ▸ Nat.find_spec far
  rw [not_and, Nat.add_sub_cancel] at next
  refine ⟨magnitude, here.1, ?_, fun odd => ⟨here.2 odd, ?_⟩⟩
  · by_contra above
    exact next (by omega) fun _ => by omega
  · by_contra above
    exact next (by omega) fun odd => by omega

/-- Rounding keeps order. -/
theorem round_mem_of_mem (wide : 0 < format.fractionBits)
    {numerator denominator least most : Nat} (positive : 0 < denominator)
    (finite : most ≤ format.infinity) (low : format.units least * denominator ≤ numerator)
    (high : numerator ≤ format.units most * denominator) :
    least ≤ format.round numerator denominator ∧ format.round numerator denominator ≤ most := by
  obtain ⟨magnitude, nearest⟩ := exists_isNearest format numerator positive
  have below : magnitude ≤ most := by
    by_contra above
    have less := @units_mono format most (magnitude - 1) (by omega)
    have more := @units_mono format (most + 1) magnitude (by omega)
    have := Nat.mul_le_mul_right denominator (Nat.add_le_add less
      (Nat.le_trans (units_lt_units_succ most) more))
    rw [Nat.add_mul, Nat.succ_mul] at this
    have := nearest.low
    omega
  have above : least ≤ magnitude := by
    by_contra below
    have less := @units_mono format (magnitude + 1) least (by omega)
    have := Nat.mul_le_mul_right denominator (Nat.add_le_add
      (Nat.le_trans (units_lt_units_succ magnitude) less) less)
    rw [Nat.add_mul, Nat.add_mul, Nat.succ_mul] at this
    have := nearest.high
    rw [Nat.add_mul] at this
    omega
  rw [nearest.round_eq wide positive (Nat.le_trans below finite)]
  exact ⟨above, below⟩

/-- What lies below the middle of a magnitude and the next one is not rounded above the
magnitude. -/
theorem round_le (wide : 0 < format.fractionBits) {numerator denominator bound : Nat}
    (positive : 0 < denominator)
    (below : 2 * numerator < (format.units bound + format.units (bound + 1)) * denominator) :
    format.round numerator denominator ≤ bound := by
  obtain ⟨magnitude, nearest⟩ := exists_isNearest format numerator positive
  have least : magnitude ≤ bound := by
    by_contra above
    have less := Nat.add_le_add (@units_mono format bound (magnitude - 1) (by omega))
      (@units_mono format (bound + 1) magnitude (by omega))
    have := Nat.mul_le_mul_right denominator less
    have := nearest.low
    omega
  by_cases finite : magnitude ≤ format.infinity
  · exact (nearest.round_eq wide positive finite).trans_le least
  · exact Nat.le_trans (format.round_le_infinity _ _) (by omega)

/-- What is at most the value of a magnitude is not rounded above the magnitude. -/
theorem round_le_of_le (wide : 0 < format.fractionBits) {numerator denominator bound : Nat}
    (positive : 0 < denominator) (least : numerator ≤ format.units bound * denominator) :
    format.round numerator denominator ≤ bound := by
  have less := Nat.mul_lt_mul_of_pos_right (@units_lt_units_succ format bound) positive
  refine round_le wide positive ?_
  rw [Nat.add_mul]
  omega

/-- What is at least the value of a magnitude is not rounded below the magnitude. -/
theorem le_round_of_le {numerator denominator least : Nat} (positive : 0 < denominator)
    (finite : least ≤ format.infinity) (low : format.units least * denominator ≤ numerator) :
    least ≤ format.round numerator denominator := by
  have whole := (Nat.le_div_iff_mul_le positive).mpr low
  generalize quotient_eq : numerator / denominator = quotient at whole
  generalize shift_eq : Nat.log2 quotient - format.fractionBits = shift
  have divided : numerator / (denominator <<< shift) = quotient / 2 ^ shift := by
    rw [Nat.shiftLeft_eq, ← Nat.div_div_eq_div_mul, quotient_eq]
  -- The quotient has a significand, which is shifted by a binade, and rounding keeps these.
  have isSignificand : format.IsSignificand shift (quotient / 2 ^ shift) := by
    refine ⟨?_, ?_⟩
    · refine (Nat.div_lt_iff_lt_mul (Nat.two_pow_pos _)).mpr ?_
      rw [← Nat.pow_add]
      exact Nat.lt_of_lt_of_le Nat.lt_log2_self (Nat.pow_le_pow_right (by decide) (by omega))
    · rcases Nat.eq_zero_or_pos shift with first | later
      · exact .inl first
      · refine .inr ((Nat.le_div_iff_mul_le (Nat.two_pow_pos _)).mpr ?_)
        rw [← Nat.pow_add]
        have some : quotient ≠ 0 := by
          rintro rfl
          rw [Nat.log2_zero] at shift_eq
          omega
        refine Nat.le_trans (Nat.pow_le_pow_right (by decide) ?_) (Nat.log2_self_le some)
        omega
  have before : least ≤ shift * 2 ^ format.fractionBits + quotient / 2 ^ shift := by
    by_contra above
    have more := @units_mono format _ least (Nat.succ_le_of_lt (Nat.lt_of_not_le above))
    rw [units_binade_succ isSignificand] at more
    have less := Nat.lt_div_mul_add (a := quotient) (Nat.two_pow_pos shift)
    rw [Nat.succ_mul] at more
    omega
  rw [round, quotient_eq, shift_eq]
  refine Nat.le_min.mpr ⟨Nat.le_trans before (Nat.add_le_add_left ?_ _), finite⟩
  rw [divideToEven, divided]
  split
  · exact Nat.le_succ _
  · exact Nat.le_refl _

/-- The largest fraction below one takes more than half of the last place away from any significand
that is not the first of its binade. -/
theorem two_mul_mul_lt {limit fraction denominator rest : Nat} (positive : 0 < denominator)
    (some : 0 < limit) (below : fraction * limit ≤ (limit - 1) * denominator)
    (more : limit < 2 * (rest + 1)) :
    2 * (fraction * (rest + 1)) < (2 * rest + 1) * denominator := by
  obtain ⟨less, rfl⟩ := Nat.exists_eq_succ_of_ne_zero (Nat.ne_of_gt some)
  rw [Nat.succ_sub_one] at below
  have lost := Nat.mul_lt_mul_of_pos_right more positive
  refine Nat.lt_of_mul_lt_mul_right (a := less + 1) ?_
  calc 2 * (fraction * (rest + 1)) * (less + 1)
      = 2 * (rest + 1) * (fraction * (less + 1)) := by ring
    _ ≤ 2 * (rest + 1) * (less * denominator) := Nat.mul_le_mul_left _ below
    _ < (2 * rest + 1) * denominator * (less + 1) := by linarith

/-- A fraction of a number of a later binade lies below the middle of the number and the one before.
-/
theorem two_mul_mul_units_lt {fraction denominator binade significand : Nat}
    (positive : 0 < denominator) (isSignificand : format.IsSignificand (binade + 1) significand)
    (below : fraction * 2 ^ (format.fractionBits + 1) ≤
      (2 ^ (format.fractionBits + 1) - 1) * denominator) :
    2 * (fraction * (significand * 2 ^ (binade + 1))) <
      (format.units ((binade + 1) * 2 ^ format.fractionBits + significand - 1) +
        significand * 2 ^ (binade + 1)) * denominator := by
  have size : 0 < 2 ^ format.fractionBits := Nat.two_pow_pos _
  have leading := isSignificand.leading.resolve_left (Nat.succ_ne_zero binade)
  rcases Nat.eq_or_lt_of_le leading with rfl | more
  · -- The lower neighbor of the first number of a binade is the product with the largest fraction.
    rw [units_pred_first]
    have product : fraction * (2 ^ format.fractionBits * 2 ^ (binade + 1)) ≤
        (2 ^ (format.fractionBits + 1) - 1) * 2 ^ binade * denominator :=
      calc fraction * (2 ^ format.fractionBits * 2 ^ (binade + 1))
          = fraction * 2 ^ (format.fractionBits + 1) * 2 ^ binade := by
            rw [Nat.pow_succ, Nat.pow_succ]; ring
        _ ≤ (2 ^ (format.fractionBits + 1) - 1) * denominator * 2 ^ binade :=
            Nat.mul_le_mul_right _ below
        _ = (2 ^ (format.fractionBits + 1) - 1) * 2 ^ binade * denominator := by ring
    have less : (2 ^ (format.fractionBits + 1) - 1) * 2 ^ binade <
        2 ^ format.fractionBits * 2 ^ (binade + 1) := by
      rw [Nat.pow_succ, Nat.pow_succ, ← Nat.mul_assoc, Nat.mul_right_comm]
      exact Nat.mul_lt_mul_of_pos_right (by omega) (Nat.two_pow_pos _)
    have := Nat.mul_lt_mul_of_pos_right less positive
    rw [Nat.add_mul]
    omega
  · obtain ⟨rest, rfl⟩ := Nat.exists_eq_succ_of_ne_zero (Nat.ne_of_gt (Nat.zero_lt_of_lt more))
    have double : 2 ^ (format.fractionBits + 1) < 2 * (rest + 1) := by
      rw [Nat.pow_succ]
      omega
    have half := two_mul_mul_lt positive (Nat.two_pow_pos _) below double
    rw [units_binade_pred isSignificand (.inr (Nat.le_of_lt_succ more))]
    calc 2 * (fraction * ((rest + 1) * 2 ^ (binade + 1)))
        = 2 * (fraction * (rest + 1)) * 2 ^ (binade + 1) := by ring
      _ < (2 * rest + 1) * denominator * 2 ^ (binade + 1) :=
          Nat.mul_lt_mul_of_pos_right half (Nat.two_pow_pos _)
      _ = (rest * 2 ^ (binade + 1) + (rest + 1) * 2 ^ (binade + 1)) * denominator := by ring

/-- **A fraction of a number is less than the number.** A fraction that is not above the largest
one below one, times a number of a binade that is not the first, is rounded below the number. -/
theorem round_mul_lt (wide : 0 < format.fractionBits) {fraction denominator magnitude : Nat}
    (positive : 0 < denominator) (normal : 2 ^ (format.fractionBits + 1) ≤ magnitude)
    (below : fraction * 2 ^ (format.fractionBits + 1) ≤
      (2 ^ (format.fractionBits + 1) - 1) * denominator) :
    format.round (fraction * format.units magnitude) denominator < magnitude := by
  obtain ⟨binade, significand, isSignificand, rfl⟩ := format.exists_binade magnitude
  cases binade with
  | zero =>
      have := isSignificand.below
      omega
  | succ binade =>
      have middle := two_mul_mul_units_lt positive isSignificand below
      have some := Nat.lt_of_lt_of_le (Nat.two_pow_pos (format.fractionBits + 1)) normal
      rw [← units_binade isSignificand] at middle
      generalize (binade + 1) * 2 ^ format.fractionBits + significand = magnitude at some middle ⊢
      obtain ⟨bound, rfl⟩ := Nat.exists_eq_succ_of_ne_zero (Nat.ne_of_gt some)
      exact Nat.lt_succ_of_le (round_le wide positive middle)

/-- The value of a magnitude is rounded to the magnitude. -/
theorem round_units (wide : 0 < format.fractionBits) {magnitude : Nat}
    (finite : magnitude ≤ format.infinity) : format.round (format.units magnitude) 1 = magnitude := by
  have after := @units_lt_units_succ format magnitude
  have before : magnitude = 0 ∨ format.units (magnitude - 1) < format.units magnitude := by
    cases magnitude with
    | zero => exact .inl rfl
    | succ magnitude => exact .inr (units_lt_units_succ magnitude)
  have least : format.units (magnitude - 1) ≤ format.units magnitude := by
    rcases before with rfl | less
    · exact Nat.le_refl _
    · exact Nat.le_of_lt less
  refine round_of_between wide Nat.one_pos finite (by omega) (by omega) fun odd => ?_
  have := before.resolve_left (by rintro rfl; cases odd)
  omega

end Nearest

/-! ## Exact numbers -/

/-- A format that has fraction bits, and more binades than a significand has bits. -/
structure IsWide : Prop where
  fraction : 0 < format.fractionBits
  room : format.unitExponent + 2 < 2 ^ format.exponentBits - 1

theorem isWide_single : single.IsWide := ⟨by decide, by decide⟩

theorem isWide_double : double.IsWide := ⟨by decide, by decide⟩

/-- Natural numbers up to this one are exact. -/
def exactLimit : Nat := 2 ^ (format.fractionBits + 1)

/-- A number with no more digits than a significand, shifted by a binade, is the value of some
magnitude. -/
theorem exists_units {number : Nat} (small : number ≤ format.exactLimit)
    (binade : Nat) : ∃ magnitude ≤ (binade + 2) * 2 ^ format.fractionBits,
      format.units magnitude = number * 2 ^ binade := by
  induction binade generalizing number with
  | zero =>
      rw [exactLimit, Nat.pow_succ] at small
      rcases Nat.eq_or_lt_of_le small with rfl | below
      · refine ⟨1 * 2 ^ format.fractionBits + 2 ^ format.fractionBits, by omega, ?_⟩
        rw [units_binade ⟨?_, .inr (Nat.le_refl _)⟩]
        · ring
        · exact Nat.pow_lt_pow_right (by decide) (Nat.lt_succ_self _)
      · refine ⟨0 * 2 ^ format.fractionBits + number, by omega, units_binade ⟨?_, .inl rfl⟩⟩
        rwa [Nat.pow_succ]
  | succ binade ih =>
      rw [exactLimit, Nat.pow_succ] at small
      have more : (binade + 1 + 2) * 2 ^ format.fractionBits =
          (binade + 2) * 2 ^ format.fractionBits + 2 ^ format.fractionBits := Nat.succ_mul _ _
      by_cases half : number ≤ 2 ^ format.fractionBits
      · obtain ⟨magnitude, bound, value⟩ := @ih (2 * number) (by
          rw [exactLimit, Nat.pow_succ]
          omega)
        exact ⟨magnitude, by omega, by rw [value]; ring⟩
      · rcases Nat.eq_or_lt_of_le small with rfl | below
        · refine ⟨(binade + 2) * 2 ^ format.fractionBits + 2 ^ format.fractionBits, by omega, ?_⟩
          rw [units_binade ⟨?_, .inr (Nat.le_refl _)⟩]
          · ring
          · exact Nat.pow_lt_pow_right (by decide) (Nat.lt_succ_self _)
        · refine ⟨(binade + 1) * 2 ^ format.fractionBits + number, ?_,
            units_binade ⟨by rwa [Nat.pow_succ], .inr (by omega)⟩⟩
          have : (binade + 2) * 2 ^ format.fractionBits =
              (binade + 1) * 2 ^ format.fractionBits + 2 ^ format.fractionBits := Nat.succ_mul _ _
          omega

end Format

namespace Binary

variable {format : Format}

theorem ofNat_zero : (ofNat 0 : Binary format) = zero false := by
  simp [ofNat, ofRatio, zero, Format.round_zero]

/-! ## Sums -/

section Sums

variable {x y : Binary format} (finite : x.isFinite = true) (finite' : y.isFinite = true)

include finite finite'

/-- Finite numbers are added exactly, and rounded once. -/
theorem add_of_isFinite :
    x + y = if x.signedUnits + y.signedUnits = 0 then zero (x.negative && y.negative)
      else ofRatio (decide (x.signedUnits + y.signedUnits < 0))
        (x.signedUnits + y.signedUnits).natAbs 1 := by
  have usual : ∀ {z : Binary format}, z.isFinite = true → z.isNaN = false ∧ z.isInfinite = false :=
    fun finite => ⟨decide_eq_false (Nat.not_lt.mpr (Nat.le_of_lt (of_decide_eq_true finite))),
      decide_eq_false (Nat.ne_of_lt (of_decide_eq_true finite))⟩
  change Binary.add x y = _
  unfold Binary.add
  rw [(usual finite).1, (usual finite').1, (usual finite).2, (usual finite').2]
  rfl

/-- A sum that is a natural number is this number. -/
theorem add_eq_ofNat {total : Nat} (some : total ≠ 0)
    (sum : x.signedUnits + y.signedUnits = ((total * 2 ^ format.unitExponent : Nat) : Int)) :
    x + y = ofNat total := by
  have positive : 0 < total * 2 ^ format.unitExponent :=
    Nat.mul_pos (Nat.pos_of_ne_zero some) (Nat.two_pow_pos _)
  rw [add_of_isFinite finite finite', sum, if_neg (by omega), decide_eq_false (by omega),
    Int.natAbs_natCast, ← Nat.shiftLeft_eq]
  rfl

end Sums

section Wide

variable (wide : format.IsWide)

include wide

/-- A small natural number is exact. -/
theorem units_ofNat {number : Nat} (small : number ≤ format.exactLimit) :
    (ofNat number : Binary format).isFinite = true ∧
      (ofNat number : Binary format).units = number * 2 ^ format.unitExponent := by
  obtain ⟨magnitude, bound, value⟩ := format.exists_units small format.unitExponent
  have finite : magnitude < format.infinity :=
    Nat.lt_of_le_of_lt bound (Nat.mul_lt_mul_of_pos_right wide.room (Nat.two_pow_pos _))
  have same : (ofNat number : Binary format).magnitude = magnitude := by
    change format.round (number <<< format.unitExponent) 1 = magnitude
    rw [Nat.shiftLeft_eq, ← value, Format.round_units wide.fraction (Nat.le_of_lt finite)]
  exact ⟨decide_eq_true (same ▸ finite), (congrArg format.units same).trans value⟩

theorem signedUnits_ofNat {number : Nat} (small : number ≤ format.exactLimit) :
    (ofNat number : Binary format).signedUnits =
      ((number * 2 ^ format.unitExponent : Nat) : Int) :=
  congrArg Int.ofNat (units_ofNat wide small).2

/-- Sums of small natural numbers are exact. -/
theorem ofNat_add_ofNat {first second : Nat}
    (small : first + second ≤ format.exactLimit) :
    (ofNat first : Binary format) + ofNat second = ofNat (first + second) := by
  have less := Nat.le_trans (Nat.le_add_right _ _) small
  have less' := Nat.le_trans (Nat.le_add_left _ _) small
  have finite := (units_ofNat wide less).1
  have finite' := (units_ofNat wide less').1
  have total : (ofNat first : Binary format).signedUnits + (ofNat second : Binary format).signedUnits =
      (((first + second) * 2 ^ format.unitExponent : Nat) : Int) := by
    rw [signedUnits_ofNat wide less, signedUnits_ofNat wide less', ← Int.natCast_add, Nat.add_mul]
  by_cases nothing : first + second = 0
  · rw [add_of_isFinite finite finite', total, nothing, ofNat_zero, if_pos (by simp)]
    rfl
  · exact add_eq_ofNat finite finite' nothing total

end Wide

end Binary

end ShardedGraph.Number
