import Mathlib.Data.List.TakeWhile
import Mathlib.Tactic.Linarith
import Mathlib.Tactic.Ring
import ShardedGraph.Number.Decimal
import ShardedGraph.Number.Text
import ShardedGraph.Proofs.Rounding

/-!
# Decimal texts and what they say

The text of a number says the number. For natural numbers this is a fact about digits. For the
numbers of a format it takes three steps.

**Digits.** A count of digits is enough when its grid is finer than the gaps to the two neighbors
of a magnitude (`Format.isSome_digitsOfCount?`), and a gap is no less than a value divided by the
number of significands (`Format.units_succ_le_gap`), so the greatest count that is tried is enough.
The digits that are found lie between the middles to the two neighbors (`Format.IsNearest`).

**Layout.** Zeros after the digits, and zeros and a point among them, do not change the fraction
that the text says (`DecimalDigits.parts_value`).

**Rounding.** The fraction is then rounded to the magnitude (`Binary.exists_text`).
-/

set_option autoImplicit false

namespace ShardedGraph.Number

/-! ## Digits -/

theorem digitsValue_toDigits (n : Nat) : digitsValue (Nat.toDigits 10 n) = n :=
  Nat.ofDigitChars_ten_toDigits

theorem digitsValue_append (first second : List Char) :
    digitsValue (first ++ second) =
      digitsValue first * 10 ^ second.length + digitsValue second := by
  change Nat.ofDigitChars 10 (first ++ second) 0 = _
  rw [Nat.ofDigitChars_append, Nat.ofDigitChars_eq_ofDigitChars_zero, Nat.mul_comm]
  rfl

theorem digitsValue_zeros (zeros : Nat) : digitsValue (List.replicate zeros '0') = 0 := by
  change Nat.ofDigitChars 10 _ 0 = 0
  rw [Nat.ofDigitChars_replicate_zero, Nat.mul_zero]

theorem isDigit_of_mem_toDigits {n : Nat} {c : Char} (member : c ∈ Nat.toDigits 10 n) :
    c.isDigit = true :=
  Nat.isDigit_of_mem_toDigits (by decide) (by decide) member

theorem isDigit_of_mem_zeros {zeros : Nat} {c : Char} (member : c ∈ List.replicate zeros '0') :
    c.isDigit = true := by
  rw [List.eq_of_mem_replicate member]
  decide

/-- A number is at least one followed by zeros, one fewer than it has digits. -/
theorem pow_le_of_length_toDigits {n : Nat} (some : 0 < n) :
    10 ^ ((Nat.toDigits 10 n).length - 1) ≤ n := by
  by_cases one : (Nat.toDigits 10 n).length - 1 = 0
  · rw [one]
    exact some
  · refine Nat.not_lt.mp fun less => ?_
    have few := (Nat.length_toDigits_le_iff (b := 10) (by decide) (Nat.pos_of_ne_zero one)).mpr less
    omega

theorem lt_pow_length_toDigits (n : Nat) : n < 10 ^ (Nat.toDigits 10 n).length :=
  (Nat.length_toDigits_le_iff (b := 10) (by decide) Nat.length_toDigits_pos).mp (Nat.le_refl _)

/-- The digits of a number are read as the number. -/
theorem readNat?_toDigits {bound n : Nat} (below : n < bound) :
    readNat? bound (Nat.toDigits 10 n) = some n := by
  have same : dropPlus (Nat.toDigits 10 n) = Nat.toDigits 10 n := by
    obtain ⟨first, rest, digits⟩ := List.exists_cons_of_ne_nil (@Nat.toDigits_ne_nil n 10)
    have digit := @isDigit_of_mem_toDigits n first (digits ▸ List.mem_cons_self)
    rw [digits, dropPlus]
    rintro rest ⟨⟩
    exact absurd digit (by decide)
  have all : (Nat.toDigits 10 n).all Char.isDigit = true :=
    List.all_eq_true.mpr fun c member => isDigit_of_mem_toDigits member
  have some : (Nat.toDigits 10 n).isEmpty = false := List.isEmpty_eq_false_iff.mpr Nat.toDigits_ne_nil
  simp [readNat?, same, all, some, digitsValue_toDigits, below]

/-- Digits end in as many zeros as are dropped from their end. -/
theorem exists_append_zeros (digits : List Char) : ∃ zeros,
    digits = (digits.reverse.dropWhile (· == '0')).reverse ++ List.replicate zeros '0' := by
  refine ⟨(digits.reverse.takeWhile (· == '0')).length, ?_⟩
  have zeros : digits.reverse.takeWhile (· == '0') =
      List.replicate (digits.reverse.takeWhile (· == '0')).length '0' :=
    List.eq_replicate_of_mem fun c member => by simpa using List.mem_takeWhile_imp member
  have back := congrArg List.reverse (List.takeWhile_append_dropWhile
    (p := fun c => c == '0') (l := digits.reverse))
  rw [List.reverse_append, List.reverse_reverse, zeros, List.reverse_replicate] at back
  exact back.symm

/-! ## Grids -/

/-- What is less than the next power of ten is at least the power, which may be below one. -/
theorem mul_pow_decimalPoint_le {numerator denominator : Nat} (some : 0 < numerator)
    (positive : 0 < denominator) :
    denominator * 10 ^ (decimalPoint numerator denominator - 1).toNat ≤
      numerator * 10 ^ (1 - decimalPoint numerator denominator).toNat := by
  by_cases large : denominator ≤ numerator
  · have digits := @Nat.length_toDigits_pos 10 (numerator / denominator)
    have least := pow_le_of_length_toDigits (Nat.div_pos large positive)
    rw [decimalPoint, if_pos large, show (((Nat.toDigits 10 (numerator / denominator)).length : Int) -
      1).toNat = (Nat.toDigits 10 (numerator / denominator)).length - 1 by omega,
      show (1 - ((Nat.toDigits 10 (numerator / denominator)).length : Int)).toNat = 0 by omega,
      Nat.pow_zero, Nat.mul_one]
    calc denominator * 10 ^ ((Nat.toDigits 10 (numerator / denominator)).length - 1)
        ≤ denominator * (numerator / denominator) := Nat.mul_le_mul_left _ least
      _ ≤ numerator := Nat.mul_div_le _ _
  · have digits := @Nat.length_toDigits_pos 10 ((denominator - 1) / numerator)
    have least := lt_pow_length_toDigits ((denominator - 1) / numerator)
    rw [decimalPoint, if_neg large, show (1 - ((Nat.toDigits 10 ((denominator - 1) /
      numerator)).length : Int) - 1).toNat = 0 by omega, show (1 - (1 - ((Nat.toDigits 10
      ((denominator - 1) / numerator)).length : Int))).toNat =
        (Nat.toDigits 10 ((denominator - 1) / numerator)).length by omega,
      Nat.pow_zero, Nat.mul_one]
    have below := (Nat.div_lt_iff_lt_mul some).mp least
    rw [Nat.mul_comm] at below
    omega

namespace Format

variable {format : Format}

/-- A gap to a neighbor is no less than a value divided by the number of significands. -/
theorem units_succ_le_gap (magnitude : Nat) :
    format.units (magnitude + 1) + 2 ^ (format.fractionBits + 1) * format.units magnitude ≤
      2 ^ (format.fractionBits + 1) * format.units (magnitude + 1) := by
  obtain ⟨binade, significand, isSignificand, rfl⟩ := format.exists_binade magnitude
  rw [units_binade isSignificand, units_binade_succ isSignificand]
  have below := Nat.mul_le_mul_right (2 ^ binade) (Nat.succ_le_of_lt isSignificand.below)
  calc (significand + 1) * 2 ^ binade + 2 ^ (format.fractionBits + 1) * (significand * 2 ^ binade)
      ≤ 2 ^ (format.fractionBits + 1) * 2 ^ binade +
          2 ^ (format.fractionBits + 1) * (significand * 2 ^ binade) := Nat.add_le_add_right below _
    _ = 2 ^ (format.fractionBits + 1) * ((significand + 1) * 2 ^ binade) := by ring

section Counts

variable {magnitude count : Nat} {point : Int}

variable (format magnitude count point) in
/-- Whether the search for digits takes a point of the grid with a count of digits. -/
def takes (candidate : Nat) : Bool :=
  let low := (format.units (magnitude - 1) + format.units magnitude) * 10 ^ (count - point).toNat
  let high := (format.units magnitude + format.units (magnitude + 1)) * 10 ^ (count - point).toNat
  let middle := 2 * candidate * 2 ^ format.unitExponent * 10 ^ (point - count).toNat
  if magnitude % 2 = 0 then decide (low ≤ middle ∧ middle ≤ high)
  else decide (low < middle ∧ middle < high)

/-- The search takes what is read back. -/
theorem takes_iff {candidate : Nat} : format.takes magnitude count point candidate = true ↔
    format.IsNearest magnitude (candidate * (2 ^ format.unitExponent * 10 ^ (point - count).toNat))
      (10 ^ (count - point).toNat) := by
  have middle : 2 * candidate * 2 ^ format.unitExponent * 10 ^ (point - count).toNat =
      2 * (candidate * (2 ^ format.unitExponent * 10 ^ (point - count).toNat)) := by ring
  rw [takes, middle]
  split
  case isTrue even =>
    rw [decide_eq_true_iff]
    exact ⟨fun ⟨low, high⟩ => ⟨low, high, fun odd => absurd odd (by omega)⟩,
      fun ⟨low, high, _⟩ => ⟨low, high⟩⟩
  case isFalse odd =>
    rw [decide_eq_true_iff]
    exact ⟨fun ⟨low, high⟩ => ⟨Nat.le_of_lt low, Nat.le_of_lt high, fun _ => ⟨low, high⟩⟩,
      fun nearest => nearest.strict (by omega)⟩

/-- The search tries the two points of the grid around the value. -/
theorem digitsOfCount?_eq : format.digitsOfCount? magnitude point count =
    let scale := 2 ^ format.unitExponent * 10 ^ (point - count).toNat
    let value := format.units magnitude * 10 ^ (count - point).toNat
    match format.takes magnitude count point (value / scale),
      format.takes magnitude count point (value / scale + 1) with
    | true, true =>
        if 2 * (value % scale) < scale then some (value / scale) else some (value / scale + 1)
    | true, false => some (value / scale)
    | false, true => some (value / scale + 1)
    | false, false => none := rfl

/-- Digits that are found are read back. -/
theorem isNearest_of_digitsOfCount? {value : Nat}
    (found : format.digitsOfCount? magnitude point count = some value) :
    format.IsNearest magnitude (value * (2 ^ format.unitExponent * 10 ^ (point - count).toNat))
      (10 ^ (count - point).toNat) := by
  rw [digitsOfCount?_eq] at found
  dsimp only at found
  rw [← takes_iff]
  split at found <;> rename_i below above
  · split at found <;> cases found
    · exact below
    · exact above
  · cases found
    exact below
  · cases found
    exact above
  · cases found

/-- Digits are found when their grid is finer than the gaps to both neighbors. -/
theorem isSome_digitsOfCount?
    (lower : 2 ^ format.unitExponent * 10 ^ (point - count).toNat +
      format.units (magnitude - 1) * 10 ^ (count - point).toNat <
        format.units magnitude * 10 ^ (count - point).toNat)
    (upper : 2 ^ format.unitExponent * 10 ^ (point - count).toNat +
      format.units magnitude * 10 ^ (count - point).toNat <
        format.units (magnitude + 1) * 10 ^ (count - point).toNat) :
    (format.digitsOfCount? magnitude point count).isSome = true := by
  have positive : 0 < 2 ^ format.unitExponent * 10 ^ (point - count).toNat :=
    Nat.mul_pos (Nat.two_pow_pos _) (Nat.pow_pos (by decide))
  have taken : format.takes magnitude count point (format.units magnitude *
        10 ^ (count - point).toNat / (2 ^ format.unitExponent * 10 ^ (point - count).toNat)) = true ∨
      format.takes magnitude count point (format.units magnitude *
        10 ^ (count - point).toNat / (2 ^ format.unitExponent * 10 ^ (point - count).toNat) + 1) =
          true := by
    simp only [takes_iff]
    generalize 2 ^ format.unitExponent * 10 ^ (point - count).toNat = scale at *
    have split := Nat.div_add_mod' (format.units magnitude * 10 ^ (count - point).toNat) scale
    have rest := Nat.mod_lt (format.units magnitude * 10 ^ (count - point).toNat) positive
    by_cases near : 2 * (format.units magnitude * 10 ^ (count - point).toNat % scale) ≤ scale
    · refine .inl ⟨?_, ?_, fun _ => ⟨?_, ?_⟩⟩ <;> rw [Nat.add_mul] <;> omega
    · refine .inr ⟨?_, ?_, fun _ => ⟨?_, ?_⟩⟩ <;> rw [Nat.add_mul, Nat.add_mul] <;> omega
  rw [digitsOfCount?_eq]
  dsimp only
  split <;> rename_i below above
  · split <;> rfl
  · rfl
  · rfl
  · rw [below, above] at taken
    exact absurd taken (by decide)

end Counts

/-- Significands have fewer values than there are points with one digit less than are tried. -/
theorem two_pow_lt_ten_pow (bits : Nat) : 2 ^ (bits + 1) < 10 ^ (bits / 3 + 1) :=
  calc 2 ^ (bits + 1) ≤ 2 ^ (3 * (bits / 3 + 1)) := Nat.pow_le_pow_right (by decide) (by omega)
    _ = 8 ^ (bits / 3 + 1) := Nat.pow_mul 2 3 _
    _ < 10 ^ (bits / 3 + 1) := Nat.pow_lt_pow_left (by decide) (Nat.succ_ne_zero _)

/-- The grid of the greatest count that is tried is finer than a gap. -/
theorem grid_lt_gap {value : Nat} {point : Int} (gap : Nat) (some : 0 < value)
    (large : value ≤ 2 ^ (format.fractionBits + 1) * gap)
    (spot : 2 ^ format.unitExponent * 10 ^ (point - 1).toNat ≤ value * 10 ^ (1 - point).toNat) :
    2 ^ format.unitExponent * 10 ^ (point - (format.fractionBits / 3 + 1 + 1 : Nat)).toNat <
      gap * 10 ^ ((format.fractionBits / 3 + 1 + 1 : Nat) - point).toNat := by
  have wide : 0 < gap := Nat.pos_of_mul_pos_left (Nat.lt_of_lt_of_le some large)
  have fine := two_pow_lt_ten_pow format.fractionBits
  generalize format.fractionBits / 3 + 1 = places at *
  have scales : (point - (places + 1 : Nat)).toNat + ((1 - point).toNat + places) =
      (point - 1).toNat + ((places + 1 : Nat) - point).toNat := by omega
  refine Nat.lt_of_mul_lt_mul_right (a := 10 ^ ((1 - point).toNat + places)) ?_
  generalize (point - (places + 1 : Nat)).toNat = down, ((places + 1 : Nat) - point).toNat = up,
    (point - 1).toNat = beyond, (1 - point).toNat = under at *
  calc 2 ^ format.unitExponent * 10 ^ down * 10 ^ (under + places)
      = 2 ^ format.unitExponent * 10 ^ beyond * 10 ^ up := by
        rw [Nat.mul_assoc, ← Nat.pow_add, scales, Nat.pow_add, Nat.mul_assoc]
    _ ≤ 2 ^ (format.fractionBits + 1) * gap * 10 ^ under * 10 ^ up :=
        Nat.mul_le_mul_right _ (Nat.le_trans spot (Nat.mul_le_mul_right _ large))
    _ = 2 ^ (format.fractionBits + 1) * (gap * 10 ^ under * 10 ^ up) := by ring
    _ < 10 ^ places * (gap * 10 ^ under * 10 ^ up) :=
        Nat.mul_lt_mul_of_pos_right fine (by positivity)
    _ = gap * 10 ^ up * 10 ^ (under + places) := by ring

/-- The greatest count of digits that is tried is enough. -/
theorem isSome_most (magnitude : Nat) :
    (format.digitsOfCount? (magnitude + 1)
      (decimalPoint (format.units (magnitude + 1)) (2 ^ format.unitExponent))
      (format.fractionBits / 3 + 1 + 1)).isSome = true := by
  have less := @units_lt_units_succ format magnitude
  have more := @units_lt_units_succ format (magnitude + 1)
  have some : 0 < format.units (magnitude + 1) := Nat.zero_lt_of_lt less
  have spot := mul_pow_decimalPoint_le some (Nat.two_pow_pos format.unitExponent)
  have below := @units_succ_le_gap format magnitude
  have above := @units_succ_le_gap format (magnitude + 1)
  have lower := grid_lt_gap (format.units (magnitude + 1) - format.units magnitude) some
    (by rw [Nat.mul_sub]; omega) spot
  have upper := grid_lt_gap (format.units (magnitude + 1 + 1) - format.units (magnitude + 1)) some
    (by rw [Nat.mul_sub]; omega) spot
  rw [Nat.sub_mul] at lower upper
  exact isSome_digitsOfCount? (by rw [Nat.add_sub_cancel]; omega) (by omega)

/-- The shortest digits are digits of a number that is read back, without the zeros at its end. -/
theorem shortest_eq (magnitude : Nat) : ∃ value count zeros,
    format.IsNearest (magnitude + 1)
      (value * (2 ^ format.unitExponent * 10 ^ (decimalPoint (format.units (magnitude + 1))
        (2 ^ format.unitExponent) - (count : Nat)).toNat))
      (10 ^ (count - decimalPoint (format.units (magnitude + 1))
        (2 ^ format.unitExponent)).toNat) ∧
    count ≤ format.fractionBits / 3 + 2 ∧
    Nat.toDigits 10 value =
      (format.shortest (magnitude + 1)).digits ++ List.replicate zeros '0' ∧
    (format.shortest (magnitude + 1)).point =
      decimalPoint (format.units (magnitude + 1)) (2 ^ format.unitExponent) +
        (Nat.toDigits 10 value).length - count := by
  have found : ((List.range (format.fractionBits / 3 + 2)).findSome? fun fewer =>
      (format.digitsOfCount? (magnitude + 1) (decimalPoint (format.units (magnitude + 1))
        (Nat.pow 2 format.unitExponent)) (fewer + 1)).map fun digits =>
          (digits, fewer + 1)).isSome = true := by
    refine List.findSome?_isSome_iff.mpr ⟨format.fractionBits / 3 + 1, by simp, ?_⟩
    rw [Option.isSome_map]
    exact isSome_most magnitude
  obtain ⟨⟨value, count⟩, found⟩ := Option.isSome_iff_exists.mp found
  obtain ⟨fewer, inside, digits⟩ := List.exists_of_findSome?_eq_some found
  obtain ⟨value, there, same⟩ := Option.map_eq_some_iff.mp digits
  cases same
  obtain ⟨zeros, ends⟩ := exists_append_zeros (Nat.toDigits 10 value)
  refine ⟨value, fewer + 1, zeros, isNearest_of_digitsOfCount? there,
    Nat.succ_le_succ (Nat.le_of_lt_succ (List.mem_range.mp inside)), ?_, ?_⟩
  · rw [shortest, found]
    exact ends
  · rw [shortest, found]
    rfl

theorem units_infinity_le :
    format.units format.infinity ≤ 2 ^ format.unitExponent * 2 ^ 2 ^ format.exponentBits := by
  cases bits : format.exponentBits with
  | zero => simp [infinity, bits, units_zero]
  | succ fewer =>
      have some := Nat.two_pow_pos fewer
      have same : format.infinity =
          (2 ^ format.exponentBits - 2) * 2 ^ format.fractionBits + 2 ^ format.fractionBits := by
        rw [infinity, Nat.pow_eq, Nat.pow_eq, ← Nat.succ_mul, bits, Nat.pow_succ]
        congr 1
        omega
      rw [same, units_binade ⟨Nat.pow_lt_pow_right (by decide) (Nat.lt_succ_self _),
        .inr (Nat.le_refl _)⟩, ← bits]
      refine Nat.mul_le_mul (Nat.pow_le_pow_right (by decide) ?_)
        (Nat.pow_le_pow_right (by decide) (Nat.sub_le _ _))
      exact Nat.le_add_left _ _

/-- What is read back as a finite magnitude has no more digits than the range of the format allows. -/
theorem IsNearest.length_toDigits_le {magnitude numerator places value : Nat}
    (nearest : format.IsNearest (magnitude + 1) numerator (10 ^ places))
    (finite : magnitude + 1 < format.infinity)
    (part : value * 2 ^ format.unitExponent ≤ numerator) :
    (Nat.toDigits 10 value).length ≤ 2 ^ format.exponentBits + places := by
  have below := @units_mono format _ _ (Nat.le_of_lt finite)
  have above := @units_mono format _ _ (Nat.succ_le_of_lt finite)
  have most : value * 2 ^ format.unitExponent ≤
      2 ^ 2 ^ format.exponentBits * 10 ^ places * 2 ^ format.unitExponent :=
    calc value * 2 ^ format.unitExponent
        ≤ format.units format.infinity * 10 ^ places := by
          have := Nat.le_trans nearest.high (Nat.mul_le_mul_right (10 ^ places)
            (Nat.add_le_add below above))
          rw [Nat.add_mul] at this
          omega
      _ ≤ 2 ^ format.unitExponent * 2 ^ 2 ^ format.exponentBits * 10 ^ places :=
          Nat.mul_le_mul_right _ format.units_infinity_le
      _ = 2 ^ 2 ^ format.exponentBits * 10 ^ places * 2 ^ format.unitExponent := by ring
  refine (Nat.length_toDigits_le_iff (by decide)
    (Nat.add_pos_left (Nat.two_pow_pos _) _)).mpr ?_
  calc value ≤ 2 ^ 2 ^ format.exponentBits * 10 ^ places :=
        Nat.le_of_mul_le_mul_right most (Nat.two_pow_pos _)
    _ < 10 ^ 2 ^ format.exponentBits * 10 ^ places :=
        Nat.mul_lt_mul_of_pos_right (Nat.pow_lt_pow_left (by decide)
          (Nat.ne_of_gt (Nat.two_pow_pos _))) (Nat.pow_pos (by decide))
    _ = 10 ^ (2 ^ format.exponentBits + places) := (Nat.pow_add 10 _ _).symm

end Format

/-! ## Layout -/

namespace DecimalDigits

variable (d : DecimalDigits)

/-- The digits and zeros of a text say the same fraction as the digits alone. -/
theorem parts_value : ∃ up : Nat,
    digitsValue (d.parts.1 ++ d.parts.2) = digitsValue d.digits * 10 ^ up ∧
    (up : Int) - d.parts.2.length = d.point - d.digits.length := by
  rw [parts]
  by_cases low : d.point ≤ 0
  · refine ⟨0, ?_, ?_⟩
    · simp only [if_pos low, digitsValue_append, digitsValue_zeros]
      simp [digitsValue, digitValue]
    · simp only [if_pos low, List.length_append, List.length_replicate]
      omega
  · refine ⟨d.point.toNat - d.digits.length, ?_, ?_⟩
    · simp only [if_neg low]
      rcases Nat.le_total d.digits.length d.point.toNat with short | long
      · rw [List.take_of_length_le short, List.drop_of_length_le short, List.append_nil,
          digitsValue_append, digitsValue_zeros, List.length_replicate, Nat.add_zero]
      · rw [Nat.sub_eq_zero_of_le long, List.replicate_zero, List.append_nil,
          List.take_append_drop, Nat.pow_zero, Nat.mul_one]
    · simp only [if_neg low, List.length_drop]
      omega

theorem isDigit_of_mem_parts {d : DecimalDigits} (all : ∀ c ∈ d.digits, c.isDigit = true) :
    ∀ c ∈ d.parts.1 ++ d.parts.2, c.isDigit = true := by
  intro c member
  rw [parts] at member
  split at member
  · rcases List.mem_append.mp member with zero | member
    · exact List.mem_singleton.mp zero ▸ rfl
    · exact (List.mem_append.mp member).elim isDigit_of_mem_zeros (all c)
  · rcases List.mem_append.mp member with before | after
    · exact (List.mem_append.mp before).elim (fun digit => all c (List.mem_of_mem_take digit))
        isDigit_of_mem_zeros
    · exact all c (List.mem_of_mem_drop after)

theorem parts_ne_nil : d.parts.1 ≠ [] := by
  rw [parts]
  split
  · exact List.cons_ne_nil _ _
  · refine List.ne_nil_of_length_pos ?_
    rw [List.length_append, List.length_take, List.length_replicate]
    omega

/-- A fraction after its point; no point when there is no fraction. -/
def pointed (fraction : List Char) : List Char := if fraction = [] then [] else '.' :: fraction

theorem toList_positional : d.positional.toList = d.parts.1 ++ pointed d.parts.2 := by
  rw [positional]
  rcases d.parts with ⟨whole, _ | ⟨first, rest⟩⟩
  · simp [pointed]
  · simp [pointed]

end DecimalDigits

/-! ## Values -/

namespace Decimal

/-- A fraction that is read back is neither too large nor too small to be computed, and gives the
number. -/
theorem toBinary_of_isNearest {format : Format} (wide : 0 < format.fractionBits)
    {x : Binary format} {magnitude significand places : Nat} (same : x.magnitude = magnitude + 1)
    (finite : magnitude + 1 < format.infinity)
    (nearest : format.IsNearest (magnitude + 1) (significand * 2 ^ format.unitExponent)
      (10 ^ places)) :
    (Decimal.finite x.negative significand (-places)).toBinary = x := by
  have some : 0 < format.units (magnitude + 1) := Nat.zero_lt_of_lt (Format.units_lt_units_succ _)
  have scale := Nat.two_pow_pos format.unitExponent
  have shift : 0 < 10 ^ places := Nat.pow_pos (by decide)
  have least : 10 ^ places ≤ 2 * (significand * 2 ^ format.unitExponent) :=
    Nat.le_trans (Nat.le_mul_of_pos_left _ (Nat.add_pos_right _ some)) nearest.low
  have nonzero : 0 < significand := by
    refine Nat.pos_of_ne_zero fun zero => ?_
    rw [zero, Nat.zero_mul] at least
    omega
  have notLarge := nearest.length_toDigits_le finite (Nat.le_refl _)
  have notSmall : places < (Nat.toDigits 10 significand).length + (format.unitExponent + 1) := by
    refine (Nat.pow_lt_pow_iff_right (a := 10) (by decide)).mp ?_
    calc 10 ^ places ≤ 2 * (significand * 2 ^ format.unitExponent) := least
      _ < 2 * (10 ^ (Nat.toDigits 10 significand).length * 2 ^ format.unitExponent) :=
          Nat.mul_lt_mul_of_pos_left
            (Nat.mul_lt_mul_of_pos_right (lt_pow_length_toDigits significand) scale) (by decide)
      _ = 10 ^ (Nat.toDigits 10 significand).length * 2 ^ (format.unitExponent + 1) := by ring
      _ ≤ 10 ^ (Nat.toDigits 10 significand).length * 10 ^ (format.unitExponent + 1) :=
          Nat.mul_le_mul_left _ (Nat.pow_le_pow_left (by decide) _)
      _ = 10 ^ ((Nat.toDigits 10 significand).length + (format.unitExponent + 1)) :=
          (Nat.pow_add 10 _ _).symm
  have down : (-(places : Int)).toNat = 0 := by omega
  have up : (- -(places : Int)).toNat = places := by omega
  rw [toBinary, if_neg (Nat.ne_of_gt nonzero), if_neg, if_neg, down, up, Nat.pow_eq, Nat.pow_eq,
    Nat.pow_zero, Nat.mul_one, Nat.shiftLeft_eq, Binary.ofRatio, Binary.mk.injEq]
  · exact ⟨rfl, (nearest.round_eq wide shift (Nat.le_of_lt finite)).trans same.symm⟩
  · omega
  · rw [Nat.pow_eq]
    omega

end Decimal

/-- The text of a finite number is that of its magnitude, after a minus or not. -/
theorem Binary.toList_text {format : Format} {x : Binary format} (finite : x.isFinite = true) :
    x.text.toList = (if x.negative then ['-'] else []) ++
      (if x.isZero then "0" else (format.shortest x.magnitude).positional).toList := by
  have below := of_decide_eq_true finite
  have number : x.isNaN = false := decide_eq_false (by omega)
  have bounded : x.isInfinite = false := decide_eq_false (by omega)
  rw [text, withSign, number, bounded]
  cases x.negative with
  | true => exact String.toList_append
  | false => rfl

/-- **The text of a finite number.** It is digits after a sign or not, with a point among them or
not, and these say a decimal that gives the number. -/
theorem Binary.exists_text {format : Format} (wide : 0 < format.fractionBits) {x : Binary format}
    (finite : x.isFinite = true) : ∃ whole fraction : List Char, whole ≠ [] ∧
      (∀ c ∈ whole ++ fraction, c.isDigit = true) ∧
      x.text.toList =
        (if x.negative then ['-'] else []) ++ (whole ++ DecimalDigits.pointed fraction) ∧
      (Decimal.finite x.negative (digitsValue (whole ++ fraction)) (-fraction.length)).toBinary =
        x := by
  have signed := toList_text finite
  cases some : x.magnitude with
  | zero =>
      refine ⟨['0'], [], List.cons_ne_nil _ _, fun c member => ?_, ?_, ?_⟩
      · cases List.mem_singleton.mp member
        rfl
      · rw [signed, isZero, some, decide_eq_true rfl, if_pos rfl]
        rfl
      · obtain ⟨negative, magnitude, fits⟩ := x
        cases some
        rfl
  | succ magnitude =>
      obtain ⟨value, count, zeros, nearest, -, digits, point⟩ := format.shortest_eq magnitude
      obtain ⟨up, equal, places⟩ := (format.shortest (magnitude + 1)).parts_value
      have all : ∀ c ∈ (format.shortest (magnitude + 1)).digits, c.isDigit = true :=
        fun c member => isDigit_of_mem_toDigits (digits ▸ List.mem_append_left _ member)
      refine ⟨_, _, DecimalDigits.parts_ne_nil _, DecimalDigits.isDigit_of_mem_parts all, ?_,
        Decimal.toBinary_of_isNearest wide some ?_ ?_⟩
      · rw [signed, isZero, some, ← DecimalDigits.toList_positional]
        rfl
      · exact some ▸ of_decide_eq_true finite
      · refine nearest.of_eq (Nat.pow_pos (by decide)) (Nat.pow_pos (by decide)) ?_
        have whole : value = digitsValue (format.shortest (magnitude + 1)).digits * 10 ^ zeros := by
          rw [← digitsValue_toDigits value, digits, digitsValue_append, digitsValue_zeros,
            List.length_replicate, Nat.add_zero]
        rw [digits, List.length_append, List.length_replicate] at point
        rw [equal, whole]
        generalize decimalPoint _ _ = first at *
        have scales : zeros + ((first - count).toNat +
              (format.shortest (magnitude + 1)).parts.2.length) =
            up + (count - first).toNat := by omega
        generalize (first - count).toNat = down, (count - first).toNat = beyond,
          digitsValue (format.shortest (magnitude + 1)).digits = short at *
        calc short * 10 ^ zeros * (2 ^ format.unitExponent * 10 ^ down) *
              10 ^ (format.shortest (magnitude + 1)).parts.2.length
            = short * 2 ^ format.unitExponent *
                10 ^ (zeros + (down + (format.shortest (magnitude + 1)).parts.2.length)) := by ring
          _ = short * 10 ^ up * 2 ^ format.unitExponent * 10 ^ beyond := by
              rw [scales]
              ring

/-- The text of a finite number has digits, a point and a minus. -/
theorem Binary.mem_text {format : Format} (wide : 0 < format.fractionBits) {x : Binary format}
    (finite : x.isFinite = true) {c : Char} (member : c ∈ x.text.toList) :
    c.isDigit = true ∨ c = '.' ∨ c = '-' := by
  obtain ⟨whole, fraction, -, digits, text, -⟩ := exists_text wide finite
  obtain ⟨ofWhole, ofFraction⟩ := List.forall_mem_append.mp digits
  rw [text] at member
  rcases List.mem_append.mp member with sign | member
  · split at sign
    · exact .inr (.inr (List.mem_singleton.mp sign))
    · exact absurd sign List.not_mem_nil
  · rcases List.mem_append.mp member with member | member
    · exact .inl (ofWhole c member)
    · rw [DecimalDigits.pointed] at member
      split at member
      · exact absurd member List.not_mem_nil
      · exact (List.mem_cons.mp member).elim (fun point => .inr (.inl point))
          fun member => .inl (ofFraction c member)

theorem Binary.text_ne_nil {format : Format} (wide : 0 < format.fractionBits) {x : Binary format}
    (finite : x.isFinite = true) : x.text.toList ≠ [] := by
  obtain ⟨whole, fraction, begun, -, text, -⟩ := exists_text wide finite
  rw [text]
  exact List.append_ne_nil_of_right_ne_nil _ (List.append_ne_nil_of_left_ne_nil begun _)

/-! ## Lengths -/

/-- A number below a power of two has no more digits than the power has bits, but for one. -/
theorem length_toDigits_le {n bits : Nat} (small : n ≤ 2 ^ bits) :
    (Nat.toDigits 10 n).length ≤ bits + 1 := by
  refine (Nat.length_toDigits_le_iff (by decide) (Nat.succ_pos _)).mpr ?_
  calc n ≤ 2 ^ bits := small
    _ < 2 ^ (bits + 1) := Nat.pow_lt_pow_right (by decide) (Nat.lt_succ_self _)
    _ ≤ 10 ^ (bits + 1) := Nat.pow_le_pow_left (by decide) _

/-- How far from the first digit of a finite number its point can be. -/
def Format.pointLimit (format : Format) : Nat := 2 ^ format.exponentBits + format.unitExponent + 1

theorem natAbs_decimalPoint_le {format : Format} {magnitude : Nat}
    (finite : magnitude ≤ format.infinity) :
    (decimalPoint (format.units magnitude) (2 ^ format.unitExponent)).natAbs ≤
      format.pointLimit := by
  have scale := Nat.two_pow_pos format.unitExponent
  rw [decimalPoint, Format.pointLimit]
  split
  · have small : format.units magnitude / 2 ^ format.unitExponent ≤ 2 ^ 2 ^ format.exponentBits := by
      refine Nat.div_le_of_le_mul ?_
      exact Nat.le_trans (Format.units_mono finite) format.units_infinity_le
    have := length_toDigits_le small
    omega
  · have small : (2 ^ format.unitExponent - 1) / format.units magnitude ≤
        2 ^ format.unitExponent :=
      Nat.le_trans (Nat.div_le_self _ _) (Nat.sub_le _ _)
    have := length_toDigits_le small
    have := @Nat.length_toDigits_pos 10 ((2 ^ format.unitExponent - 1) / format.units magnitude)
    generalize 2 ^ format.exponentBits = range
    omega

/-- The digits and the zeros of a text are no more than the digits and the distance of the point. -/
theorem DecimalDigits.length_positional_le (d : DecimalDigits) :
    d.positional.toList.length ≤ d.digits.length + d.point.natAbs + 2 := by
  have dotted : ∀ fraction, (pointed fraction).length ≤ fraction.length + 1 := by
    intro fraction
    rw [pointed]
    split
    · exact Nat.zero_le _
    · exact Nat.le_refl _
  have := dotted d.parts.2
  have both : d.parts.1.length + d.parts.2.length ≤ d.digits.length + d.point.natAbs + 1 := by
    rw [parts]
    split
    · simp only [List.length_cons, List.length_nil, List.length_append, List.length_replicate]
      omega
    · simp only [List.length_append, List.length_take, List.length_replicate, List.length_drop]
      omega
  rw [toList_positional, List.length_append]
  omega

/-- How many digits the shortest text of a finite number can have. -/
def Format.digitLimit (format : Format) : Nat :=
  2 ^ format.exponentBits + (format.fractionBits / 3 + 2) + format.pointLimit

theorem Format.shortest_le {format : Format} {magnitude : Nat}
    (finite : magnitude + 1 < format.infinity) :
    (format.shortest (magnitude + 1)).digits.length ≤ format.digitLimit ∧
      (format.shortest (magnitude + 1)).point.natAbs ≤ format.pointLimit + 2 * format.digitLimit := by
  obtain ⟨value, count, zeros, nearest, few, digits, point⟩ := format.shortest_eq magnitude
  have spot := natAbs_decimalPoint_le (Nat.le_of_lt finite)
  have most := nearest.length_toDigits_le finite (Nat.mul_le_mul_left _
    (Nat.le_mul_of_pos_right (2 ^ format.unitExponent) (Nat.pow_pos (by decide))))
  have whole := congrArg List.length digits
  rw [List.length_append, List.length_replicate] at whole
  rw [digitLimit]
  generalize decimalPoint _ _ = first, 2 ^ format.exponentBits = range at *
  omega

/-- The text of a finite number has no more characters than this. -/
def Binary.textLimit (format : Format) : Nat := format.pointLimit + 3 * format.digitLimit + 3

theorem Binary.length_text_le {format : Format} {x : Binary format} (finite : x.isFinite = true) :
    x.text.toList.length ≤ textLimit format := by
  have sign : (if x.negative then ['-'] else []).length ≤ 1 := by
    cases x.negative with
    | true => exact Nat.le_refl _
    | false => exact Nat.zero_le _
  rw [toList_text finite, List.length_append, textLimit]
  cases some : x.magnitude with
  | zero =>
      rw [isZero, some, decide_eq_true rfl, if_pos rfl]
      change _ + 1 ≤ _
      omega
  | succ magnitude =>
      have less := of_decide_eq_true finite
      obtain ⟨digits, point⟩ := Format.shortest_le (some ▸ less)
      have positional := (format.shortest (magnitude + 1)).length_positional_le
      rw [isZero, some, decide_eq_false (Nat.succ_ne_zero _), if_neg Bool.false_ne_true]
      omega

end ShardedGraph.Number
