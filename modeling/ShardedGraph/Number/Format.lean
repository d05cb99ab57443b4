/-!
# Binary floating-point formats

A format is given by the widths of its fraction and exponent fields. The finite
magnitudes of a format are whole numbers of *units*, where the unit is the least
positive value the format has. Reading a magnitude is therefore a natural number
(`Format.units`), and arithmetic on finite values is exact arithmetic on natural
numbers followed by one rounding (`Format.round`).

**Rounding.** A quotient of natural numbers goes to the nearest magnitude, and a
quotient half way between two magnitudes goes to the one with an even last bit.
A quotient past the largest finite magnitude goes to infinity. The rounded
magnitude never leaves the format (`Format.round_lt`).
-/

set_option autoImplicit false

namespace ShardedGraph.Number

/-- The field widths of a binary floating-point format. -/
structure Format where
  /-- Bits after the leading one. -/
  fractionBits : Nat
  /-- Bits of the biased exponent. -/
  exponentBits : Nat
  deriving DecidableEq, Repr

namespace Format

/-- The format of 32-bit numbers. -/
def single : Format := ⟨23, 8⟩

/-- The format of 64-bit numbers. -/
def double : Format := ⟨52, 11⟩

variable (format : Format)

/-- The width of a magnitude: everything but the sign. -/
def magnitudeBits : Nat := format.exponentBits + format.fractionBits

/-- One is `2 ^ unitExponent` units. -/
def unitExponent : Nat := Nat.pow 2 (format.exponentBits - 1) - 2 + format.fractionBits

/-- The magnitude of infinity; every larger magnitude is not a number. -/
def infinity : Nat := (Nat.pow 2 format.exponentBits - 1) * Nat.pow 2 format.fractionBits

/-- The value of a finite magnitude, in units of the least positive value. -/
def units (magnitude : Nat) : Nat :=
  let field := magnitude >>> format.fractionBits
  let fraction := magnitude % Nat.pow 2 format.fractionBits
  if field = 0 then fraction
  else (Nat.pow 2 format.fractionBits + fraction) <<< (field - 1)

/-- The quotient of two natural numbers, a half going to the even neighbor. -/
def divideToEven (numerator denominator : Nat) : Nat :=
  let below := numerator / denominator
  let rest := numerator % denominator
  if denominator < 2 * rest ∨ (2 * rest = denominator ∧ below % 2 = 1) then below + 1 else below

/-- The magnitude nearest to `numerator / denominator` units. -/
def round (numerator denominator : Nat) : Nat :=
  let shift := Nat.log2 (numerator / denominator) - format.fractionBits
  min (shift * Nat.pow 2 format.fractionBits + divideToEven numerator (denominator <<< shift))
    format.infinity

theorem infinity_lt : format.infinity < Nat.pow 2 format.magnitudeBits := by
  have positive : 0 < Nat.pow 2 format.fractionBits := Nat.two_pow_pos _
  have below : Nat.pow 2 format.exponentBits - 1 < Nat.pow 2 format.exponentBits :=
    Nat.sub_lt (Nat.two_pow_pos _) Nat.one_pos
  have whole : Nat.pow 2 format.magnitudeBits =
      Nat.pow 2 format.exponentBits * Nat.pow 2 format.fractionBits := Nat.pow_add 2 _ _
  rw [whole]
  exact Nat.mul_lt_mul_of_pos_right below positive

/-- A rounded magnitude is at most infinity. -/
theorem round_le_infinity (numerator denominator : Nat) :
    format.round numerator denominator ≤ format.infinity :=
  Nat.min_le_right _ _

/-- A rounded magnitude fits its field. -/
theorem round_lt (numerator denominator : Nat) :
    format.round numerator denominator < Nat.pow 2 format.magnitudeBits :=
  Nat.lt_of_le_of_lt (format.round_le_infinity numerator denominator) format.infinity_lt

end Format

end ShardedGraph.Number
