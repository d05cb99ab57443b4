import ShardedGraph.Number.Format

/-!
# Floating-point numbers

A number of a format is a sign and a magnitude, so that every bit pattern is a
number and two numbers are equal exactly when their bits are. Addition,
subtraction, multiplication and division are exact on units and round once; the
order compares signed magnitudes, and a value that is not a number is unordered.

**Values that are not numbers.** A sum keeps the payload of its first operand that
is not a number, marked quiet; an undefined result (`inf - inf`, `0 / 0`) is the
negative quiet value with an empty payload.
-/

set_option autoImplicit false

namespace ShardedGraph.Number

/-- A number of the format `format`, as its sign and its magnitude. -/
structure Binary (format : Format) where
  /-- The sign bit. -/
  negative : Bool
  /-- The exponent and fraction fields read as one natural number. -/
  magnitude : Nat
  /-- The magnitude fits its fields. -/
  fits : magnitude < Nat.pow 2 format.magnitudeBits
  deriving DecidableEq, Repr

/-- A 32-bit number. -/
abbrev Single : Type := Binary .single

/-- A 64-bit number. -/
abbrev Double : Type := Binary .double

namespace Binary

variable {format : Format}

/-! ## Bits -/

/-- The number with the given sign and the low bits of `magnitude`. -/
def ofMagnitude (negative : Bool) (magnitude : Nat) : Binary format :=
  ⟨negative, magnitude % Nat.pow 2 format.magnitudeBits, Nat.mod_lt _ (Nat.two_pow_pos _)⟩

/-- The number whose bits are the low bits of `bits`. -/
def ofBits (bits : Nat) : Binary format :=
  ofMagnitude (bits >>> format.magnitudeBits % 2 == 1) bits

/-- The sign bit over the magnitude. -/
def toBits (x : Binary format) : Nat :=
  if x.negative then Nat.pow 2 format.magnitudeBits + x.magnitude else x.magnitude

/-! ## Classes of numbers -/

def isNaN (x : Binary format) : Bool := decide (format.infinity < x.magnitude)

def isInfinite (x : Binary format) : Bool := decide (x.magnitude = format.infinity)

def isFinite (x : Binary format) : Bool := decide (x.magnitude < format.infinity)

/-- Zero of either sign. -/
def isZero (x : Binary format) : Bool := decide (x.magnitude = 0)

/-- The magnitude of a finite number, in units. -/
def units (x : Binary format) : Nat := format.units x.magnitude

/-- A finite number as a whole number of units. -/
def signedUnits (x : Binary format) : Int :=
  if x.negative then -(x.units : Int) else (x.units : Int)

/-! ## Constants and rounding -/

/-- The number of the given sign nearest to `numerator / denominator` units. -/
def ofRatio (negative : Bool) (numerator denominator : Nat) : Binary format :=
  ⟨negative, format.round numerator denominator, format.round_lt numerator denominator⟩

/-- Zero of the given sign. -/
def zero (negative : Bool) : Binary format := ⟨negative, 0, Nat.two_pow_pos _⟩

/-- Infinity of the given sign. -/
def infinity (negative : Bool) : Binary format :=
  ⟨negative, format.infinity, format.infinity_lt⟩

/-- The quiet value that is not a number, with an empty payload. -/
def notANumber (negative : Bool) : Binary format :=
  ofMagnitude negative (format.infinity + Nat.pow 2 (format.fractionBits - 1))

/-- A value that is not a number, marked quiet. -/
def quieted (x : Binary format) : Binary format :=
  ofMagnitude x.negative (x.magnitude ||| Nat.pow 2 (format.fractionBits - 1))

/-- The number nearest to a natural number. -/
def ofNat (n : Nat) : Binary format := ofRatio false (n <<< format.unitExponent) 1

/-- The number nearest to `numerator / 2 ^ scale`. -/
def ofDyadic (numerator scale : Nat) : Binary format :=
  ofRatio false (numerator <<< format.unitExponent) (Nat.pow 2 scale)

instance : Zero (Binary format) := ⟨zero false⟩
instance : One (Binary format) := ⟨ofNat 1⟩
instance : NatCast (Binary format) := ⟨ofNat⟩
instance : Inhabited (Binary format) := ⟨zero false⟩

/-! ## Arithmetic -/

/-- The number with the opposite sign. -/
def neg (x : Binary format) : Binary format := { x with negative := !x.negative }

/-- The sum, exact on units and rounded once. -/
def add (x y : Binary format) : Binary format :=
  if x.isNaN then x.quieted
  else if y.isNaN then y.quieted
  else if x.isInfinite then
    if y.isInfinite && x.negative != y.negative then notANumber true else x
  else if y.isInfinite then y
  else
    let total := x.signedUnits + y.signedUnits
    if total = 0 then zero (x.negative && y.negative)
    else ofRatio (decide (total < 0)) total.natAbs 1

/-- The product, exact on units and rounded once. -/
def mul (x y : Binary format) : Binary format :=
  let negative := x.negative != y.negative
  if x.isNaN then x.quieted
  else if y.isNaN then y.quieted
  else if x.isInfinite || y.isInfinite then
    if x.isZero || y.isZero then notANumber true else infinity negative
  else ofRatio negative (x.units * y.units) (Nat.pow 2 format.unitExponent)

/-- The quotient, rounded once. -/
def div (x y : Binary format) : Binary format :=
  let negative := x.negative != y.negative
  if x.isNaN then x.quieted
  else if y.isNaN then y.quieted
  else if x.isInfinite then
    if y.isInfinite then notANumber true else infinity negative
  else if y.isInfinite then zero negative
  else if y.isZero then
    if x.isZero then notANumber true else infinity negative
  else ofRatio negative (x.units <<< format.unitExponent) y.units

instance : Neg (Binary format) := ⟨neg⟩
instance : Add (Binary format) := ⟨add⟩
instance : Sub (Binary format) := ⟨fun x y => x.add y.neg⟩
instance : Mul (Binary format) := ⟨mul⟩
instance : Div (Binary format) := ⟨div⟩

/-! ## Order -/

/-- The signed magnitude, by which numbers are ordered. -/
def rank (x : Binary format) : Int :=
  if x.negative then -(x.magnitude : Int) else (x.magnitude : Int)

/-- Smaller in value; nothing compares to a value that is not a number. -/
def lt (x y : Binary format) : Bool := !x.isNaN && !y.isNaN && decide (x.rank < y.rank)

/-- At most as large in value; nothing compares to a value that is not a number. -/
def le (x y : Binary format) : Bool := !x.isNaN && !y.isNaN && decide (x.rank ≤ y.rank)

instance : LT (Binary format) := ⟨fun x y => x.lt y = true⟩
instance : LE (Binary format) := ⟨fun x y => x.le y = true⟩
instance : DecidableLT (Binary format) := fun x y => inferInstanceAs (Decidable (x.lt y = true))
instance : DecidableLE (Binary format) := fun x y => inferInstanceAs (Decidable (x.le y = true))

/-! ## Whole numbers -/

/-- The whole number nearest to the value, a half going away from zero. A negative
value or a value that is not a number gives zero. -/
def roundToNat (x : Binary format) : Nat :=
  if x.negative || x.isNaN then 0
  else (2 * x.units + Nat.pow 2 format.unitExponent) >>> (format.unitExponent + 1)

/-- The largest whole number below the value, at most `limit`. A negative value or a
value that is not a number gives zero. -/
def floorToNat (limit : Nat) (x : Binary format) : Nat :=
  if x.negative || x.isNaN then 0
  else if x.isInfinite then limit
  else min limit (x.units >>> format.unitExponent)

/-! ## Changing the format -/

/-- The number of another format nearest to `x`. A payload keeps its leading bits. -/
def convert {source : Format} (target : Format) (x : Binary source) : Binary target :=
  if x.isNaN then
    let payload := x.magnitude - source.infinity
    (ofMagnitude x.negative
      (target.infinity + (payload <<< target.fractionBits) >>> source.fractionBits)).quieted
  else if x.isInfinite then infinity x.negative
  else ofRatio x.negative (x.units <<< target.unitExponent) (Nat.pow 2 source.unitExponent)

end Binary

/-- A 32-bit number as a 64-bit number; nothing is lost. -/
def Single.widen (x : Single) : Double := x.convert .double

/-- The 32-bit number nearest to a 64-bit number. -/
def Double.narrow (x : Double) : Single := x.convert .single

end ShardedGraph.Number
