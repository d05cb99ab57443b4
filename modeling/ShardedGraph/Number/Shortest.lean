import ShardedGraph.Number.Binary

/-!
# Shortest decimal digits

The decimal text of a number has the fewest digits that read back as that number,
and among those the digits nearest to its exact value. The reals that read back
as a magnitude form the interval between the midpoints to its two neighbors; the
ends belong to it exactly when the magnitude is even, because a half goes to the
even neighbor.

For each count of digits the two points of the decimal grid around the value are
tried. If any point of a grid lies in the interval then one of these two does, so
the first count with a hit is the least.
-/

set_option autoImplicit false

namespace ShardedGraph.Number

/-- The decimal `0.d₁d₂… × 10 ^ point`. -/
structure DecimalDigits where
  /-- The digits, most significant first, without trailing zeros. -/
  digits : List Char
  /-- Where the decimal point stands, counted from before the first digit. -/
  point : Int
  deriving DecidableEq, Repr

/-- The least `k` with `numerator / denominator < 10 ^ k`. -/
def decimalPoint (numerator denominator : Nat) : Int :=
  if denominator ≤ numerator then
    ((Nat.toDigits 10 (numerator / denominator)).length : Int)
  else
    1 - ((Nat.toDigits 10 ((denominator - 1) / numerator)).length : Int)

namespace Format

variable (format : Format)

/-- The decimal of `count` digits that reads back as `magnitude` and is nearest to
it, if there is one. Of two that are equally near it is the larger. -/
def digitsOfCount? (magnitude : Nat) (point : Int) (count : Nat) : Option Nat :=
  let value := format.units magnitude
  let low := format.units (magnitude - 1) + value
  let high := value + format.units (magnitude + 1)
  let one := Nat.pow 2 format.unitExponent
  let up := Nat.pow 10 (count - point).toNat
  let down := Nat.pow 10 (point - count).toNat
  let below := value * up / (one * down)
  let rest := value * up % (one * down)
  let readsBack (candidate : Nat) : Bool :=
    let middle := 2 * candidate * one * down
    if magnitude % 2 = 0 then decide (low * up ≤ middle ∧ middle ≤ high * up)
    else decide (low * up < middle ∧ middle < high * up)
  match readsBack below, readsBack (below + 1) with
  | true, true => if 2 * rest < one * down then some below else some (below + 1)
  | true, false => some below
  | false, true => some (below + 1)
  | false, false => none

/-- The fewest digits that read back as a finite magnitude above zero. -/
def shortest (magnitude : Nat) : DecimalDigits :=
  let point := decimalPoint (format.units magnitude) (Nat.pow 2 format.unitExponent)
  let most := format.fractionBits / 3 + 2
  let found := (List.range most).findSome? fun fewer =>
    (format.digitsOfCount? magnitude point (fewer + 1)).map fun digits => (digits, fewer + 1)
  let (value, count) := found.getD (0, 1)
  let digits := Nat.toDigits 10 value
  { digits := (digits.reverse.dropWhile (· == '0')).reverse
    point := point + digits.length - count }

end Format

end ShardedGraph.Number
