import ShardedGraph.Number.Shortest

/-!
# Decimal text of numbers

Two texts are written. The plain text (`Binary.text`) is positional and never has
an exponent; whole values have no decimal point. The dump text (`Binary.dump`)
always shows that a value is not an integer type: a whole value keeps `.0`, and
values from `1e16` up or below `1e-4` have an exponent.
-/

set_option autoImplicit false

namespace ShardedGraph.Number

namespace DecimalDigits

/-- The digits before and after the decimal point of the positional text. -/
def parts (d : DecimalDigits) : List Char × List Char :=
  if d.point ≤ 0 then (['0'], List.replicate (-d.point).toNat '0' ++ d.digits)
  else
    let before := d.point.toNat
    (d.digits.take before ++ List.replicate (before - d.digits.length) '0', d.digits.drop before)

/-- The positional text, without a point when no digit follows it. -/
def positional (d : DecimalDigits) : String :=
  match d.parts with
  | (whole, []) => String.ofList whole
  | (whole, fraction) => String.ofList whole ++ "." ++ String.ofList fraction

/-- The positional text, with `.0` when no digit follows the point. -/
def positionalWithPoint (d : DecimalDigits) : String :=
  match d.parts with
  | (whole, []) => String.ofList whole ++ ".0"
  | (whole, fraction) => String.ofList whole ++ "." ++ String.ofList fraction

/-- The text with one digit before the point and a power of ten. -/
def scientific (d : DecimalDigits) : String :=
  let power := toString (d.point - 1)
  match d.digits with
  | [] => "0e0"
  | [first] => String.singleton first ++ "e" ++ power
  | first :: rest => String.singleton first ++ "." ++ String.ofList rest ++ "e" ++ power

end DecimalDigits

namespace Binary

variable {format : Format}

/-- A sign before the text of a magnitude, except before a value that is not a number. -/
def withSign (x : Binary format) (zeroText : String) (finiteText : DecimalDigits → String) : String :=
  if x.isNaN then "NaN"
  else
    let magnitude :=
      if x.isInfinite then "inf"
      else if x.isZero then zeroText
      else finiteText (format.shortest x.magnitude)
    if x.negative then "-" ++ magnitude else magnitude

/-- The plain text of a number. -/
def text (x : Binary format) : String := x.withSign "0" DecimalDigits.positional

/-- The dump text of a number. -/
def dump (x : Binary format) : String :=
  x.withSign "0.0" fun d =>
    if -3 ≤ d.point ∧ d.point ≤ 16 then d.positionalWithPoint else d.scientific

end Binary

end ShardedGraph.Number
