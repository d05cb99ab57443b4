import ShardedGraph.Number.Binary

/-!
# Reading decimal text

A decimal text is a sign and either one of the words `inf`, `infinity`, `nan` in
any case, or digits with an optional point and an optional power of ten; at least
one digit stands before the power. It reads as the number nearest to its exact
value. Natural numbers are read separately: an optional plus sign and digits, below
a bound.
-/

set_option autoImplicit false

namespace ShardedGraph.Number

/-! ## Natural numbers -/

/-- The value of a decimal digit. -/
def digitValue (c : Char) : Nat := c.toNat - '0'.toNat

/-- The value of a list of decimal digits, most significant first. -/
def digitsValue (digits : List Char) : Nat :=
  digits.foldl (fun value c => 10 * value + digitValue c) 0

/-- The text without one leading plus sign. -/
def dropPlus : List Char → List Char
  | '+' :: rest => rest
  | text => text

/-- Reads a natural number below `bound`: an optional plus sign, then digits. -/
def readNat? (bound : Nat) (text : List Char) : Option Nat :=
  let digits := dropPlus text
  if digits.isEmpty || !digits.all Char.isDigit then none
  else
    let value := digitsValue digits
    if value < bound then some value else none

/-! ## Decimal text -/

/-- What a decimal text says before it is rounded. -/
inductive Decimal where
  /-- `± significand × 10 ^ exponent`. -/
  | finite (negative : Bool) (significand : Nat) (exponent : Int)
  | infinity (negative : Bool)
  | notANumber (negative : Bool)
  deriving DecidableEq, Repr

/-- A sign, by default positive, and the text after it. -/
def splitSign : List Char → Bool × List Char
  | '-' :: rest => (true, rest)
  | '+' :: rest => (false, rest)
  | text => (false, text)

/-- Reads the power of ten that ends a decimal text; no text is the power zero. -/
def readPower? : List Char → Option Int
  | [] => some 0
  | mark :: rest =>
      if mark == 'e' || mark == 'E' then
        let (negative, digits) := splitSign rest
        if digits.isEmpty || !digits.all Char.isDigit then none
        else some (if negative then -(digitsValue digits : Int) else (digitsValue digits : Int))
      else none

namespace Decimal

/-- Reads the digits, the point and the power of ten of an unsigned decimal text. -/
def readDigits? (negative : Bool) (text : List Char) : Option Decimal :=
  let whole := text.takeWhile Char.isDigit
  let afterWhole := text.dropWhile Char.isDigit
  let (fraction, rest) :=
    match afterWhole with
    | '.' :: more => (more.takeWhile Char.isDigit, more.dropWhile Char.isDigit)
    | _ => ([], afterWhole)
  if whole.isEmpty && fraction.isEmpty then none
  else
    (readPower? rest).map fun power =>
      finite negative (digitsValue (whole ++ fraction)) (power - fraction.length)

/-- Reads a decimal text. -/
def read? (text : List Char) : Option Decimal :=
  let (negative, unsigned) := splitSign text
  let word := unsigned.map Char.toLower
  if word = "inf".toList ∨ word = "infinity".toList then some (infinity negative)
  else if word = "nan".toList then some (notANumber negative)
  else readDigits? negative unsigned

/-- The number of a format nearest to a decimal. Powers of ten far outside the format
are decided without being computed. -/
def toBinary {format : Format} : Decimal → Binary format
  | infinity negative => .infinity negative
  | notANumber negative => .notANumber negative
  | finite negative significand exponent =>
      let point := ((Nat.toDigits 10 significand).length : Int) + exponent
      if significand = 0 then .zero negative
      else if (Nat.pow 2 format.exponentBits) < point then .infinity negative
      else if point < -(format.unitExponent + 2 : Nat) then .zero negative
      else
        .ofRatio negative ((significand * Nat.pow 10 exponent.toNat) <<< format.unitExponent)
          (Nat.pow 10 (-exponent).toNat)

end Decimal

/-- The number that a decimal text reads as. -/
def Binary.read? {format : Format} (text : List Char) : Option (Binary format) :=
  (Decimal.read? text).map Decimal.toBinary

end ShardedGraph.Number
