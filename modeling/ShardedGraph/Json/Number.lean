import ShardedGraph.Number.Decimal

/-!
# Numbers in JSON text

A number is written with an optional minus sign, whole digits without a superfluous
leading zero, optional digits after a point and an optional power of ten.

**Reading as a double.** The digits are collected in a 64-bit significand. Once one more
digit would not fit, all further digits of that part are dropped: dropped whole digits
raise the power of ten, dropped fraction digits have no effect. The significand is then
rounded once and scaled by a power of ten, in steps of at most `10 ^ 308`. A result past
the largest finite double is refused.
-/

set_option autoImplicit false

namespace ShardedGraph.Json

open Number

/-- A number as it is written. -/
structure NumberText where
  negative : Bool
  whole : List Char
  /-- The digits after the point; none when there is no point. -/
  fraction : List Char
  /-- The sign and the digits of the power of ten. -/
  power : Option (Bool × List Char)
  deriving DecidableEq, Repr

namespace NumberText

/-! ## Whole numbers -/

/-- The number as a natural number below `bound`, if it is written as one. -/
def toNat? (bound : Nat) (n : NumberText) : Option Nat :=
  if n.negative || !n.fraction.isEmpty || n.power.isSome then none
  else
    let value := digitsValue n.whole
    if value < bound then some value else none

/-! ## Doubles -/

/-- One more than the largest significand. -/
def significandLimit : Nat := UInt64.size

/-- Appends digits to a significand while it fits; the digits that do not fit are left. -/
def collect (significand : Nat) : List Char → Nat × List Char
  | [] => (significand, [])
  | digit :: digits =>
      let next := 10 * significand + digitValue digit
      if next < significandLimit then collect next digits else (significand, digit :: digits)

/-- A power of ten as a double. -/
def powerOfTen (n : Nat) : Double := .ofNat (Nat.pow 10 n)

/-- The largest power of ten of a single step. -/
def stepPower : Nat := 308

/-- Divides by a power of ten, stopping at zero. -/
def scaleDown (x : Double) (power : Nat) : Double :=
  if power ≤ stepPower then x / powerOfTen power
  else if x.isZero then x
  else scaleDown (x / powerOfTen stepPower) (power - stepPower)
termination_by power
decreasing_by simp only [stepPower] at *; omega

/-- A significand times a power of ten; nothing when it is too large. -/
def scale? (significand : Nat) (power : Int) : Option Double :=
  let x : Double := .ofNat significand
  if power < 0 then some (scaleDown x power.natAbs)
  else if power ≤ stepPower then
    let product := x * powerOfTen power.toNat
    if product.isInfinite then none else some product
  else if x.isZero then some x
  else none

/-- The bound that powers of ten stay below before they count as huge. -/
def powerLimit : Nat := 2147483648

/-- The magnitude of the number as a double; nothing when it is too large. -/
def magnitude? (n : NumberText) : Option Double :=
  let (beforePoint, droppedWhole) := collect 0 n.whole
  if droppedWhole.isEmpty && n.fraction.isEmpty && n.power.isNone then
    some (.ofNat beforePoint)
  else
    let (significand, droppedFraction) := collect beforePoint n.fraction
    let shift : Int :=
      (droppedWhole.length : Int) - ((n.fraction.length - droppedFraction.length : Nat) : Int)
    match n.power with
    | none => scale? significand shift
    | some (negativePower, digits) =>
        let power := digitsValue digits
        if powerLimit ≤ power then
          if significand = 0 || negativePower then some 0 else none
        else scale? significand (if negativePower then shift - power else shift + power)

/-- The number as a double; nothing when it is too large. -/
def toDouble? (n : NumberText) : Option Double :=
  n.magnitude?.map fun x => if n.negative then -x else x

end NumberText

/-! ## Reading -/

/-- Digits at the beginning of a text, at least one, and the text after them. -/
def readDigits? (text : List Char) : Option (List Char × List Char) :=
  let digits := text.takeWhile Char.isDigit
  if digits.isEmpty then none else some (digits, text.dropWhile Char.isDigit)

/-- The optional fraction digits after the whole digits, and the text after them. -/
def readFraction? : List Char → Option (List Char × List Char)
  | '.' :: rest => readDigits? rest
  | text => some ([], text)

/-- The optional power of ten, and the text after it. -/
def readExponent? : List Char → Option (Option (Bool × List Char) × List Char)
  | mark :: rest =>
      if mark == 'e' || mark == 'E' then
        let (negative, unsigned) := splitSign rest
        (readDigits? unsigned).map fun (digits, after) => (some (negative, digits), after)
      else some (none, mark :: rest)
  | [] => some (none, [])

/-- A minus sign at the beginning of a text, and the text after it. -/
def splitMinus : List Char → Bool × List Char
  | '-' :: rest => (true, rest)
  | text => (false, text)

/-- A number at the beginning of a text, and the text after it. -/
def readNumber? (text : List Char) : Option (NumberText × List Char) := do
  let (negative, unsigned) := splitMinus text
  let (whole, afterWhole) ← readDigits? unsigned
  if whole.head? = some '0' && whole.length ≠ 1 then none
  else
    let (fraction, afterFraction) ← readFraction? afterWhole
    let (power, rest) ← readExponent? afterFraction
    return (⟨negative, whole, fraction, power⟩, rest)

/-! ## The rest is shorter -/

theorem length_of_readDigits? {text digits rest : List Char}
    (h : readDigits? text = some (digits, rest)) : rest.length < text.length := by
  simp only [readDigits?] at h
  split at h
  · simp at h
  · next nonempty =>
    simp only [Option.some.injEq, Prod.mk.injEq] at h
    have parts := congrArg List.length (List.takeWhile_append_dropWhile (p := Char.isDigit) (l := text))
    rw [List.length_append, h.2, h.1] at parts
    rw [h.1, List.isEmpty_iff] at nonempty
    have positive := List.length_pos_iff.mpr nonempty
    omega

theorem length_of_readFraction? {text fraction rest : List Char}
    (h : readFraction? text = some (fraction, rest)) : rest.length ≤ text.length := by
  unfold readFraction? at h
  split at h
  · have shorter := length_of_readDigits? h
    simp only [List.length_cons]
    omega
  · simp only [Option.some.injEq, Prod.mk.injEq] at h
    have equal := congrArg List.length h.2
    omega

theorem length_of_splitSign (text : List Char) :
    (splitSign text).2.length ≤ text.length := by
  unfold splitSign
  split <;> simp

theorem length_of_readExponent? {text rest : List Char} {power : Option (Bool × List Char)}
    (h : readExponent? text = some (power, rest)) : rest.length ≤ text.length := by
  unfold readExponent? at h
  split at h
  · next mark after =>
    split at h
    · simp only [Option.map_eq_some_iff] at h
      obtain ⟨⟨digits, left⟩, found, equal⟩ := h
      have shorter := length_of_readDigits? found
      have sign := length_of_splitSign after
      simp only [Prod.mk.injEq] at equal
      simp only [List.length_cons]
      rw [← equal.2]
      omega
    · simp only [Option.some.injEq, Prod.mk.injEq] at h
      have equal := congrArg List.length h.2
      omega
  · simp only [Option.some.injEq, Prod.mk.injEq] at h
    have equal := congrArg List.length h.2
    omega

theorem length_of_splitMinus (text : List Char) :
    (splitMinus text).2.length ≤ text.length := by
  unfold splitMinus
  split <;> simp

/-- A number takes at least one character. -/
theorem length_of_readNumber? {text rest : List Char} {n : NumberText}
    (h : readNumber? text = some (n, rest)) : rest.length < text.length := by
  simp only [readNumber?, Option.bind_eq_bind, Option.bind_eq_some_iff] at h
  obtain ⟨⟨whole, afterWhole⟩, foundWhole, h⟩ := h
  split at h
  · simp at h
  · simp only [Option.bind_eq_some_iff] at h
    obtain ⟨⟨fraction, afterFraction⟩, foundFraction, h⟩ := h
    obtain ⟨⟨power, left⟩, foundPower, h⟩ := h
    simp only [Option.pure_def, Option.some.injEq, Prod.mk.injEq] at h
    have sign := length_of_splitMinus text
    have first := length_of_readDigits? foundWhole
    have second := length_of_readFraction? foundFraction
    have third := length_of_readExponent? foundPower
    simp only at third
    rw [← h.2]
    omega

end ShardedGraph.Json
