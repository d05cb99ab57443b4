import ShardedGraph.Proofs.Decimals
import ShardedGraph.Proofs.Words

/-!
# Which texts are numbers

A natural number is written as digits, with one plus before them or none (`NaturalText`). A decimal
number is written as a sign or none, followed by one of three words in any case or by digits with a
point or none and a power of ten or none (`DecimalText`). Exactly these texts are read
(`readNat?_eq_some_iff`, `Decimal.read?_eq_some_iff`).

The parts of a text are found from left to right, each as long as it can be. That nothing is missed
by this is because no part can begin with what continues the part before it: a point and the mark of
a power are no digits, and neither a word nor a digit nor a point is a sign.

**Values.** A decimal gives the nearest number of a format (`Decimal.nearest`), and so does reading,
which does not compute powers of ten far outside of the format (`Decimal.toBinary_eq_nearest`).

A number has no blanks in it, so it is one word.
-/

set_option autoImplicit false

namespace ShardedGraph.Number

open Text (IsWord takeWhile_append_of_stops dropWhile_append_of_stops stops_dropWhile)

/-! ## Texts of numbers -/

/-- At least one digit, and nothing else. -/
def IsDigits (text : List Char) : Prop := text ≠ [] ∧ ∀ c ∈ text, c.isDigit = true

/-- The text of a natural number. -/
inductive NaturalText : List Char → Nat → Prop
  | digits {digits} (isDigits : IsDigits digits) : NaturalText digits (digitsValue digits)
  | plus {digits} (isDigits : IsDigits digits) : NaturalText ('+' :: digits) (digitsValue digits)

/-- The text of a sign, which is negative or not; no text is positive. -/
inductive SignText : List Char → Bool → Prop
  | none : SignText [] false
  | plus : SignText ['+'] false
  | minus : SignText ['-'] true

/-- The text of a power of ten; no text is the power zero. -/
inductive PowerText : List Char → Int → Prop
  | none : PowerText [] 0
  | some {mark sign digits negative} (marked : mark = 'e' ∨ mark = 'E')
      (signed : SignText sign negative) (isDigits : IsDigits digits) :
      PowerText (mark :: (sign ++ digits))
        (if negative then -(digitsValue digits : Int) else (digitsValue digits : Int))

/-- A point and the digits after it, or neither. -/
inductive PointText : List Char → List Char → Prop
  | none : PointText [] []
  | some {fraction : List Char} (digits : ∀ c ∈ fraction, c.isDigit = true) :
      PointText ('.' :: fraction) fraction

/-- The text of a decimal number after its sign. -/
inductive UnsignedText (negative : Bool) : List Char → Decimal → Prop
  | infinity {text} (word : text.map Char.toLower = "inf".toList ∨
      text.map Char.toLower = "infinity".toList) : UnsignedText negative text (.infinity negative)
  | notANumber {text} (word : text.map Char.toLower = "nan".toList) :
      UnsignedText negative text (.notANumber negative)
  | finite {whole pointed fraction power exponent} (digits : ∀ c ∈ whole, c.isDigit = true)
      (point : PointText pointed fraction) (some : whole ++ fraction ≠ [])
      (scaled : PowerText power exponent) :
      UnsignedText negative (whole ++ (pointed ++ power))
        (.finite negative (digitsValue (whole ++ fraction)) (exponent - fraction.length))

/-- The text of a decimal number. -/
inductive DecimalText : List Char → Decimal → Prop
  | signed {sign unsigned negative decimal} (signed : SignText sign negative)
      (number : UnsignedText negative unsigned decimal) : DecimalText (sign ++ unsigned) decimal

/-! ## Natural numbers -/

theorem isDigits_iff {text : List Char} :
    (text.isEmpty || !text.all Char.isDigit) = false ↔ IsDigits text := by
  rw [Bool.or_eq_false_iff, List.isEmpty_eq_false_iff, Bool.not_eq_false', List.all_eq_true]
  rfl

theorem not_sign_of_isDigit {c : Char} (digit : c.isDigit = true) : c ≠ '+' ∧ c ≠ '-' := by
  constructor
  · rintro rfl
    cases digit
  · rintro rfl
    cases digit

/-- Digits begin with neither sign. -/
theorem IsDigits.not_sign {text : List Char} (isDigits : IsDigits text) :
    ∀ c ∈ text.head?, c ≠ '+' ∧ c ≠ '-' := fun c here =>
  not_sign_of_isDigit (isDigits.2 c (List.mem_of_mem_head? here))

theorem dropPlus_of_not_plus {text : List Char} (unsigned : ∀ c ∈ text.head?, c ≠ '+') :
    dropPlus text = text := by
  rw [dropPlus]
  rintro rest rfl
  exact unsigned '+' rfl rfl

theorem isDigits_of_readNat? {bound n : Nat} {text : List Char}
    (found : readNat? bound text = some n) : IsDigits (dropPlus text) := by
  rw [readNat?] at found
  split at found
  · cases found
  · next accepted => exact isDigits_iff.mp (Bool.eq_false_iff.mpr accepted)

theorem readNat?_of_isDigits {text : List Char} (isDigits : IsDigits (dropPlus text))
    (bound : Nat) :
    readNat? bound text =
      if digitsValue (dropPlus text) < bound then some (digitsValue (dropPlus text)) else none := by
  rw [readNat?]
  exact if_neg (Bool.eq_false_iff.mp (isDigits_iff.mpr isDigits))

/-- Exactly the texts of natural numbers are read, as long as the number is below the bound. -/
theorem readNat?_eq_some_iff {bound n : Nat} {text : List Char} :
    readNat? bound text = some n ↔ NaturalText text n ∧ n < bound := by
  constructor
  · intro found
    have isDigits := isDigits_of_readNat? found
    rw [readNat?_of_isDigits isDigits] at found
    split at found
    · next below =>
      cases found
      refine ⟨?_, below⟩
      cases text with
      | nil => exact .digits isDigits
      | cons first rest =>
          by_cases plus : first = '+'
          · subst plus
            exact .plus isDigits
          · have same : dropPlus (first :: rest) = first :: rest :=
              dropPlus_of_not_plus fun c here => Option.some.inj here ▸ plus
            rw [same] at isDigits ⊢
            exact .digits isDigits
    · cases found
  · rintro ⟨number, below⟩
    cases number with
    | digits isDigits =>
        have same : dropPlus text = text :=
          dropPlus_of_not_plus fun c here => (isDigits.not_sign c here).1
        rw [readNat?_of_isDigits (same.symm ▸ isDigits), same, if_pos below]
    | @plus digits isDigits =>
        have read := @readNat?_of_isDigits ('+' :: digits) isDigits bound
        exact read.trans (if_pos below)

theorem NaturalText.begins {text : List Char} {n : Nat} (natural : NaturalText text n) :
    ∀ c ∈ text.head?, c.isDigit = true ∨ c = '+' := by
  intro c here
  cases natural with
  | digits isDigits => exact .inl (isDigits.2 c (List.mem_of_mem_head? here))
  | plus isDigits =>
      cases here
      exact .inr rfl

/-- The digits of a number are a text of it. -/
theorem naturalText_toDigits (n : Nat) : NaturalText (Nat.toDigits 10 n) n := by
  have number := NaturalText.digits
    (show IsDigits (Nat.toDigits 10 n) from ⟨Nat.toDigits_ne_nil, fun c => isDigit_of_mem_toDigits⟩)
  rwa [digitsValue_toDigits] at number

/-! ## Signs -/

/-- A text is a sign and what follows it. -/
theorem signText_splitSign (text : List Char) :
    ∃ sign, SignText sign (splitSign text).1 ∧ text = sign ++ (splitSign text).2 := by
  unfold splitSign
  split
  · exact ⟨['-'], .minus, rfl⟩
  · exact ⟨['+'], .plus, rfl⟩
  · exact ⟨[], .none, rfl⟩

/-- A sign is split from what does not begin with one. -/
theorem splitSign_append {sign rest : List Char} {negative : Bool} (signed : SignText sign negative)
    (unsigned : ∀ c ∈ rest.head?, c ≠ '+' ∧ c ≠ '-') :
    splitSign (sign ++ rest) = (negative, rest) := by
  cases signed with
  | none =>
      rw [List.nil_append, splitSign]
      · rintro more rfl
        exact (unsigned '-' rfl).2 rfl
      · rintro more rfl
        exact (unsigned '+' rfl).1 rfl
  | plus => rfl
  | minus => rfl

/-! ## Powers of ten -/

theorem readPower?_eq_some_iff {text : List Char} {power : Int} :
    readPower? text = some power ↔ PowerText text power := by
  constructor
  · intro found
    cases text with
    | nil =>
        cases found
        exact .none
    | cons mark rest =>
        obtain ⟨sign, signed, whole⟩ := signText_splitSign rest
        rw [readPower?] at found
        generalize splitSign rest = parts at found signed whole
        subst whole
        dsimp only at found
        split at found
        · next marked =>
          split at found
          · cases found
          · next accepted =>
            cases found
            refine .some (by simpa using marked) signed (isDigits_iff.mp ?_)
            rwa [Bool.not_eq_true] at accepted
        · cases found
  · intro number
    cases number with
    | none => rfl
    | @some mark sign digits negative marked signed isDigits =>
        have test : (mark == 'e' || mark == 'E') = true := by simpa using marked
        rw [readPower?, if_pos test, splitSign_append signed isDigits.not_sign]
        dsimp only
        rw [isDigits_iff.mpr isDigits, if_neg Bool.false_ne_true]

/-- A power begins with its mark, which is neither a digit nor a point. -/
theorem PowerText.not_digit {text : List Char} {power : Int} (scaled : PowerText text power) :
    ∀ c ∈ text.head?, c.isDigit = false ∧ c ≠ '.' := by
  intro c here
  cases scaled with
  | none => cases here
  | some marked signed isDigits =>
      cases here
      rcases marked with rfl | rfl
      · exact ⟨rfl, by decide⟩
      · exact ⟨rfl, by decide⟩

/-! ## Points -/

/-- The digits after a point that begins the text, and the text after them. -/
def splitPoint : List Char → List Char × List Char
  | '.' :: more => (more.takeWhile Char.isDigit, more.dropWhile Char.isDigit)
  | text => ([], text)

theorem pointText_splitPoint (text : List Char) :
    ∃ pointed, PointText pointed (splitPoint text).1 ∧ text = pointed ++ (splitPoint text).2 := by
  unfold splitPoint
  split
  · next more =>
    refine ⟨_, .some fun c member => List.mem_takeWhile_imp member, ?_⟩
    rw [List.cons_append, List.takeWhile_append_dropWhile]
  · exact ⟨[], .none, rfl⟩

theorem splitPoint_append {pointed fraction rest : List Char} (point : PointText pointed fraction)
    (stops : ∀ c ∈ rest.head?, c.isDigit = false ∧ c ≠ '.') :
    splitPoint (pointed ++ rest) = (fraction, rest) := by
  cases point with
  | none =>
      rw [List.nil_append, splitPoint]
      rintro more rfl
      exact (stops '.' rfl).2 rfl
  | some digits =>
      have stops := fun c here => (stops c here).1
      rw [List.cons_append, splitPoint, takeWhile_append_of_stops digits stops,
        dropWhile_append_of_stops digits stops]

/-! ## Decimal numbers -/

namespace Decimal

theorem readDigits?_eq (negative : Bool) (text : List Char) :
    readDigits? negative text =
      let whole := text.takeWhile Char.isDigit
      let parts := splitPoint (text.dropWhile Char.isDigit)
      if whole.isEmpty && parts.1.isEmpty then none
      else (readPower? parts.2).map fun power =>
        finite negative (digitsValue (whole ++ parts.1)) (power - parts.1.length) := by
  rw [readDigits?]
  generalize text.dropWhile Char.isDigit = rest
  cases rest with
  | nil => rfl
  | cons first more =>
      by_cases point : first = '.'
      · subst point
        rfl
      · simp [splitPoint, point]

/-- What is read as digits is the text of a number. -/
theorem unsignedText_of_readDigits? {negative : Bool} {text : List Char} {decimal : Decimal}
    (found : readDigits? negative text = some decimal) : UnsignedText negative text decimal := by
  have digits : ∀ c ∈ text.takeWhile Char.isDigit, c.isDigit = true := fun c member =>
    List.mem_takeWhile_imp member
  have whole : text = text.takeWhile Char.isDigit ++ text.dropWhile Char.isDigit :=
    List.takeWhile_append_dropWhile.symm
  obtain ⟨pointed, point, behind⟩ := pointText_splitPoint (text.dropWhile Char.isDigit)
  rw [readDigits?_eq] at found
  dsimp only at found
  generalize text.takeWhile Char.isDigit = first, splitPoint (text.dropWhile Char.isDigit) = parts
    at found digits whole point behind
  split at found
  · cases found
  · next begun =>
    obtain ⟨power, read, rfl⟩ := Option.map_eq_some_iff.mp found
    rw [whole, behind]
    refine .finite digits point (fun nothing => begun ?_) (readPower?_eq_some_iff.mp read)
    obtain ⟨none, none'⟩ := List.append_eq_nil_iff.mp nothing
    rw [none, none']
    rfl

/-- Digits with a point and a power are read. -/
theorem readDigits?_of_text {negative : Bool} {whole pointed fraction power : List Char}
    {exponent : Int} (digits : ∀ c ∈ whole, c.isDigit = true) (point : PointText pointed fraction)
    (begun : whole ++ fraction ≠ []) (scaled : PowerText power exponent) :
    readDigits? negative (whole ++ (pointed ++ power)) =
      some (.finite negative (digitsValue (whole ++ fraction)) (exponent - fraction.length)) := by
  have begun : ¬(whole.isEmpty && fraction.isEmpty) = true := fun nothing => begun <| by
    rw [Bool.and_eq_true, List.isEmpty_iff, List.isEmpty_iff] at nothing
    rw [nothing.1, nothing.2]
    rfl
  have stops : ∀ c ∈ (pointed ++ power).head?, c.isDigit = false := by
    intro c here
    cases point with
    | none => exact (scaled.not_digit c here).1
    | some fractional =>
        cases here
        rfl
  rw [readDigits?_eq, takeWhile_append_of_stops digits stops,
    dropWhile_append_of_stops digits stops, splitPoint_append point scaled.not_digit]
  dsimp only
  rw [if_neg begun, readPower?_eq_some_iff.mpr scaled]
  rfl

end Decimal

/-! ## Beginnings -/

theorem toLower_of_isDigit {c : Char} (digit : c.isDigit = true) : c.toLower = c := by
  rw [Char.isDigit, Bool.and_eq_true, decide_eq_true_iff, decide_eq_true_iff] at digit
  exact dif_neg fun upper => absurd (UInt32.le_trans upper.1 digit.2) (by decide)

section Finite

variable {whole pointed fraction : List Char} (digits : ∀ c ∈ whole, c.isDigit = true)
  (point : PointText pointed fraction) (begun : whole ++ fraction ≠ []) (power : List Char)

include digits point begun

/-- A text of digits, a point and a power begins with a digit or the point. -/
theorem head_of_finite {c : Char} {rest : List Char}
    (same : whole ++ (pointed ++ power) = c :: rest) : c.isDigit = true ∨ c = '.' := by
  cases whole with
  | cons first others =>
      cases same
      exact .inl (digits c List.mem_cons_self)
  | nil =>
      cases point with
      | none => exact absurd rfl begun
      | some fractional =>
          cases same
          exact .inr rfl

/-- Such a text is none of the words. -/
theorem ne_word_of_finite {letter : Char} (other : letter.isDigit = false ∧ letter ≠ '.')
    (word : List Char) : (whole ++ (pointed ++ power)).map Char.toLower ≠ letter :: word := by
  intro spelled
  cases text : whole ++ (pointed ++ power) with
  | nil =>
      rw [text] at spelled
      cases spelled
  | cons c rest =>
      have first := head_of_finite digits point begun power text
      have same : c.toLower = c := by
        rcases first with digit | rfl
        · exact toLower_of_isDigit digit
        · rfl
      rw [text, List.map_cons, same] at spelled
      rw [(List.cons.inj spelled).1] at first
      rcases first with digit | dot
      · exact Bool.false_ne_true (other.1.symm.trans digit)
      · exact other.2 dot

end Finite

/-- A number begins with no sign after its sign. -/
theorem UnsignedText.not_sign {negative : Bool} {text : List Char} {decimal : Decimal}
    (number : UnsignedText negative text decimal) : ∀ c ∈ text.head?, c ≠ '+' ∧ c ≠ '-' := by
  have word : ∀ {letter : Char} {word : List Char}, '+'.toLower ≠ letter → '-'.toLower ≠ letter →
      text.map Char.toLower = letter :: word → ∀ c ∈ text.head?, c ≠ '+' ∧ c ≠ '-' := by
    intro letter word plus minus spelled c here
    have first : c.toLower ∈ (text.map Char.toLower).head? := by
      rw [List.head?_map, Option.mem_def.mp here]
      rfl
    rw [spelled] at first
    exact ⟨fun sign => plus (sign ▸ (Option.some.inj first).symm),
      fun sign => minus (sign ▸ (Option.some.inj first).symm)⟩
  cases number with
  | infinity spelled =>
      rcases spelled with spelled | spelled
      · exact word (by decide) (by decide) spelled
      · exact word (by decide) (by decide) spelled
  | notANumber spelled => exact word (by decide) (by decide) spelled
  | @finite whole pointed fraction power exponent digits point begun scaled =>
      intro c here
      obtain ⟨rest, text⟩ := List.head?_eq_some_iff.mp here
      rcases head_of_finite digits point begun power text with digit | rfl
      · exact not_sign_of_isDigit digit
      · exact ⟨by decide, by decide⟩

/-- Exactly the texts of decimal numbers are read. -/
theorem Decimal.read?_eq_some_iff {text : List Char} {decimal : Decimal} :
    read? text = some decimal ↔ DecimalText text decimal := by
  constructor
  · intro found
    obtain ⟨sign, signed, whole⟩ := signText_splitSign text
    rw [read?] at found
    generalize splitSign text = parts at found signed whole
    subst whole
    refine .signed signed ?_
    dsimp only at found
    split at found
    · next word =>
      cases found
      exact .infinity word
    · split at found
      · next word =>
        cases found
        exact .notANumber word
      · exact unsignedText_of_readDigits? found
  · intro number
    cases number with
    | @signed sign unsigned negative decimal signed number =>
        rw [read?, splitSign_append signed number.not_sign]
        dsimp only
        cases number with
        | infinity word => rw [if_pos word]
        | notANumber word =>
            rw [if_neg (by rw [word]; decide), if_pos word]
        | @finite whole pointed fraction power exponent digits point begun scaled =>
            have other := @ne_word_of_finite whole pointed fraction digits point begun power
            rw [if_neg, if_neg]
            · exact readDigits?_of_text digits point begun scaled
            · exact other ⟨rfl, by decide⟩ _
            · exact not_or.mpr ⟨other ⟨rfl, by decide⟩ _, other ⟨rfl, by decide⟩ _⟩

/-! ## Numbers are words -/

/-- A blank is no letter, so it is blank in small letters too. -/
theorem isBlank_toLower {c : Char} (blank : Text.isBlank c = true) :
    Text.isBlank c.toLower = true := by
  have same : c.toLower = c := by
    refine dif_neg fun upper => ?_
    have low : 65 ≤ c.toNat := upper.1
    have high : c.toNat ≤ 90 := upper.2
    simp only [Text.isBlank, Bool.or_eq_true, Bool.and_eq_true, decide_eq_true_eq,
      beq_iff_eq] at blank
    omega
  rwa [same]

theorem SignText.visible {text : List Char} {negative : Bool} (signed : SignText text negative) :
    ∀ c ∈ text, Text.isBlank c = false := by
  cases signed with
  | none => exact fun c member => absurd member List.not_mem_nil
  | plus => exact List.forall_mem_singleton.mpr rfl
  | minus => exact List.forall_mem_singleton.mpr rfl

theorem IsDigits.isWord {text : List Char} (isDigits : IsDigits text) : IsWord text :=
  ⟨isDigits.1, fun c member => Text.isBlank_of_isDigit (isDigits.2 c member)⟩

theorem NaturalText.isWord {text : List Char} {n : Nat} (number : NaturalText text n) :
    IsWord text := by
  cases number with
  | digits isDigits => exact isDigits.isWord
  | plus isDigits =>
      exact ⟨List.cons_ne_nil _ _, List.forall_mem_cons.mpr ⟨rfl, isDigits.isWord.2⟩⟩

theorem PowerText.visible {text : List Char} {power : Int} (scaled : PowerText text power) :
    ∀ c ∈ text, Text.isBlank c = false := by
  cases scaled with
  | none => exact fun c member => absurd member List.not_mem_nil
  | some marked signed isDigits =>
      refine List.forall_mem_cons.mpr ⟨?_, List.forall_mem_append.mpr
        ⟨signed.visible, isDigits.isWord.2⟩⟩
      rcases marked with rfl | rfl
      · rfl
      · rfl

theorem PointText.visible {text fraction : List Char} (point : PointText text fraction) :
    ∀ c ∈ text, Text.isBlank c = false := by
  cases point with
  | none => exact fun c member => absurd member List.not_mem_nil
  | some digits =>
      exact List.forall_mem_cons.mpr ⟨rfl, fun c member => Text.isBlank_of_isDigit (digits c member)⟩

theorem UnsignedText.isWord {negative : Bool} {text : List Char} {decimal : Decimal}
    (number : UnsignedText negative text decimal) : IsWord text := by
  have word : ∀ {word : List Char}, IsWord word → text.map Char.toLower = word → IsWord text := by
    rintro _ isWord rfl
    refine ⟨fun nothing => isWord.1 (by rw [nothing]; rfl), fun c member => ?_⟩
    refine Bool.eq_false_iff.mpr fun blank => ?_
    have visible := isWord.2 _ (List.mem_map_of_mem member)
    exact Bool.false_ne_true (visible.symm.trans (isBlank_toLower blank))
  cases number with
  | infinity spelled =>
      rcases spelled with spelled | spelled
      · exact word (by decide) spelled
      · exact word (by decide) spelled
  | notANumber spelled => exact word (by decide) spelled
  | finite digits point begun scaled =>
      refine ⟨fun nothing => begun ?_, List.forall_mem_append.mpr ⟨fun c member =>
        Text.isBlank_of_isDigit (digits c member), List.forall_mem_append.mpr
          ⟨point.visible, scaled.visible⟩⟩⟩
      obtain ⟨rfl, rest⟩ := List.append_eq_nil_iff.mp nothing
      obtain ⟨rfl, -⟩ := List.append_eq_nil_iff.mp rest
      cases point
      rfl

theorem DecimalText.isWord {text : List Char} {decimal : Decimal} (number : DecimalText text decimal) :
    IsWord text := by
  cases number with
  | signed signed number =>
      exact ⟨List.append_ne_nil_of_right_ne_nil _ number.isWord.1,
        List.forall_mem_append.mpr ⟨signed.visible, number.isWord.2⟩⟩

/-! ## Values -/

section Values

variable {format : Format} {significand : Nat} {exponent : Int}

/-- A decimal whose point lies far to the right is infinite in the format. -/
theorem round_of_large (some : significand ≠ 0)
    (large : (2 ^ format.exponentBits : Nat) <
      ((Nat.toDigits 10 significand).length : Int) + exponent) :
    format.round ((significand * 10 ^ exponent.toNat) <<< format.unitExponent)
      (10 ^ (-exponent).toNat) = format.infinity := by
  have scale := Nat.pow_pos (n := (-exponent).toNat) (show 0 < 10 by decide)
  have least := pow_le_of_length_toDigits (Nat.pos_of_ne_zero some)
  refine Nat.le_antisymm (format.round_le_infinity _ _)
    (Format.le_round_of_le scale (Nat.le_refl _) ?_)
  rw [Nat.shiftLeft_eq]
  have places : 2 ^ format.exponentBits + (-exponent).toNat ≤
      (Nat.toDigits 10 significand).length - 1 + exponent.toNat := by omega
  calc format.units format.infinity * 10 ^ (-exponent).toNat
      ≤ 2 ^ format.unitExponent * 2 ^ 2 ^ format.exponentBits * 10 ^ (-exponent).toNat :=
        Nat.mul_le_mul_right _ format.units_infinity_le
    _ ≤ 2 ^ format.unitExponent * 10 ^ 2 ^ format.exponentBits * 10 ^ (-exponent).toNat :=
        Nat.mul_le_mul_right _ (Nat.mul_le_mul_left _ (Nat.pow_le_pow_left (by decide) _))
    _ = 2 ^ format.unitExponent * 10 ^ (2 ^ format.exponentBits + (-exponent).toNat) := by
        rw [Nat.mul_assoc, ← Nat.pow_add]
    _ ≤ 2 ^ format.unitExponent *
          10 ^ ((Nat.toDigits 10 significand).length - 1 + exponent.toNat) :=
        Nat.mul_le_mul_left _ (Nat.pow_le_pow_right (by decide) places)
    _ = 10 ^ ((Nat.toDigits 10 significand).length - 1) * 10 ^ exponent.toNat *
          2 ^ format.unitExponent := by rw [Nat.pow_add, Nat.mul_comm]
    _ ≤ significand * 10 ^ exponent.toNat * 2 ^ format.unitExponent :=
        Nat.mul_le_mul_right _ (Nat.mul_le_mul_right _ least)

/-- A decimal whose point lies far to the left is nothing in the format. -/
theorem round_of_small (wide : 0 < format.fractionBits)
    (small : ((Nat.toDigits 10 significand).length : Int) + exponent <
      -(format.unitExponent + 2 : Nat)) :
    format.round ((significand * 10 ^ exponent.toNat) <<< format.unitExponent)
      (10 ^ (-exponent).toNat) = 0 := by
  have scale := Nat.pow_pos (n := (-exponent).toNat) (show 0 < 10 by decide)
  have most := lt_pow_length_toDigits significand
  refine Nat.le_zero.mp (Format.round_le wide scale ?_)
  rw [Nat.shiftLeft_eq, Format.units_zero, Nat.zero_add]
  have places : (Nat.toDigits 10 significand).length + exponent.toNat +
      (format.unitExponent + 1) ≤ (-exponent).toNat := by omega
  have unit : 1 ≤ format.units 1 := Nat.zero_lt_of_lt (@Format.units_lt_units_succ format 0)
  calc 2 * (significand * 10 ^ exponent.toNat * 2 ^ format.unitExponent)
      = significand * (10 ^ exponent.toNat * 2 ^ (format.unitExponent + 1)) := by ring
    _ < 10 ^ (Nat.toDigits 10 significand).length *
          (10 ^ exponent.toNat * 2 ^ (format.unitExponent + 1)) :=
        Nat.mul_lt_mul_of_pos_right most
          (Nat.mul_pos (Nat.pow_pos (by decide)) (Nat.two_pow_pos _))
    _ ≤ 10 ^ (Nat.toDigits 10 significand).length *
          (10 ^ exponent.toNat * 10 ^ (format.unitExponent + 1)) :=
        Nat.mul_le_mul_left _ (Nat.mul_le_mul_left _ (Nat.pow_le_pow_left (by decide) _))
    _ = 10 ^ ((Nat.toDigits 10 significand).length + exponent.toNat +
          (format.unitExponent + 1)) := by ring
    _ ≤ 10 ^ (-exponent).toNat := Nat.pow_le_pow_right (by decide) places
    _ ≤ format.units 1 * 10 ^ (-exponent).toNat := Nat.le_mul_of_pos_left _ unit

end Values

/-- The number of a format nearest to a decimal, whose value is a fraction of units. -/
def Decimal.nearest {format : Format} : Decimal → Binary format
  | infinity negative => .infinity negative
  | notANumber negative => .notANumber negative
  | finite negative significand exponent =>
      .ofRatio negative ((significand * 10 ^ exponent.toNat) <<< format.unitExponent)
        (10 ^ (-exponent).toNat)

/-- **The value of a decimal text.** Powers of ten that are decided without being computed are
decided as they would be: a decimal gives the nearest number, however far its point is from its
digits. -/
theorem Decimal.toBinary_eq_nearest {format : Format} (wide : 0 < format.fractionBits)
    (decimal : Decimal) : (decimal.toBinary : Binary format) = decimal.nearest := by
  cases decimal with
  | infinity negative => rfl
  | notANumber negative => rfl
  | finite negative significand exponent =>
      have same : ∀ {magnitude : Nat} (fits : magnitude < Nat.pow 2 format.magnitudeBits),
          format.round ((significand * 10 ^ exponent.toNat) <<< format.unitExponent)
            (10 ^ (-exponent).toNat) = magnitude →
          (⟨negative, magnitude, fits⟩ : Binary format) =
            (finite negative significand exponent).nearest := by
        rintro _ fits rfl
        rfl
      rw [toBinary]
      split
      · next nothing =>
        refine same _ ?_
        rw [nothing, Nat.zero_mul, Nat.zero_shiftLeft]
        exact format.round_zero (Nat.pow_pos (by decide))
      · next some =>
        split
        · next large => exact same _ (round_of_large some large)
        · split
          · next small => exact same _ (round_of_small wide small)
          · rfl

/-- What is read as a number of a format is the text of a decimal to which the number is nearest. -/
theorem Binary.read?_eq_some_iff {format : Format} (wide : 0 < format.fractionBits)
    {text : List Char} {x : Binary format} :
    read? text = some x ↔ ∃ decimal, DecimalText text decimal ∧ decimal.nearest = x := by
  simp only [read?, Option.map_eq_some_iff, Decimal.read?_eq_some_iff,
    Decimal.toBinary_eq_nearest wide]

/-! ## Texts of numbers are read back -/

theorem pointText_pointed {fraction : List Char} (digits : ∀ c ∈ fraction, c.isDigit = true) :
    PointText (DecimalDigits.pointed fraction) fraction := by
  rw [DecimalDigits.pointed]
  split
  · next none =>
    rw [none]
    exact .none
  · exact .some digits

/-- The text of a number is the text of a decimal that gives the number. -/
theorem Binary.exists_decimalText {format : Format} (wide : 0 < format.fractionBits)
    {x : Binary format} (number : x.isNaN = false) :
    ∃ decimal, DecimalText x.text.toList decimal ∧ decimal.toBinary = x := by
  have signed : SignText (if x.negative then ['-'] else []) x.negative := by
    cases x.negative with
    | true => exact .minus
    | false => exact .none
  by_cases finite : x.isFinite = true
  · obtain ⟨whole, fraction, begun, digits, text, gives⟩ := exists_text wide finite
    obtain ⟨ofWhole, ofFraction⟩ := List.forall_mem_append.mp digits
    have unsigned : UnsignedText x.negative _ _ := .finite ofWhole (pointText_pointed ofFraction)
      (List.append_ne_nil_of_left_ne_nil begun _) .none
    rw [List.append_nil, Int.zero_sub] at unsigned
    refine ⟨_, ?_, gives⟩
    rw [text]
    exact .signed signed unsigned
  · have infinite : x.magnitude = format.infinity := by
      have := of_decide_eq_false number
      have := of_decide_eq_false (Bool.not_eq_true _ ▸ finite)
      omega
    have text : x.text.toList = (if x.negative then ['-'] else []) ++ "inf".toList := by
      have bounded : x.isInfinite = true := decide_eq_true infinite
      rw [text, withSign, number, bounded]
      cases x.negative with
      | true => exact String.toList_append
      | false => rfl
    refine ⟨.infinity x.negative, ?_, ?_⟩
    · rw [text]
      exact .signed signed (.infinity (.inl (by decide)))
    · obtain ⟨negative, magnitude, fits⟩ := x
      cases infinite
      rfl

/-- **The text of a number is read as the number.** A value that is not a number has no such text. -/
theorem Binary.read?_text {format : Format} (wide : 0 < format.fractionBits) {x : Binary format}
    (number : x.isNaN = false) : read? x.text.toList = some x := by
  obtain ⟨decimal, text, gives⟩ := exists_decimalText wide number
  rw [read?, Decimal.read?_eq_some_iff.mpr text, Option.map_some, gives]

end ShardedGraph.Number
