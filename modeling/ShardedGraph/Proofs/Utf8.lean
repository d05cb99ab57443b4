import Mathlib.Data.List.Forall2
import ShardedGraph.Text.Utf8

/-!
# Texts that were written

The octets of a text are read back as this text, also where broken sequences would be replaced
(`Text.readUtf8Lossy_writeUtf8`): there are none. For the octets after the first one of a character
lie in the ranges that the first one allows (`Text.inside_utf8EncodeChar`), so the octets of a
character are one whole sequence, whatever follows them.
-/

set_option autoImplicit false

namespace ShardedGraph.Text

/-! ## One sequence -/

/-- An octet lies in a range. -/
def Inside (range : UInt8 × UInt8) (octet : UInt8) : Prop :=
  range.1 ≤ octet ∧ octet ≤ range.2

/-- Octets that lie in the ranges of a sequence end it. -/
theorem followSequence_of_inside {ranges : List (UInt8 × UInt8)} {tail : List UInt8}
    (inside : List.Forall₂ Inside ranges tail) (rest : List UInt8) (length : Nat) :
    followSequence ranges (tail ++ rest) length = .whole (tail.length + length) := by
  induction inside generalizing length with
  | nil => rw [List.nil_append, followSequence, List.length_nil, Nat.zero_add]
  | @cons range octet _ _ here _ ih =>
      have fits : range.1 ≤ octet ∧ octet ≤ range.2 := here
      rw [List.cons_append, followSequence, if_pos fits, ih, List.length_cons, Nat.add_right_comm]
      rfl

theorem toNat_ofNat_of_lt {n : Nat} (small : n < 256) : (UInt8.ofNat n).toNat = n :=
  UInt8.toNat_ofNat_of_lt' small

theorem inside_ofNat (low high : Nat) {n : Nat} (top : high < 256) (bounds : low ≤ n ∧ n ≤ high) :
    Inside (UInt8.ofNat low, UInt8.ofNat high) (UInt8.ofNat n) := by
  obtain ⟨least, most⟩ := bounds
  refine ⟨UInt8.le_iff_toNat_le.mpr ?_, UInt8.le_iff_toNat_le.mpr ?_⟩
  · rwa [toNat_ofNat_of_lt (by omega), toNat_ofNat_of_lt (by omega)]
  · rwa [toNat_ofNat_of_lt (by omega), toNat_ofNat_of_lt (by omega)]

/-- The ranges after a lead octet depend on its number. -/
theorem tailRanges?_ofNat {n : Nat} (small : n < 256) :
    tailRanges? (UInt8.ofNat n) =
      if n < 0x80 then some []
      else if n < 0xC2 then none
      else if n < 0xE0 then some [(0x80, 0xBF)]
      else if n = 0xE0 then some [(0xA0, 0xBF), (0x80, 0xBF)]
      else if n = 0xED then some [(0x80, 0x9F), (0x80, 0xBF)]
      else if n < 0xF0 then some [(0x80, 0xBF), (0x80, 0xBF)]
      else if n = 0xF0 then some [(0x90, 0xBF), (0x80, 0xBF), (0x80, 0xBF)]
      else if n < 0xF4 then some [(0x80, 0xBF), (0x80, 0xBF), (0x80, 0xBF)]
      else if n = 0xF4 then some [(0x80, 0x8F), (0x80, 0xBF), (0x80, 0xBF)]
      else none := by
  simp only [tailRanges?, UInt8.lt_iff_toNat_lt, ← UInt8.toNat_inj, toNat_ofNat_of_lt small]
  rfl

/-- The octets after the first one of a character lie in the ranges of the first one. The first of
them has a smaller range where the character would be written shorter, be a surrogate, or lie past
the last one. -/
theorem inside_utf8EncodeChar (c : Char) {lead : UInt8} {tail : List UInt8}
    (written : String.utf8EncodeChar c = lead :: tail) :
    ∃ ranges, tailRanges? lead = some ranges ∧ List.Forall₂ Inside ranges tail := by
  have valid : c.val.toNat < 0xD800 ∨ 0xDFFF < c.val.toNat ∧ c.val.toNat < 0x110000 := c.valid
  unfold String.utf8EncodeChar at written
  dsimp only at written
  generalize c.val.toNat = n at valid written
  have last : Inside (0x80, 0xBF) (UInt8.ofNat (n % 64 + 128)) :=
    inside_ofNat 0x80 0xBF (by omega) (by omega)
  have third : Inside (0x80, 0xBF) (UInt8.ofNat (n / 64 % 64 + 128)) :=
    inside_ofNat 0x80 0xBF (by omega) (by omega)
  split at written
  · cases written
    rw [tailRanges?_ofNat (by omega), if_pos (by omega)]
    exact ⟨_, rfl, .nil⟩
  split at written
  · cases written
    rw [tailRanges?_ofNat (by omega), if_neg (by omega), if_neg (by omega), if_pos (by omega)]
    exact ⟨_, rfl, .cons last .nil⟩
  split at written
  · cases written
    rw [tailRanges?_ofNat (by omega), if_neg (by omega), if_neg (by omega), if_neg (by omega)]
    split
    · exact ⟨_, rfl, .cons (inside_ofNat 0xA0 0xBF (by omega) (by omega)) (.cons last .nil)⟩
    split
    · exact ⟨_, rfl, .cons (inside_ofNat 0x80 0x9F (by omega) (by omega)) (.cons last .nil)⟩
    · rw [if_pos (by omega)]
      exact ⟨_, rfl, .cons third (.cons last .nil)⟩
  · cases written
    rw [tailRanges?_ofNat (by omega), if_neg (by omega), if_neg (by omega), if_neg (by omega),
      if_neg (by omega), if_neg (by omega), if_neg (by omega)]
    have others := List.Forall₂.cons third (.cons last .nil)
    split
    · exact ⟨_, rfl, .cons (inside_ofNat 0x90 0xBF (by omega) (by omega)) others⟩
    split
    · exact ⟨_, rfl, .cons (inside_ofNat 0x80 0xBF (by omega) (by omega)) others⟩
    · rw [if_pos (by omega)]
      exact ⟨_, rfl, .cons (inside_ofNat 0x80 0x8F (by omega) (by omega)) others⟩

/-! ## Texts -/

/-- The octets of a text are those of its characters. -/
theorem writeUtf8_eq (text : String) :
    writeUtf8 text = text.toList.flatMap String.utf8EncodeChar := by
  rw [writeUtf8, String.toUTF8_eq_toByteArray, ← String.utf8Encode_toList, List.utf8Encode]
  simp

theorem fromUTF8?_writeUtf8 (text : String) :
    String.fromUTF8? (writeUtf8 text).toByteArray = some text := by
  have same : (writeUtf8 text).toByteArray = text.toByteArray := by
    apply ByteArray.ext
    simp [writeUtf8]
  rw [same, String.fromUTF8?, dif_pos text.isValidUTF8]
  rfl

/-- The octets of a character are read as this character, and reading goes on behind them. -/
theorem readUtf8Lossy_utf8EncodeChar (c : Char) (rest : List UInt8) :
    readUtf8Lossy (String.utf8EncodeChar c ++ rest) = c :: readUtf8Lossy rest := by
  have whole : writeUtf8 (String.singleton c) = String.utf8EncodeChar c := by
    rw [writeUtf8_eq, String.toList_singleton, List.flatMap_singleton]
  have back := fromUTF8?_writeUtf8 (String.singleton c)
  rw [whole] at back
  cases written : String.utf8EncodeChar c with
  | nil => exact absurd written String.utf8EncodeChar_ne_nil
  | cons lead tail =>
      obtain ⟨ranges, known, inside⟩ := inside_utf8EncodeChar c written
      have follows : sequenceAt lead (tail ++ rest) = .whole (tail.length + 1) := by
        rw [sequenceAt, known]
        exact followSequence_of_inside inside rest 1
      have octets : (lead :: (tail ++ rest)).take (tail.length + 1) = lead :: tail := by
        rw [List.take_succ_cons, List.take_left]
      rw [written] at back
      rw [List.cons_append, readUtf8Lossy, follows]
      dsimp only
      rw [octets, back, Option.getD_some, String.toList_singleton, Nat.add_sub_cancel,
        List.drop_left, List.singleton_append]

/-- A text that was written is read as it is, and nothing of it is replaced. -/
theorem readUtf8Lossy_writeUtf8 (text : String) : readUtf8Lossy (writeUtf8 text) = text.toList := by
  rw [writeUtf8_eq]
  induction text.toList with
  | nil => rw [List.flatMap_nil, readUtf8Lossy]
  | cons c rest ih => rw [List.flatMap_cons, readUtf8Lossy_utf8EncodeChar, ih]

end ShardedGraph.Text
