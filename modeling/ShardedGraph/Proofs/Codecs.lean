import ShardedGraph.Proofs.Octets
import ShardedGraph.Proofs.Utf8

/-!
# Exact codecs

A codec is exact about the values that fit when it reads these back, and when octets that it
reads a value from begin with the very octets of the value (`Codec.IsExact`). The first half says
that nothing is lost, the second that there is no other way to write a value, for all octets and
not only for those that were written. What is put together from exact codecs is exact: numbers,
pairs, lists and texts.

Two facts follow for every exact codec. No octets that end early are read
(`Codec.IsExact.truncated`), because what is read from them would be read from the whole as well.
And a list is not read when fewer octets are left than it should have entries
(`Codec.IsExact.refusesShort_list`), because every entry takes an octet.
-/

set_option autoImplicit false

namespace ShardedGraph

/-! ## Bits of numbers -/

namespace Number.Binary

variable {format : Format}

/-- Bits are known from the number that they make. -/
theorem toBits_ofBits {bits : Nat} (small : bits < 2 * Nat.pow 2 format.magnitudeBits) :
    (ofBits bits : Binary format).toBits = bits := by
  have positive : 0 < Nat.pow 2 format.magnitudeBits := Nat.two_pow_pos _
  have split := Nat.mod_add_div bits (Nat.pow 2 format.magnitudeBits)
  have sign : bits / Nat.pow 2 format.magnitudeBits < 2 := by
    rw [Nat.div_lt_iff_lt_mul positive]
    exact small
  unfold toBits ofBits ofMagnitude
  rw [Nat.shiftRight_eq_div_pow]
  change (if (bits / Nat.pow 2 format.magnitudeBits % 2 == 1) = true
    then Nat.pow 2 format.magnitudeBits + bits % Nat.pow 2 format.magnitudeBits
    else bits % Nat.pow 2 format.magnitudeBits) = bits
  generalize bits / Nat.pow 2 format.magnitudeBits = high at sign split ⊢
  rcases (by omega : high = 0 ∨ high = 1) with rfl | rfl
  · simpa using split
  · simpa [Nat.add_comm] using split

end Number.Binary

namespace Wire.Codec

variable {α β : Type} {codec : Codec α} {fits : α → Prop}

/-- A codec is exact about the values that fit: these are read back, and whatever octets a value
is read from begin with the octets of this value, which fits. -/
structure IsExact (codec : Codec α) (fits : α → Prop) : Prop where
  reads : ∀ value, fits value → codec.Reads value
  written : ∀ octets value rest, codec.decode octets = .ok (value, rest) →
    fits value ∧ octets = codec.encode value ++ rest

/-- What fits may be said in other words. -/
theorem IsExact.congr (exact : codec.IsExact fits) {fits' : α → Prop}
    (same : ∀ value, fits value ↔ fits' value) : codec.IsExact fits' where
  reads value fit := exact.reads value ((same value).mpr fit)
  written octets value rest run :=
    (exact.written octets value rest run).imp_left (same value).mp

/-! ## Numbers -/

/-- Octets are the digits of a number, and a number has no other octets. -/
theorem decodeNat_eq_ok {width n : Nat} {octets rest : List UInt8}
    (run : decodeNat width octets = .ok (n, rest)) :
    n < capacity width ∧ octets = encodeNat width n ++ rest := by
  induction width generalizing octets n with
  | zero =>
      cases run
      exact ⟨Nat.one_pos, rfl⟩
  | succ width ih =>
      cases octets with
      | nil => cases run
      | cons octet octets =>
          obtain ⟨⟨high, left⟩, read, same⟩ := except_bind_eq_ok.mp run
          cases same
          obtain ⟨small, rfl⟩ := ih read
          have digit := octet.toNat_lt
          refine ⟨?_, ?_⟩
          · rw [capacity]
            omega
          · have quotient : (octet.toNat + 256 * high) / 256 = high := by omega
            have first : UInt8.ofNat (octet.toNat + 256 * high) = octet := by
              apply UInt8.toNat_inj.mp
              rw [UInt8.toNat_ofNat']
              omega
            rw [encodeNat, quotient, first]
            rfl

theorem isExact_nat (width : Nat) : (nat width).IsExact (· < capacity width) where
  reads _ small := reads_nat small
  written _ _ _ run := decodeNat_eq_ok run

/-- A number takes its number of octets. -/
@[simp] theorem length_encode_nat (width n : Nat) : ((nat width).encode n).length = width := by
  change (encodeNat width n).length = width
  induction width generalizing n with
  | zero => rfl
  | succ width ih => rw [encodeNat, List.length_cons, ih]

/-- Values that stand for others one to one are written as these. -/
theorem IsExact.imap (exact : codec.IsExact fits) {forth : α → β} {back : β → α}
    (left : ∀ value, forth (back value) = value)
    (right : ∀ value, fits value → back (forth value) = value) :
    (codec.imap forth back).IsExact fun value => fits (back value) where
  reads value fit := (exact.reads _ fit).imap (left value)
  written := by
    intro octets value rest run
    obtain ⟨⟨inner, left⟩, read, same⟩ := except_map_eq_ok.mp run
    cases same
    obtain ⟨fit, rfl⟩ := exact.written octets inner rest read
    change fits (back (forth inner)) ∧ _ = codec.encode (back (forth inner)) ++ _
    rw [right inner fit]
    exact ⟨fit, rfl⟩

/-- Every word is written in one way. -/
theorem isExact_word : word.IsExact fun _ => True := by
  refine ((isExact_nat 8).imap (fun _ => UInt64.ofNat_toNat) fun n small => ?_).congr ?_
  · exact UInt64.toNat_ofNat_of_lt small
  · intro value
    exact iff_true_intro value.toNat_lt

theorem isExact_shortWord : shortWord.IsExact fun _ => True := by
  refine ((isExact_nat 2).imap (fun _ => UInt16.ofNat_toNat) fun n small => ?_).congr ?_
  · exact UInt16.toNat_ofNat_of_lt small
  · intro value
    exact iff_true_intro value.toNat_lt

/-- Signed numbers are written as the words with the same bits. -/
theorem isExact_signed : signed.IsExact fun _ => True := by
  refine ((isExact_nat 4).imap (fun value => ?_) fun n small => ?_).congr ?_
  · simp
  · rw [UInt32.toUInt32_toInt32]
    exact UInt32.toNat_ofNat_of_lt small
  · intro value
    exact iff_true_intro value.toUInt32.toNat_lt

/-- Every pattern of bits is a number of its own, whether or not it stands for a quantity. -/
theorem isExact_single : single.IsExact fun _ => True := by
  refine ((isExact_nat 4).imap (fun value => ?_) fun n small => ?_).congr ?_
  · exact value.ofBits_toBits
  · exact Number.Binary.toBits_ofBits small
  · intro value
    exact iff_true_intro value.toBits_lt

/-! ## Pairs and lists -/

theorem IsExact.pair {other : Codec β} {fits' : β → Prop} (exact : codec.IsExact fits)
    (exact' : other.IsExact fits') :
    (codec.pair other).IsExact fun value => fits value.1 ∧ fits' value.2 where
  reads _ fit := (exact.reads _ fit.1).pair (exact'.reads _ fit.2)
  written := by
    intro octets value rest run
    obtain ⟨⟨first, between⟩, read, run⟩ := except_bind_eq_ok.mp run
    obtain ⟨⟨second, left⟩, read', same⟩ := except_bind_eq_ok.mp run
    cases same
    obtain ⟨fit, rfl⟩ := exact.written octets first between read
    obtain ⟨fit', rfl⟩ := exact'.written between second rest read'
    exact ⟨⟨fit, fit'⟩, (List.append_assoc _ _ _).symm⟩

/-- Items that are read one after the other were written one after the other. -/
theorem IsExact.decodeItems_eq_ok (exact : codec.IsExact fits) {length : Nat}
    {octets rest : List UInt8} {values : List α}
    (run : decodeItems codec length octets = .ok (values, rest)) :
    values.length = length ∧ (∀ value ∈ values, fits value) ∧
      octets = values.flatMap codec.encode ++ rest := by
  induction length generalizing octets values with
  | zero =>
      cases run
      exact ⟨rfl, by simp, rfl⟩
  | succ length ih =>
      obtain ⟨⟨value, between⟩, read, run⟩ := except_bind_eq_ok.mp run
      obtain ⟨⟨others, left⟩, rest', same⟩ := except_bind_eq_ok.mp run
      cases same
      obtain ⟨fit, rfl⟩ := exact.written octets value between read
      obtain ⟨count, all, rfl⟩ := ih rest'
      refine ⟨congrArg Nat.succ count, ?_, ?_⟩
      · intro other member
        rcases List.mem_cons.mp member with rfl | later
        · exact fit
        · exact all other later
      · rw [List.flatMap_cons, List.append_assoc]

/-- A list fits when its length does and all its items do. -/
theorem IsExact.list (exact : codec.IsExact fits) :
    (list codec).IsExact fun values =>
      values.length < UInt64.size ∧ ∀ value ∈ values, fits value where
  reads _ fit := reads_list fit.1 fun value member => exact.reads value (fit.2 value member)
  written := by
    intro octets values rest run
    obtain ⟨⟨length, between⟩, read, items⟩ := except_bind_eq_ok.mp run
    obtain ⟨small, written⟩ := (isExact_nat 8).written octets length between read
    obtain ⟨count, all, rfl⟩ := exact.decodeItems_eq_ok items
    rw [written, ← count, ← List.append_assoc]
    exact ⟨⟨count ▸ small, all⟩, rfl⟩

/-- A list whose items all fit does so when its length does. -/
theorem IsExact.list_of_true (exact : codec.IsExact fun _ => True) :
    (Codec.list codec).IsExact fun values => values.length < UInt64.size :=
  exact.list.congr fun _ => ⟨And.left, fun small => ⟨small, fun _ _ => trivial⟩⟩

/-! ## Texts -/

/-- A text is known from its octets. -/
theorem readUtf8_writeUtf8 (value : String) :
    Text.readUtf8 (Text.writeUtf8 value) = .ok value := by
  rw [Text.readUtf8, Text.fromUTF8?_writeUtf8]

/-- Octets that are a text are the octets of this text. -/
theorem eq_writeUtf8_of_readUtf8 {octets : List UInt8} {value : String}
    (run : Text.readUtf8 octets = .ok value) : octets = Text.writeUtf8 value := by
  unfold Text.readUtf8 String.fromUTF8? at run
  split at run
  · next found =>
    cases run
    split at found
    · cases found
      simp [Text.writeUtf8, String.fromUTF8]
    · cases found
  · cases run

/-- A text of a number of octets is read from as many octets, which are its own. -/
theorem decodeText_eq_ok {length : Nat} {octets rest : List UInt8} {value : String}
    (run : decodeText length octets = .ok (value, rest)) :
    (Text.writeUtf8 value).length = length ∧ octets = Text.writeUtf8 value ++ rest := by
  unfold decodeText at run
  split at run
  · cases run
  · next enough =>
    split at run
    · next found read =>
      cases run
      rw [← eq_writeUtf8_of_readUtf8 read, List.length_take, List.take_append_drop]
      exact ⟨Nat.min_eq_left (Nat.le_of_not_lt enough), rfl⟩
    · cases run

theorem isExact_text :
    text.IsExact fun value => (Text.writeUtf8 value).length < UInt64.size where
  reads := by
    intro value small rest
    change ((nat 8).decode (((nat 8).encode _ ++ Text.writeUtf8 value) ++ rest) >>= _) = _
    rw [List.append_assoc]
    refine ((reads_nat small).bind _ _).trans ?_
    change decodeText (Text.writeUtf8 value).length (Text.writeUtf8 value ++ rest) = _
    have enough : ¬(Text.writeUtf8 value ++ rest).length < (Text.writeUtf8 value).length := by simp
    rw [decodeText, if_neg enough, List.take_left, List.drop_left, readUtf8_writeUtf8]
  written := by
    intro octets value rest run
    obtain ⟨⟨length, between⟩, read, taken⟩ := except_bind_eq_ok.mp run
    obtain ⟨small, written⟩ := (isExact_nat 8).written octets length between read
    obtain ⟨count, whole⟩ := decodeText_eq_ok taken
    rw [written, ← count, whole, ← List.append_assoc]
    exact ⟨count ▸ small, rfl⟩

/-! ## Octets that are refused -/

/-- What is written cannot be read without its end. -/
theorem IsExact.truncated (exact : codec.IsExact fits) {value : α} (fit : fits value)
    {front back : List UInt8} (split : codec.encode value = front ++ back) (missing : back ≠ []) :
    ∃ fault, codec.decode front = .error fault := by
  cases run : codec.decode front with
  | error fault => exact ⟨fault, rfl⟩
  | ok read =>
      obtain ⟨other, rest⟩ := read
      obtain ⟨fit', rfl⟩ := exact.written front other rest run
      -- The whole is read as the value and, because it begins with its octets, as the other one.
      have whole := exact.reads value fit []
      rw [List.append_nil, split, List.append_assoc, exact.reads other fit'] at whole
      obtain ⟨_, none⟩ := Prod.mk.inj (Except.ok.inj whole)
      exact absurd (List.append_eq_nil_iff.mp none).2 missing

/-- Items that each take an octet take at least as many octets as they are. -/
theorem length_le_length_flatMap (filled : ∀ value, codec.encode value ≠ []) (values : List α) :
    values.length ≤ (values.flatMap codec.encode).length := by
  induction values with
  | nil => exact Nat.le_refl 0
  | cons value values ih =>
      have first := List.length_pos_of_ne_nil (filled value)
      rw [List.length_cons, List.flatMap_cons, List.length_append]
      omega

/-- The octets of a list are those of its length and then at least as many as this length. -/
theorem length_add_le_encode_list (filled : ∀ value, codec.encode value ≠ []) (values : List α) :
    values.length + 8 ≤ ((Codec.list codec).encode values).length := by
  have items := length_le_length_flatMap filled values
  change _ ≤ ((nat 8).encode values.length ++ values.flatMap codec.encode).length
  rw [List.length_append, length_encode_nat]
  omega

/-- The octets of an item are among those of the list. -/
theorem length_encode_le_of_mem {value : α} {values : List α} (member : value ∈ values) :
    (codec.encode value).length ≤ ((Codec.list codec).encode values).length := by
  obtain ⟨front, back, rfl⟩ := List.append_of_mem member
  change _ ≤ (_ ++ (front ++ value :: back).flatMap codec.encode).length
  simp only [List.flatMap_append, List.flatMap_cons, List.length_append]
  omega

/-- What begins with a length is not read when fewer octets are left than this. -/
def RefusesShort (codec : Codec α) : Prop :=
  ∀ length < UInt64.size, ∀ octets : List UInt8, octets.length < length →
    ∃ fault, codec.decode ((nat 8).encode length ++ octets) = .error fault

/-- A list is not read when more items are announced than octets are left. -/
theorem IsExact.refusesShort_list (exact : codec.IsExact fits)
    (filled : ∀ value, codec.encode value ≠ []) : (Codec.list codec).RefusesShort := by
  intro length small octets short
  have announced : (Codec.list codec).decode ((nat 8).encode length ++ octets) =
      decodeItems codec length octets := (reads_nat small).bind octets _
  cases run : decodeItems codec length octets with
  | error fault => exact ⟨fault, announced.trans run⟩
  | ok read =>
      obtain ⟨values, rest⟩ := read
      obtain ⟨count, -, rfl⟩ := exact.decodeItems_eq_ok run
      have enough := length_le_length_flatMap filled values
      rw [List.length_append] at short
      omega

theorem refusesShort_text : text.RefusesShort := by
  intro length small octets short
  refine ⟨.textPastEnd, ((reads_nat small).bind octets _).trans ?_⟩
  exact if_pos short

theorem RefusesShort.pair (refuses : codec.RefusesShort) (other : Codec β) :
    (codec.pair other).RefusesShort := by
  intro length small octets short
  obtain ⟨fault, refused⟩ := refuses length small octets short
  refine ⟨fault, ?_⟩
  change (codec.decode _ >>= _) = _
  rw [refused]
  rfl

theorem RefusesShort.imap (refuses : codec.RefusesShort) (forth : α → β) (back : β → α) :
    (codec.imap forth back).RefusesShort := by
  intro length small octets short
  obtain ⟨fault, refused⟩ := refuses length small octets short
  refine ⟨fault, ?_⟩
  change (codec.decode _).map _ = _
  rw [refused]
  rfl

/-- Octets that are no text are not read as one. -/
theorem decode_text_of_notText {octets : List UInt8} (small : octets.length < UInt64.size)
    {fault : Text.Utf8Fault} (broken : Text.readUtf8 octets = .error fault) (rest : List UInt8) :
    text.decode ((nat 8).encode octets.length ++ (octets ++ rest)) = .error (.notText fault) := by
  refine ((reads_nat small).bind (octets ++ rest) _).trans ?_
  have enough : ¬(octets ++ rest).length < octets.length := by simp
  change decodeText octets.length (octets ++ rest) = _
  rw [decodeText, if_neg enough, List.take_left, broken]

/-- The octets of a value are not the beginning of those of another one. -/
theorem IsExact.encode_append_inj (exact : codec.IsExact fits) {value other : α} (fit : fits value)
    (fit' : fits other) {rest rest' : List UInt8}
    (same : codec.encode value ++ rest = codec.encode other ++ rest') :
    value = other ∧ rest = rest' := by
  have read := exact.reads value fit rest
  rw [same, exact.reads other fit'] at read
  exact Prod.mk.inj (Except.ok.inj read.symm)

end Wire.Codec

end ShardedGraph
