import ShardedGraph.Proofs.Running
import ShardedGraph.Transport.InProcess

/-!
# Messages survive their octets

A codec reads a value back when, given the octets of the value and any octets after them, it
reads exactly the value and leaves exactly the octets after (`Codec.Reads`). Because the octets
after are arbitrary, values that are read back one by one are read back in pairs, in lists and
in messages.

Numbers are read back when they are below the capacity of their octets, and lists when their
lengths fit in 64 bits; nothing else can go wrong. So a request or a reply whose lists fit
arrives as it was sent (`Transport.throughWire_eq_ok`).
-/

set_option autoImplicit false

namespace ShardedGraph

/-! ## Bits of numbers -/

namespace Number.Binary

variable {format : Format}

theorem toBits_lt (x : Binary format) : x.toBits < 2 * Nat.pow 2 format.magnitudeBits := by
  have fits := x.fits
  unfold toBits
  split
  · omega
  · omega

/-- A number is known from its bits. -/
theorem ofBits_toBits (x : Binary format) : ofBits x.toBits = x := by
  have positive : 0 < Nat.pow 2 format.magnitudeBits := Nat.two_pow_pos _
  have sign : x.toBits >>> format.magnitudeBits = if x.negative then 1 else 0 := by
    rw [Nat.shiftRight_eq_div_pow]
    unfold toBits
    split
    · exact (Nat.add_div_left _ positive).trans (congrArg Nat.succ (Nat.div_eq_of_lt x.fits))
    · exact Nat.div_eq_of_lt x.fits
  have magnitude : x.toBits % Nat.pow 2 format.magnitudeBits = x.magnitude := by
    unfold toBits
    split
    · rw [Nat.add_mod_left, Nat.mod_eq_of_lt x.fits]
    · exact Nat.mod_eq_of_lt x.fits
  rcases x with ⟨negative, low, fits⟩
  simp only [ofBits, ofMagnitude, sign, magnitude]
  cases negative with
  | true => rfl
  | false => rfl

end Number.Binary

namespace Wire

open Number

namespace Codec

variable {α β : Type}

/-- A codec reads a value back, whatever comes after it. -/
def Reads (codec : Codec α) (value : α) : Prop :=
  ∀ rest, codec.decode (codec.encode value ++ rest) = .ok (value, rest)

/-! ## Numbers -/

/-- How many numbers a number of octets can stand for. -/
def capacity : Nat → Nat
  | 0 => 1
  | width + 1 => 256 * capacity width

theorem reads_nat {width n : Nat} (small : n < capacity width) : (nat width).Reads n := by
  induction width generalizing n with
  | zero =>
      intro rest
      rw [Nat.lt_one_iff.mp small]
      rfl
  | succ width ih =>
      intro rest
      have high : n / 256 < capacity width := Nat.div_lt_of_lt_mul small
      have low : (UInt8.ofNat n).toNat = n % 256 := UInt8.toNat_ofNat
      have read : decodeNat width (encodeNat width (n / 256) ++ rest) = .ok (n / 256, rest) :=
        ih high rest
      change decodeNat (width + 1) (UInt8.ofNat n :: (encodeNat width (n / 256) ++ rest)) = _
      rw [decodeNat, read]
      change Except.ok ((UInt8.ofNat n).toNat + 256 * (n / 256), rest) = _
      rw [low, Nat.mod_add_div]

theorem Reads.imap {codec : Codec α} {forth : α → β} {back : β → α} {value : β}
    (reads : codec.Reads (back value)) (inverse : forth (back value) = value) :
    (codec.imap forth back).Reads value := by
  intro rest
  change (codec.decode (codec.encode (back value) ++ rest)).map _ = _
  rw [reads rest]
  exact congrArg (fun value => Except.ok (value, rest)) inverse

theorem reads_word (value : UInt64) : word.Reads value :=
  (reads_nat value.toNat_lt).imap (UInt64.ofNat_toNat)

theorem reads_shortWord (value : UInt16) : shortWord.Reads value :=
  (reads_nat value.toNat_lt).imap (UInt16.ofNat_toNat)

theorem reads_single (value : Single) : single.Reads value :=
  (reads_nat value.toBits_lt).imap value.ofBits_toBits

/-! ## Pairs and lists -/

/-- Reading goes on with the value that was written and the octets after it. -/
theorem Reads.bind {codec : Codec α} {value : α} (reads : codec.Reads value) (rest : List UInt8)
    (next : α × List UInt8 → Except CodecFault β) :
    (codec.decode (codec.encode value ++ rest) >>= next) = next (value, rest) := by
  rw [reads]
  rfl

theorem Reads.pair {first : Codec α} {second : Codec β} {value : α × β}
    (reads : first.Reads value.1) (reads' : second.Reads value.2) :
    (first.pair second).Reads value := by
  intro rest
  change (first.decode ((first.encode value.1 ++ second.encode value.2) ++ rest) >>= _) = _
  rw [List.append_assoc]
  exact (reads.bind _ _).trans (reads'.bind rest _)

/-- Items that are read back one by one are read back one after the other. -/
theorem decodeItems_flatMap {item : Codec α} {values : List α}
    (reads : ∀ value ∈ values, item.Reads value) (rest : List UInt8) :
    decodeItems item values.length (values.flatMap item.encode ++ rest) = .ok (values, rest) := by
  induction values with
  | nil => rfl
  | cons value values ih =>
      have first := reads value List.mem_cons_self
      have others := ih fun value member => reads value (List.mem_cons_of_mem _ member)
      rw [List.length_cons, List.flatMap_cons, List.append_assoc, decodeItems]
      refine (first.bind _ _).trans ?_
      exact congrArg (· >>= fun read => Except.ok (value :: read.1, read.2)) others

theorem reads_list {item : Codec α} {values : List α} (fits : values.length < UInt64.size)
    (reads : ∀ value ∈ values, item.Reads value) : (list item).Reads values := by
  intro rest
  change ((nat 8).decode
    (((nat 8).encode values.length ++ values.flatMap item.encode) ++ rest) >>= _) = _
  rw [List.append_assoc]
  exact ((reads_nat fits).bind _ _).trans (decodeItems_flatMap reads rest)

end Codec

open Codec

/-! ## Contents -/

theorem reads_nodes {found : List NodeId} (fits : found.length < UInt64.size) :
    nodes.Reads found :=
  reads_list fits fun value _ => reads_word value

theorem reads_nodeLists {lists : List (List NodeId)} (fits : lists.length < UInt64.size)
    (each : ∀ nodes ∈ lists, nodes.length < UInt64.size) : nodeLists.Reads lists :=
  reads_list fits fun nodes member => reads_nodes (each nodes member)

theorem reads_weighted {entries : List (UInt64 × Single)} (fits : entries.length < UInt64.size) :
    weighted.Reads entries :=
  reads_list fits fun entry _ => Reads.pair (reads_word entry.1) (reads_single entry.2)

theorem reads_weightedLists {lists : List (List (UInt64 × Single))}
    (fits : lists.length < UInt64.size) (each : ∀ entries ∈ lists, entries.length < UInt64.size) :
    (list weighted).Reads lists :=
  reads_list fits fun entries member => reads_weighted (each entries member)

/-! ## Messages -/

section Messages

variable {α : Type} {value : α}

/-- A request is read back when its content is. -/
theorem reads_request (form : Nat) (content : Codec α) (make : α → Request)
    (small : form < capacity 4)
    (written : encodeRequest (make value) = encodeForm form content value)
    (forms : ∀ octets, decodeRequestForm octets form = decodeForm content make octets)
    (reads : content.Reads value) : request.Reads (make value) := by
  intro rest
  change ((nat 4).decode (encodeRequest (make value) ++ rest) >>= _) = _
  rw [written, encodeForm, List.append_assoc]
  refine ((reads_nat small).bind _ _).trans ?_
  change decodeRequestForm (content.encode value ++ rest) form = _
  rw [forms, decodeForm, reads]
  rfl

/-- A reply is read back when its content is. -/
theorem reads_reply (form : Nat) (content : Codec α) (make : α → Reply)
    (small : form < capacity 4)
    (written : encodeReply (make value) = encodeForm form content value)
    (forms : ∀ octets, decodeReplyForm octets form = decodeForm content make octets)
    (reads : content.Reads value) : reply.Reads (make value) := by
  intro rest
  change ((nat 4).decode (encodeReply (make value) ++ rest) >>= _) = _
  rw [written, encodeForm, List.append_assoc]
  refine ((reads_nat small).bind _ _).trans ?_
  change decodeReplyForm (content.encode value ++ rest) form = _
  rw [forms, decodeForm, reads]
  rfl

theorem reads_features {ofNodes ofNeighbors : List Feature}
    (reads : (list weighted).Reads ofNodes) (reads' : (list weighted).Reads ofNeighbors) :
    reply.Reads (.features ofNodes ofNeighbors) :=
  @reads_reply _ (ofNodes, ofNeighbors) 4 _ (fun both => .features both.1 both.2)
    (by decide) rfl (fun _ => rfl) (.pair reads reads')

end Messages

end Wire

/-! ## Transports -/

namespace Transport

theorem throughWire_eq_ok {α : Type} {codec : Wire.Codec α} {message : α}
    (reads : codec.Reads message) : throughWire codec message = .ok message := by
  have read := reads []
  rw [List.append_nil] at read
  rw [throughWire, Wire.read, read]

end Transport

end ShardedGraph
