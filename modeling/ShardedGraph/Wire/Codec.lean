import ShardedGraph.Error

/-!
# Codecs

A codec writes values as octets and reads a value from the beginning of octets, leaving
the octets after it. Codecs of larger values are put together from codecs of their parts.

**Numbers** have a fixed number of octets, the least significant first. **Lists** are their
length in eight octets and then their items; **texts** are the length of their UTF-8 octets
and then the octets. A value is written in exactly one way.
-/

set_option autoImplicit false

namespace ShardedGraph.Wire

open Number

/-- A way to write values as octets and to read them. -/
structure Codec (α : Type) where
  encode : α → List UInt8
  decode : List UInt8 → Except CodecFault (α × List UInt8)

namespace Codec

variable {α β : Type}

/-! ## Numbers -/

/-- The octets of a number, the least significant first. -/
def encodeNat : Nat → Nat → List UInt8
  | 0, _ => []
  | width + 1, n => UInt8.ofNat n :: encodeNat width (n / 256)

/-- Reads a number of the given number of octets. -/
def decodeNat : Nat → List UInt8 → Except CodecFault (Nat × List UInt8)
  | 0, octets => .ok (0, octets)
  | _ + 1, [] => .error .endOfInput
  | width + 1, octet :: octets => do
      let (high, rest) ← decodeNat width octets
      return (octet.toNat + 256 * high, rest)

/-- Natural numbers below `256 ^ width`. -/
def nat (width : Nat) : Codec Nat := ⟨encodeNat width, decodeNat width⟩

/-- Values that stand for others one to one. -/
def imap (codec : Codec α) (forth : α → β) (back : β → α) : Codec β where
  encode value := codec.encode (back value)
  decode octets := (codec.decode octets).map fun (value, rest) => (forth value, rest)

/-- Numbers of 64 bits. -/
def word : Codec UInt64 := (nat 8).imap UInt64.ofNat UInt64.toNat

/-- Numbers of 16 bits. -/
def shortWord : Codec UInt16 := (nat 2).imap UInt16.ofNat UInt16.toNat

/-- Signed numbers of 32 bits. -/
def signed : Codec Int32 :=
  (nat 4).imap (fun n => (UInt32.ofNat n).toInt32) fun value => value.toUInt32.toNat

/-- Numbers with a point, of 32 bits. -/
def single : Codec Single := (nat 4).imap Binary.ofBits Binary.toBits

/-! ## Texts, pairs and lists -/

/-- Reads a text of the given number of octets. -/
def decodeText (length : Nat) (octets : List UInt8) : Except CodecFault (String × List UInt8) :=
  if octets.length < length then .error .textPastEnd
  else
    match Text.readUtf8 (octets.take length) with
    | .ok text => .ok (text, octets.drop length)
    | .error fault => .error (.notText fault)

/-- Texts. -/
def text : Codec String where
  encode value := (nat 8).encode (Text.writeUtf8 value).length ++ Text.writeUtf8 value
  decode octets := do
    let (length, rest) ← (nat 8).decode octets
    decodeText length rest

/-- Pairs. -/
def pair (first : Codec α) (second : Codec β) : Codec (α × β) where
  encode value := first.encode value.1 ++ second.encode value.2
  decode octets := do
    let (x, rest) ← first.decode octets
    let (y, rest) ← second.decode rest
    return ((x, y), rest)

/-- Reads a number of items. -/
def decodeItems (item : Codec α) : Nat → List UInt8 → Except CodecFault (List α × List UInt8)
  | 0, octets => .ok ([], octets)
  | length + 1, octets => do
      let (value, rest) ← item.decode octets
      let (values, rest) ← decodeItems item length rest
      return (value :: values, rest)

/-- Lists. -/
def list (item : Codec α) : Codec (List α) where
  encode values := (nat 8).encode values.length ++ values.flatMap item.encode
  decode octets := do
    let (length, rest) ← (nat 8).decode octets
    decodeItems item length rest

end Codec

end ShardedGraph.Wire
