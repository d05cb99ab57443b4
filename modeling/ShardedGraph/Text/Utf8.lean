/-!
# Text as octets

A text is written as its UTF-8 octets. Reading octets that are not UTF-8 names the
place where the first sequence breaks: either an octet that cannot stand there, with
the length of the broken beginning, or an end of the octets inside a sequence.

**Sequences.** The lead octet fixes how many octets follow and which values the first
of them may have; every later one lies between `80` and `BF`. A broken beginning is
as long as its octets still could have started a sequence.
-/

set_option autoImplicit false

namespace ShardedGraph.Text

/-! ## One sequence -/

/-- The inclusive ranges of the octets that must follow a lead octet. A lead octet
outside the table starts no sequence. -/
def tailRanges? (lead : UInt8) : Option (List (UInt8 × UInt8)) :=
  let any : UInt8 × UInt8 := (0x80, 0xBF)
  if lead < 0x80 then some []
  else if lead < 0xC2 then none
  else if lead < 0xE0 then some [any]
  else if lead = 0xE0 then some [(0xA0, 0xBF), any]
  else if lead = 0xED then some [(0x80, 0x9F), any]
  else if lead < 0xF0 then some [any, any]
  else if lead = 0xF0 then some [(0x90, 0xBF), any, any]
  else if lead < 0xF4 then some [any, any, any]
  else if lead = 0xF4 then some [(0x80, 0x8F), any, any]
  else none

/-- What stands at the beginning of a list of octets. -/
inductive Sequence where
  /-- A whole sequence of this many octets. -/
  | whole (length : Nat)
  /-- This many octets begin a sequence that the next octet breaks. -/
  | broken (length : Nat)
  /-- The octets end inside a sequence. -/
  | cut
  deriving DecidableEq, Repr

/-- Follows the octets after a lead octet, `length` octets having been accepted. -/
def followSequence : List (UInt8 × UInt8) → List UInt8 → Nat → Sequence
  | [], _, length => .whole length
  | _ :: _, [], _ => .cut
  | (low, high) :: ranges, octet :: octets, length =>
      if low ≤ octet ∧ octet ≤ high then followSequence ranges octets (length + 1)
      else .broken length

/-- The sequence that starts at a lead octet. -/
def sequenceAt (lead : UInt8) (octets : List UInt8) : Sequence :=
  match tailRanges? lead with
  | none => .broken 1
  | some ranges => followSequence ranges octets 1

/-! ## Reading -/

/-- Why octets are not a text. -/
inductive Utf8Fault where
  /-- A sequence beginning at `index` is broken after `length` octets. -/
  | broken (index length : Nat)
  /-- The octets end inside the sequence that begins at `index`. -/
  | cut (index : Nat)
  deriving DecidableEq, Repr

namespace Utf8Fault

/-- The wording of a fault. -/
def message : Utf8Fault → String
  | broken index length => s!"invalid utf-8 sequence of {length} bytes from index {index}"
  | cut index => s!"incomplete utf-8 byte sequence from index {index}"

end Utf8Fault

/-- The first fault at or after `index`, where the octets stand. Octets without a fault
are reported as cut at their end. -/
def firstFault (octets : List UInt8) (index : Nat) : Utf8Fault :=
  match octets with
  | [] => .cut index
  | lead :: rest =>
      match sequenceAt lead rest with
      | .whole length => firstFault (rest.drop (length - 1)) (index + length)
      | .broken length => .broken index length
      | .cut => .cut index
termination_by octets.length
decreasing_by simp only [List.length_cons, List.length_drop]; omega

/-- Reads octets as a text. -/
def readUtf8 (octets : List UInt8) : Except Utf8Fault String :=
  match String.fromUTF8? octets.toByteArray with
  | some text => .ok text
  | none => .error (firstFault octets 0)

/-- Reads octets as a text, each broken or cut sequence as one replacement character. -/
def readUtf8Lossy (octets : List UInt8) : List Char :=
  match octets with
  | [] => []
  | lead :: rest =>
      match sequenceAt lead rest with
      | .whole length =>
          ((String.fromUTF8? ((lead :: rest).take length).toByteArray).getD "").toList
            ++ readUtf8Lossy (rest.drop (length - 1))
      | .broken length => '\uFFFD' :: readUtf8Lossy (rest.drop (length - 1))
      | .cut => ['\uFFFD']
termination_by octets.length
decreasing_by all_goals simp only [List.length_cons, List.length_drop]; omega

/-- Writes a text as octets. -/
def writeUtf8 (text : String) : List UInt8 := text.toUTF8.data.toList

end ShardedGraph.Text
