/-!
# Hexadecimal text

Numbers are written with lower-case hexadecimal digits and read with digits of either
case. Octets are written with two digits each, so that reading them back gives the same
octets.
-/

set_option autoImplicit false

namespace ShardedGraph.Text

/-- The value of a hexadecimal digit. -/
def hexValue? (c : Char) : Option Nat :=
  if c.isDigit then some (c.toNat - '0'.toNat)
  else if 'a' ≤ c ∧ c ≤ 'f' then some (10 + c.toNat - 'a'.toNat)
  else if 'A' ≤ c ∧ c ≤ 'F' then some (10 + c.toNat - 'A'.toNat)
  else none

/-- The value of hexadecimal digits, most significant first. -/
def readHex? (digits : List Char) : Option Nat :=
  digits.foldlM (fun value c => (hexValue? c).map (16 * value + ·)) 0

/-- The hexadecimal digits of a number. -/
def hexDigits (n : Nat) : List Char := Nat.toDigits 16 n

/-- The hexadecimal digits of a number, with zeros in front up to a width. -/
def paddedHex (width n : Nat) : List Char :=
  let digits := hexDigits n
  List.replicate (width - digits.length) '0' ++ digits

/-- Writes octets, two digits each. -/
def writeOctets (octets : List UInt8) : String :=
  String.ofList (octets.flatMap fun octet => paddedHex 2 octet.toNat)

/-- Reads octets, two digits each. -/
def readOctets? : List Char → Option (List UInt8)
  | [] => some []
  | [_] => none
  | high :: low :: rest => do
      let octet ← readHex? [high, low]
      return UInt8.ofNat octet :: (← readOctets? rest)

end ShardedGraph.Text
