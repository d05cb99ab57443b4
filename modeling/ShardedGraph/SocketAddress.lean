import ShardedGraph.Text.Hexadecimal

/-!
# Socket addresses

A socket address is the address of a host and a port. Hosts of the older kind are four
octets between dots, hosts of the newer kind eight groups of sixteen bits between colons in
brackets. One run of zero groups may be left out, the last two groups may be written as
four octets, and a scope may follow a percent sign.

A reader takes what it can from the front of a text and leaves the rest; an address is
read when nothing is left (`SocketAddress.read?`).
-/

set_option autoImplicit false

namespace ShardedGraph

/-- The address of a host. -/
inductive HostAddress where
  | octets (first second third fourth : UInt8)
  | groups (groups : List UInt16) (scope : UInt32)
  deriving DecidableEq, Repr

/-- The address of a host, and a port. -/
structure SocketAddress where
  host : HostAddress
  port : UInt16
  deriving DecidableEq, Repr

namespace SocketAddress

/-! ## Numbers -/

/-- Which numbers are read. -/
structure Numeral where
  base : Nat
  /-- Numbers are below this one. -/
  bound : Nat
  /-- How many digits a number has at most. -/
  mostDigits : Option Nat
  leadingZeros : Bool

/-- The numbers between dots. -/
def octet : Numeral := ⟨10, UInt8.size, some 3, false⟩

/-- The numbers between colons. -/
def group : Numeral := ⟨16, UInt16.size, some 4, true⟩

/-- The numbers of ports. -/
def portNumber : Numeral := ⟨10, UInt16.size, none, true⟩

/-- The numbers of scopes. -/
def scopeNumber : Numeral := ⟨10, UInt32.size, none, true⟩

/-- The digits of a base at the front of a text, and the rest. -/
def digits (base : Nat) : List Char → List Nat × List Char
  | [] => ([], [])
  | c :: rest =>
      match (Text.hexValue? c).filter (· < base) with
      | some digit =>
          let (more, rest) := digits base rest
          (digit :: more, rest)
      | none => ([], c :: rest)

/-- A number at the front of a text, and the rest. -/
def readNumber? (numeral : Numeral) (text : List Char) : Option (Nat × List Char) :=
  let (found, rest) := digits numeral.base text
  let value := found.foldl (fun value digit => numeral.base * value + digit) 0
  let tooLong := numeral.mostDigits.any fun most => decide (most < found.length)
  let badZero := !numeral.leadingZeros && found.head? == some 0 && decide (1 < found.length)
  if found.isEmpty || tooLong || badZero || decide (numeral.bound ≤ value) then none
  else some (value, rest)

/-- The text after a mark. -/
def after? (mark : Char) : List Char → Option (List Char)
  | c :: rest => if c = mark then some rest else none
  | [] => none

/-! ## Hosts -/

/-- Four octets between dots. -/
def readOctets? (text : List Char) : Option ((UInt8 × UInt8 × UInt8 × UInt8) × List Char) := do
  let (first, rest) ← readNumber? octet text
  let (second, rest) ← readNumber? octet (← after? '.' rest)
  let (third, rest) ← readNumber? octet (← after? '.' rest)
  let (fourth, rest) ← readNumber? octet (← after? '.' rest)
  return ((.ofNat first, .ofNat second, .ofNat third, .ofNat fourth), rest)

/-- The group of two octets. -/
def joinOctets (high low : UInt8) : UInt16 := high.toUInt16 * 256 + low.toUInt16

/-- At most `limit` groups between colons, whether octets ended them, and the rest. -/
def readGroups : (limit : Nat) → (first : Bool) → List Char → List UInt16 × Bool × List Char
  | 0, _, text => ([], false, text)
  | left + 1, first, text =>
      match if first then some text else after? ':' text with
      | none => ([], false, text)
      | some inner =>
          match if left = 0 then none else readOctets? inner with
          | some ((a, b, c, d), rest) => ([joinOctets a b, joinOctets c d], true, rest)
          | none =>
              match readNumber? group inner with
              | some (value, rest) =>
                  let (more, ended, rest) := readGroups left false rest
                  (.ofNat value :: more, ended, rest)
              | none => ([], false, text)

/-- Eight groups, of which a run of zeros may be left out between two colons. -/
def readEight? (text : List Char) : Option (List UInt16 × List Char) := do
  let (front, ended, rest) := readGroups 8 true text
  if front.length = 8 then
    return (front, rest)
  else if ended then
    none
  else
    let rest ← after? ':' (← after? ':' rest)
    let (back, _, rest) := readGroups (7 - front.length) true rest
    return (front ++ List.replicate (8 - front.length - back.length) 0 ++ back, rest)

/-- A scope; without one the scope is zero. -/
def readScope (text : List Char) : UInt32 × List Char :=
  match (after? '%' text).bind (readNumber? scopeNumber) with
  | some (scope, rest) => (.ofNat scope, rest)
  | none => (0, text)

/-- A host at the front of a text, and the rest. -/
def readHost? (text : List Char) : Option (HostAddress × List Char) :=
  match readOctets? text with
  | some ((a, b, c, d), rest) => some (.octets a b c d, rest)
  | none => do
      let (groups, rest) ← readEight? (← after? '[' text)
      let (scope, rest) := readScope rest
      return (.groups groups scope, ← after? ']' rest)

/-- Reads a text that is a socket address and nothing else. -/
def read? (text : String) : Option SocketAddress := do
  let (host, rest) ← readHost? text.toList
  let (port, rest) ← readNumber? portNumber (← after? ':' rest)
  if rest.isEmpty then return ⟨host, .ofNat port⟩ else none

end SocketAddress

end ShardedGraph
