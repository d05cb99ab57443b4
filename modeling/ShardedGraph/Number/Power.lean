import ShardedGraph.Number.Binary

/-!
# Powers and roots

The power three quarters dampens large frequencies; the square root bounds the spread of
a count. Both are taken by the machine's arithmetic on the bits of the numbers.
-/

set_option autoImplicit false

namespace ShardedGraph.Number

/-- The power three quarters of a 32-bit number. -/
def Single.powThreeQuarters (x : Single) : Single :=
  .ofBits ((Float32.ofBits (UInt32.ofNat x.toBits)).pow 0.75).toBits.toNat

/-- The power three quarters of a 64-bit number. -/
def Double.powThreeQuarters (x : Double) : Double :=
  .ofBits ((Float.ofBits (UInt64.ofNat x.toBits)).pow 0.75).toBits.toNat

/-- The square root of a 64-bit number. -/
def Double.sqrt (x : Double) : Double :=
  .ofBits (Float.ofBits (UInt64.ofNat x.toBits)).sqrt.toBits.toNat

end ShardedGraph.Number
