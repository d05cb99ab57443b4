import ShardedGraph.Error

/-!
# Weights

A kernel is built over a list of weights, which may not be empty and whose members are
finite and not negative. Weights need not sum to one. Tables keep indices in 32 bits, so
they are not built over more weights than that. A range of indices must hold at least one
index and end inside the list.
-/

set_option autoImplicit false

namespace ShardedGraph.Kernel

open Number

/-- Whether a weight is finite and not negative. -/
def isWeight (weight : Single) : Bool := weight.isFinite && !decide (weight < 0)

/-- Refuses a list of weights that no kernel can be built over. -/
def checkWeights (kind : KernelKind) (weights : List Single) : Except Error Unit :=
  if weights.isEmpty then .error (.noWeights kind)
  else
    match weights.find? fun weight => !isWeight weight with
    | some bad => .error (.badWeight kind bad)
    | none => .ok ()

/-- Refuses as many entries as 32 bits cannot number. -/
def checkSize (kind : KernelKind) (entries : Nat) : Except Error Unit :=
  if UInt32.size ≤ entries then .error (.tableTooLarge kind entries) else .ok ()

/-- Refuses a range of indices that is empty or leaves a list of `size` entries. -/
def checkRange (size first last : Nat) : Except Error Unit :=
  if last ≤ first ∨ size < last then .error (.badRange first last size) else .ok ()

/-- The indices below `size` that satisfy a test, counted. -/
def countBelow (size : Nat) (test : Nat → Bool) : Nat := (List.range size).countP test

end ShardedGraph.Kernel
