/-!
# Slices

A list is cut into consecutive slices of one length; only the last may be shorter. Putting
the slices together again gives the list, so work that is done slice by slice, and joined
in order, is the work done on the whole list.
-/

set_option autoImplicit false

namespace ShardedGraph

variable {α : Type}

/-- The slices of a list, each of the given length but for the last. -/
def slicesOf (length : Nat) (list : List α) : List (List α) :=
  (List.range ((list.length + length - 1) / length)).map fun index =>
    (list.drop (index * length)).take length

/-- How long slices are that give each of some workers at most one. -/
def sliceLength (size workers : Nat) : Nat :=
  let workers := max 1 workers
  max 1 ((size + workers - 1) / workers)

/-- The slices of a list for some workers. -/
def slicesFor (workers : Nat) (list : List α) : List (List α) :=
  slicesOf (sliceLength list.length workers) list

end ShardedGraph
