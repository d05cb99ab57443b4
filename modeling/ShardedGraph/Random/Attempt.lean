import ShardedGraph.Error
import ShardedGraph.Random.WordStream

/-!
# Draws that may fail

A draw that fails gives an error and leaves the stream as it was after the last word it
took, so a failure takes its words for good.
-/

set_option autoImplicit false

namespace ShardedGraph

/-- A computation that draws words and may fail. -/
abbrev Attempt (α : Type) : Type := ExceptT Error (StateM WordStream) α

namespace Attempt

/-- Does something again and again and lists the results. -/
def replicate {α : Type} {m : Type → Type} [Monad m] (n : Nat) (draw : m α) : m (List α) :=
  (List.replicate n ()).mapM fun _ => draw

end Attempt

end ShardedGraph
