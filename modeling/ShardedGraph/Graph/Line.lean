import ShardedGraph.Error
import ShardedGraph.Number.Decimal
import ShardedGraph.Text.Blank

/-!
# Lines of a graph file

A line of a graph file is a node followed by pairs `number:value`, all separated by
blanks. Lines without words and lines that begin with `#` say nothing. A pair is split
at its first colon.
-/

set_option autoImplicit false

namespace ShardedGraph

open Number

/-- What a line says about a node. -/
structure NodeLine where
  node : NodeId
  pairs : List (UInt64 × Single)
  deriving DecidableEq, Repr

namespace NodeLine

/-- Reads a 64-bit number. -/
def readWord? (text : List Char) : Option UInt64 := (readNat? UInt64.size text).map UInt64.ofNat

/-- Reads a pair `number:value`. -/
def readPair? (token : List Char) : Option (UInt64 × Single) :=
  match token.dropWhile (· != ':') with
  | [] => none
  | _ :: value => do return (← readWord? (token.takeWhile (· != ':')), ← Binary.read? value)

/-- Reads a pair of the given node, or says which token is none. -/
def readPair (node : NodeId) (token : List Char) : Except Error (UInt64 × Single) :=
  match readPair? token with
  | some pair => .ok pair
  | none => .error (.badPair (String.ofList token) node)

/-- Reads a line; a line that says nothing gives nothing. -/
def read (line : List Char) : Except Error (Option NodeLine) := do
  let text := Text.trim line
  if text.isEmpty || text.head? == some '#' then return none
  let bad : Error := .badNode (String.ofList text)
  match Text.words text with
  | [] => throw bad
  | first :: tokens =>
      match readWord? first with
      | none => throw bad
      | some node => return some ⟨node, ← tokens.mapM (readPair node)⟩

end NodeLine

end ShardedGraph
