import ShardedGraph.Neighbor.Tables

/-!
# Samples of neighbors

How the neighbors of a node are sampled depends on the number asked for. A negative
number, or exactly the number of neighbors, gives all neighbors in the order of the
context without any draw. A smaller number gives different neighbors, and a larger one
gives draws that may repeat.

**Few drawable neighbors.** When no more neighbors can be drawn than are asked for, a
smaller sample is all of those, without any draw.

A list of samples for several nodes fails only as a whole: something was asked for, and
every list is empty.
-/

set_option autoImplicit false

namespace ShardedGraph

/-- Refuses lists of neighbors that are all empty although some were asked for. -/
def requireNeighbors (count : Int) (lists : List (List NodeId)) : Except Error Unit :=
  if count ≠ 0 ∧ lists ≠ [] ∧ lists.all List.isEmpty then .error (.noNeighbors lists.length)
  else .ok ()

namespace NeighborTables

/-- How many draws may be made for each asked neighbor. -/
def drawsPerNeighbor : Nat := 100000

/-- How many draws may be made for different neighbors. -/
def drawBudget (count : Nat) : Nat := min (count * drawsPerNeighbor) (UInt64.size - 1)

/-- Draws until enough different neighbors were found, no neighbor is drawn, or the budget
of draws is used up. -/
def collect (draw : Draw (Option NodeId)) (count : Nat) :
    Nat → List NodeId → Draw (List NodeId)
  | 0, found => fun stream => (found, stream)
  | budget + 1, found => fun stream =>
      match draw stream with
      | (none, stream) => (found, stream)
      | (some node, stream) =>
          let found := if found.contains node then found else found ++ [node]
          if found.length = count then (found, stream)
          else collect draw count budget found stream

/-- Different neighbors of a node. -/
def sampleDistinct (tables : NeighborTables) (node : NodeId) (count : Nat) :
    Draw (List NodeId) :=
  if tables.support node ≤ count then return (tables.drawable? node).getD []
  else collect (tables.draw node) count (drawBudget count) []

/-- Draws a number of times, up to the first draw that gives nothing; `done` holds what
was drawn before in reverse. -/
def repeatDraw (draw : Draw (Option NodeId)) : Nat → List NodeId → Draw (List NodeId)
  | 0, done => fun stream => (done.reverse, stream)
  | n + 1, done => fun stream =>
      match draw stream with
      | (none, stream) => (done.reverse, stream)
      | (some node, stream) => repeatDraw draw n (node :: done) stream

/-- Neighbors of a node that may repeat. -/
def sampleRepeated (tables : NeighborTables) (node : NodeId) (count : Nat) :
    Draw (List NodeId) :=
  repeatDraw (tables.draw node) count []

/-- A sample of the neighbors of a node. -/
def sampleFor (tables : NeighborTables) (count : Int) (node : NodeId) : Draw (List NodeId) :=
  match tables.source.context? node with
  | none => return []
  | some context =>
      if count < 0 ∨ count = context.length then return context.map Prod.fst
      else if count < context.length then tables.sampleDistinct node count.toNat
      else tables.sampleRepeated node count.toNat

/-- Samples for several nodes, whether or not they are empty. -/
def samplePartial (tables : NeighborTables) (count : Int) (nodes : List NodeId) :
    Draw (List (List NodeId)) :=
  nodes.mapM (tables.sampleFor count)

/-- Samples for several nodes, at least one of which must have neighbors. -/
def sample (tables : NeighborTables) (count : Int) (nodes : List NodeId) :
    Attempt (List (List NodeId)) := do
  let lists ← tables.samplePartial count nodes
  requireNeighbors count lists
  return lists

end NeighborTables

end ShardedGraph
