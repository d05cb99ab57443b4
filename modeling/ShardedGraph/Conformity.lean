import ShardedGraph.Node
import ShardedGraph.Number.Power
import ShardedGraph.Random.WordStream

/-!
# Conformity of a sample

A sample of nodes is compared with the distribution it should follow. A few nodes of the
distribution are picked by chance, and the sample must hold each of them about as often
as its probability says: within a band around the expected number whose width grows with
the standard deviation. One picked node may miss its band.

A distribution without nodes, or with a node twice, conforms to no sample and takes no
words.
-/

set_option autoImplicit false

namespace ShardedGraph.Conformity

open Number

/-- How many nodes are picked at most. -/
def rounds : Nat := 5

/-- How many picked nodes may miss their bands. -/
def allowedMisses : Nat := 1

/-- Half the width of a band, in standard deviations. -/
def bandFactor : Double := .ofNat 281 / .ofNat 100

/-- Whether a distribution has nodes and none of them twice. -/
def isDistribution (distribution : List (NodeId × Single)) : Bool :=
  !distribution.isEmpty && decide (distribution.map Prod.fst).Nodup

/-- Adds a picked entry unless its node was picked before. -/
def addPick (picked : List (NodeId × Single)) (entry : NodeId × Single) :
    List (NodeId × Single) :=
  if picked.any fun other => other.1 == entry.1 then picked else picked ++ [entry]

/-- Picks entries by chance; an entry picked again counts once. -/
def pick (distribution : List (NodeId × Single)) :
    Nat → List (NodeId × Single) → Draw (List (NodeId × Single))
  | 0, picked => return picked
  | n + 1, picked => do
      let index ← WordStream.below distribution.length
      pick distribution n (addPick picked (distribution.getD index (0, 0)))

/-- Whether a number of occurrences leaves the band of a probability. -/
def misses (trials occurrences : Nat) (probability : Single) : Bool :=
  let n : Double := .ofNat trials
  let p := probability.widen
  let count : Double := .ofNat occurrences
  let mean := n * p
  let band := bandFactor * (n * p * (1 - p)).sqrt
  decide (count < mean - band) || decide (mean + band < count)

/-- Whether a sample follows a distribution. -/
def conforms (distribution : List (NodeId × Single)) (sample : List NodeId) : Draw Bool := do
  if isDistribution distribution then
    let picked ← pick distribution (min rounds distribution.length) []
    let missed := picked.countP fun (node, probability) =>
      misses sample.length (sample.count node) probability
    return decide (missed ≤ allowedMisses)
  else
    return false

end ShardedGraph.Conformity
