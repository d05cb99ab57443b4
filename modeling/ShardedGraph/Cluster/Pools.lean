import ShardedGraph.Cluster

/-!
# Shared samples of a cluster

A shared sample draws one pool of nodes for every namespace that the query nodes touch.
How many nodes of a pool come from which shard is drawn by the client, in proportion to
what each shard holds of the namespace; the shards then draw their shares.

**Rounds.** The rounds of all namespaces run side by side, in the order in which the
namespaces are first seen. A round that is known to fail at once keeps later ones from
starting. Otherwise the failure that is known first counts, and among failures known at
the same moment the one of the earliest round. When the rounds are many, they are taken in
order: a round is known no earlier than the rounds before it.
-/

set_option autoImplicit false

namespace ShardedGraph

/-! ## Shares -/

/-- How often each shard was drawn. -/
def tally (shards : Nat) (drawn : List Nat) : List Nat :=
  (List.range shards).map fun shard => drawn.count shard

/-- The requests for the shares of a pool; an empty share asks for nothing. -/
def shareRequests (split : List Nat) (node : NodeId) (excluded : List NodeId) :
    List (Option Request) :=
  split.map fun share =>
    if share = 0 then none else some (.sharedNegatives ⟨UInt64.ofNat share, [node], excluded⟩)

/-- The pool that all shares make, each of which must have its size. -/
def joinShares (ns : NamespaceId) (split : List Nat)
    (answers : List (Option (List (List NodeId)))) : Except Error (List NodeId) :=
  (split.zip answers).zipIdx.foldlM
    (fun pool ((share, answer), shard) =>
      match answer with
      | none => .ok pool
      | some pools =>
          let part := pools.getD ns.toNat []
          if part.length = share then .ok (pool ++ part)
          else .error (.poolCount shard part.length ns share))
    []

/-- The pool that the shares of `count` nodes make, in a list with room for all of them. -/
def gatherShares (ns : NamespaceId) (count : Nat) (split : List Nat)
    (answers : List (Option (List (List NodeId)))) : Except Error (List NodeId) := do
  if listLimit < count then throw (.poolTooLong count)
  joinShares ns split answers

/-! ## Rounds -/

/-- How many rounds are waited for together; more are taken in order. -/
def roundsTogether : Nat := 30

/-- A value that is known no earlier than in a moment. -/
def Timed.delayedTill {α : Type} (timed : Timed α) (time : Moment) : Timed α :=
  { timed with time := time.later timed.time }

/-- The failure that is known first, and among equally early ones the first. -/
def firstFailure {α : Type} (results : List (Timed (Except Error α))) : Option (Timed Error) :=
  results.foldl
    (fun found result =>
      match result.value, found with
      | .ok _, _ => found
      | .error error, none => some ⟨error, result.time⟩
      | .error error, some first =>
          if result.time.isBefore first.time then some ⟨error, result.time⟩ else found)
    none

/-- Whether a result is a failure that is known at once. -/
def Timed.failsAtOnce {α : Type} (result : Timed (Except Error α)) : Bool :=
  match result.value with
  | .ok _ => false
  | .error _ => result.time == .now

namespace Cluster

variable {σ : Type}

/-- Draws the pool of a namespace. -/
def poolRound (cluster : Cluster σ) (query : NegativeQuery) (ns : NamespaceId)
    (node : NodeId) : StateM (World σ) (Timed (Except Error (List NodeId))) := do
  match cluster.shares.getD ns.toNat none with
  | none => return ⟨.error (.emptyNamespace ns), .now⟩
  | some table => do
      let drawn ← Exchange.onStream (Attempt.replicate query.count.toNat table.draw)
      let split := tally cluster.shards drawn
      let timed ← Exchange.onNetwork
        (cluster.link.fanOutTimed Reply.pools? (shareRequests split node query.excluded))
      return ⟨timed.value.bind (gatherShares ns query.count.toNat split), timed.time⟩

/-- Draws the pools of several namespaces, up to a failure that is known at once. When
they are taken in order, a round is known no earlier than the rounds before it. -/
def poolRounds (cluster : Cluster σ) (query : NegativeQuery) (inOrder : Bool) :
    Moment → List (NamespaceId × NodeId) →
      StateM (World σ) (List (Timed (Except Error (List NodeId))))
  | _, [] => return []
  | known, (ns, node) :: touched => do
      let round := (← cluster.poolRound query ns node).delayedTill known
      if round.failsAtOnce then return [round]
      else
        let later ← cluster.poolRounds query inOrder (if inOrder then round.time else known) touched
        return round :: later

/-- Pools for all namespaces that the query nodes touch, by slot; other slots are empty. -/
def sharedNegatives (cluster : Cluster σ) (query : NegativeQuery) :
    Exchange σ (List (List NodeId)) := do
  let touched ← touchedNamespaces cluster.slots query.nodes
  let inOrder := roundsTogether < touched.length
  let rounds ← ExceptT.lift (cluster.poolRounds query inOrder .now touched)
  match firstFailure rounds with
  | some failure => throw failure.value
  | none => do
      let pools ← rounds.mapM fun round => round.value
      return (touched.zip pools).foldl (fun out ((ns, _), pool) => out.set ns.toNat pool)
        (List.replicate cluster.slots [])

end Cluster

end ShardedGraph
