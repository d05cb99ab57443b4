import ShardedGraph.Cluster.Cache
import ShardedGraph.Transport

/-!
# Scans of hot nodes

A client learns the hot nodes of all shards page by page. Every round asks each shard
that is not done for its next page, with one cursor for all. A page that is not full is
the last one of its shard, and a page with too many nodes is an error.

The scan lists every node once, where it is first seen. It ends when all shards are done,
or when no cursor is left that fits in 64 bits.
-/

set_option autoImplicit false

namespace ShardedGraph

/-- How far a scan has come. -/
structure Scan where
  /-- Which shards may have more. -/
  active : List Bool
  cursor : Nat
  /-- The nodes seen so far, every node once. -/
  seen : List NodeId
  deriving DecidableEq, Repr

namespace Scan

/-- The scan of a number of shards before its first round. -/
def start (shards : Nat) : Scan := ⟨List.replicate shards true, 0, []⟩

/-- Whether all shards have given their last page. -/
def isDone (scan : Scan) : Bool := scan.active.all fun active => !active

/-- The requests of a round. -/
def requests (scan : Scan) (page : Nat) : List (Option Request) :=
  scan.active.map fun active =>
    if active then some (.hotNodes ⟨UInt64.ofNat scan.cursor, UInt64.ofNat page⟩) else none

/-- Adds the nodes that were not seen before. -/
def addNew (seen nodes : List NodeId) : List NodeId :=
  nodes.foldl (fun seen node => if seen.contains node then seen else seen ++ [node]) seen

/-- Takes a page of a shard. -/
def take (page : Nat) (scan : Scan) (shard : Nat) (nodes : List NodeId) : Except Error Scan :=
  if page < nodes.length then .error (.overfullPage shard nodes.length page)
  else
    .ok { scan with
      active := if nodes.length < page then scan.active.set shard false else scan.active
      seen := addNew scan.seen nodes }

/-- Takes the pages of a round, in the order of the shards. -/
def takeAll (page : Nat) (scan : Scan) (answers : List (Option (List NodeId))) :
    Except Error Scan := do
  let scan ← answers.zipIdx.foldlM
    (fun scan (answer, shard) =>
      match answer with
      | some nodes => take page scan shard nodes
      | none => .ok scan)
    scan
  return { scan with cursor := scan.cursor + page }

/-- How many rounds may be made with a page size. -/
def roundLimit (page : Nat) : Nat := (UInt64.size - 1) / page + 1

end Scan

namespace Link

variable {σ : Type}

/-- Makes rounds until all shards are done, and at most the given number. -/
def scanRounds (link : Link σ) (page : Nat) : Nat → Scan → Exchange σ Scan
  | 0, scan => return scan
  | limit + 1, scan => do
      if scan.isDone then
        return scan
      else
        let answers ← link.fanOut Reply.hotNodes? (scan.requests page)
        let next ← scan.takeAll page answers
        link.scanRounds page limit next

/-- The hot nodes of all shards. -/
def scanHotNodes (link : Link σ) (page : Nat) : Exchange σ (List NodeId) := do
  let scan ← link.scanRounds page (Scan.roundLimit page) (Scan.start link.transport.shards)
  return scan.seen

end Link

end ShardedGraph
