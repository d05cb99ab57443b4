import ShardedGraph.Cluster
import ShardedGraph.Slices
import ShardedGraph.Text.Separated

/-!
# Connecting

A client connects in three steps. All shards must name the same page size; they must
report totals for the same number of namespace slots, from which the client learns how
each slot is spread over them; and the hot nodes of all shards, with all that the shards
know of them, become the cache. The first step that fails ends the attempt.
-/

set_option autoImplicit false

namespace ShardedGraph

open Number

/-! ## Page sizes -/

/-- The page size that a shard names. -/
def readPageSize (shard : Nat) (text : String) : Except Error Nat :=
  match readNat? UInt64.size (Text.trim text.toList) with
  | none => .error (.badPageSize shard text)
  | some size => if size = 0 then .error (.zeroPageSizeOf shard) else .ok size

/-- Goes on with a page size when it is the one agreed on before. -/
def agreeOn (agreed : Option Nat) (size : Nat) : Except Error (Option Nat) :=
  match agreed with
  | none => .ok (some size)
  | some first => if first = size then .ok agreed else .error (.pageSizesDiffer first size)

/-- The page size that all shards name. -/
def agreedPageSize (texts : List String) : Except Error Nat := do
  let agreed ← texts.zipIdx.foldlM
    (fun agreed (text, shard) => do agreeOn agreed (← readPageSize shard text)) none
  match agreed with
  | some size => return size
  | none => throw .noShards

/-! ## Totals -/

/-- The totals that a shard reports, one for each slot. -/
def readTotals (shard : Nat) (text : String) : Except Error (List Double) :=
  let parts := ((Text.separated ',' text.toList).map Text.trim).filter fun part => !part.isEmpty
  match parts.mapM fun part => (Binary.read? part : Option Double) with
  | some totals => .ok totals
  | none => .error (.badFrequencies shard text)

/-- Refuses reports for different numbers of slots, or for none. -/
def checkSlots (reports : List (List Double)) : Except Error Nat :=
  let slots := (reports.head?.map List.length).getD 0
  if slots = 0 then .error .noNamespaces
  else
    match reports.zipIdx.find? fun entry => entry.1.length != slots with
    | some (report, shard) => .error (.namespaceCount shard report.length slots)
    | none => .ok slots

/-- The totals that all shards report. -/
def readReports (texts : List String) : Except Error (List (List Double)) :=
  texts.zipIdx.mapM fun (text, shard) => readTotals shard text

/-- How a slot is spread over the shards; a slot without nodes is not. -/
def shareOf (reports : List (List Double)) (slot : Nat) :
    Except Error (Option Kernel.AliasTable) :=
  let weights := reports.map fun report => (report.getD slot 0).narrow
  if 0 < Kernel.total weights then some <$> Kernel.AliasTable.build weights else .ok none

/-- How each slot is spread over the shards. -/
def sharesOf (reports : List (List Double)) (slots : Nat) :
    Except Error (List (Option Kernel.AliasTable)) :=
  (List.range slots).mapM (shareOf reports)

/-! ## Hot nodes -/

namespace Link

variable {σ : Type}

/-- All that the shards know of some nodes. -/
def fetchEntries (link : Link σ) (nodes : List NodeId) : Exchange σ (List Cache.Entry) := do
  let contexts ← link.lookup (fun _ => none) .contexts Reply.contexts? nodes
  let (ofNodes, ofNeighbors) ← link.lookupFeatures .empty nodes
  return (((nodes.zip contexts).zip ofNodes).zip ofNeighbors).map
    fun (((node, context), ofNode), ofNeighbor) => ⟨node, context, ofNode, ofNeighbor⟩

/-- The cache of all hot nodes, asked for page by page. -/
def fetchCache (link : Link σ) (page : Nat) : Exchange σ Cache := do
  let nodes ← link.scanHotNodes page
  (slicesOf page nodes).foldlM
    (fun cache nodes => do return cache.insertAll (← link.fetchEntries nodes)) .empty

end Link

/-! ## Clients -/

/-- Connects to all shards of a transport. -/
def Cluster.connect {σ : Type} (transport : Transport σ) (config : Config) :
    Exchange σ (Cluster σ) := do
  if transport.shards = 0 then throw .noShards
  let link : Link σ := ⟨transport, config.deadline?⟩
  let pageSize ← agreedPageSize (← link.broadcast Reply.metaValue? (.metaValue pageSizeKey))
  let reports ← readReports (← link.broadcast Reply.metaValue? (.metaValue totalsKey))
  let slots ← checkSlots reports
  let shares ← sharesOf reports slots
  let cache ← link.fetchCache pageSize
  return { link, pageSize, slots, shares, cache }

end ShardedGraph
