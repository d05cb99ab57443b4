import ShardedGraph.Config
import ShardedGraph.Files
import ShardedGraph.Graph
import ShardedGraph.Graph.Line
import ShardedGraph.Routing

/-!
# Loading a graph

A shard reads the files that its configuration names and keeps the lines about nodes that
belong to it. Files that are not named hold nothing. The namespace table comes first,
then contexts, node features and neighbor features, and the first fault ends the loading.
-/

set_option autoImplicit false

namespace ShardedGraph.Graph

/-- The insertions about nodes that belong to a shard. -/
def ownedInsertions (shards shard : Nat) (insertions : List Insertion) : List Insertion :=
  insertions.filter fun insertion => ownerOf shards insertion.node == shard

/-- The table in a file, or the default table when no file is named. -/
def loadNamespaces (folder : Folder) : Option String → Except Error NamespaceTable
  | none => .ok .single
  | some path => do NamespaceTable.read (← folder.readText path)

/-- Reads a line and keeps it if it is about a node of the shard. -/
def readOwned (config : Config) (line : List Char) : Except Error (Option NodeLine) := do
  match ← NodeLine.read line with
  | none => return none
  | some found =>
      let owner ← shardOf config.shardCount.toNat found.node
      return if owner = config.shard.toNat then some found else none

/-- The lines of a text that are about nodes of the shard. -/
def ownedLines (config : Config) (text : String) : Except Error (List NodeLine) := do
  let lines ← (Text.lines text.toList).mapM (readOwned config)
  return lines.filterMap id

/-- The insertions that a file asks for; a file that is not named asks for none. -/
def loadInsertions (folder : Folder) (config : Config)
    (insertion : NodeId → List (UInt64 × Number.Single) → Insertion) :
    Option String → Except Error (List Insertion)
  | none => .ok []
  | some path => do
      let lines ← ownedLines config (← folder.readText path)
      return lines.map fun line => insertion line.node line.pairs

/-- Loads the part of the graph that a configuration describes. -/
def load (folder : Folder) (config : Config) : Except Error Graph := do
  let namespaces ← loadNamespaces folder config.namespaceFile
  let contexts ← loadInsertions folder config .context config.graphFile
  let nodeFeatures ← loadInsertions folder config .nodeFeature config.nodeFeatureFile
  let neighborFeatures ←
    loadInsertions folder config .neighborFeature config.neighborFeatureFile
  build namespaces (contexts ++ nodeFeatures ++ neighborFeatures)

end ShardedGraph.Graph
