import ShardedGraph.Message
import ShardedGraph.Number.Text
import ShardedGraph.Text.Quoted

/-!
# Replies as text

A message about an unexpected reply shows the whole reply: its form, the name of its
content and its fields by name. Lists stand in brackets, pairs in parentheses, texts
between quotes, and every number keeps a point or an exponent.
-/

set_option autoImplicit false

namespace ShardedGraph

open Number

namespace Dump

/-- A list in brackets. -/
def list {α : Type} (item : α → String) (items : List α) : String :=
  "[" ++ ", ".intercalate (items.map item) ++ "]"

/-- A list of nodes. -/
def nodes (nodes : List NodeId) : String := list toString nodes

/-- A list of lists of nodes. -/
def nodeLists (lists : List (List NodeId)) : String := list nodes lists

/-- A list of weighted entries. -/
def weighted (entries : List (UInt64 × Single)) : String :=
  list (fun entry => "(" ++ toString entry.1 ++ ", " ++ entry.2.dump ++ ")") entries

/-- A record with named fields. -/
def record (name : String) (fields : List (String × String)) : String :=
  name ++ " \x7b "
    ++ ", ".intercalate (fields.map fun field => field.1 ++ ": " ++ field.2) ++ " \x7d"

/-- A form around its content. -/
def form (name content : String) : String := name ++ "(" ++ content ++ ")"

end Dump

open Dump in
/-- A reply as text. -/
def Reply.dump : Reply → String
  | .metaValue value =>
      form "MetaLookup" (record "MetaLookupResponse" [("value", Text.quote value)])
  | .negatives pools =>
      form "NegativeSample"
        (record "NegativeSampleResponse" [("sampled_nodes_list", nodeLists pools)])
  | .neighbors lists =>
      form "RandomNeighborSample"
        (record "NeighborSampleResponse" [("neighbor_nodes_list", nodeLists lists)])
  | .walks hops =>
      form "StaticRandomWalk" (record "RandomWalkResponse" [("seqs", nodeLists hops)])
  | .features ofNodes ofNeighbors =>
      form "LookupFeature"
        (record "FeatureResponse"
          [("node_feats", list weighted ofNodes), ("neigh_feats", list weighted ofNeighbors)])
  | .nodeFeatures found =>
      form "LookupNodeFeature"
        (record "NodeFeatureResponse" [("node_feats", list weighted found)])
  | .neighborFeatures found =>
      form "LookupNeighborFeature"
        (record "NeighborFeatureResponse" [("neigh_feats", list weighted found)])
  | .contexts found =>
      form "LookupContext" (record "ContextResponse" [("contexts", list weighted found)])
  | .hotNodes found =>
      form "CacheNodeLookup" (record "CacheNodeResponse" [("nodes", nodes found)])

end ShardedGraph
