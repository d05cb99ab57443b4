import ShardedGraph.Node

/-!
# Requests and replies

A shard answers ten requests with nine replies. Which reply fits which request is
fixed: the two requests for negative nodes share a reply, every other request has a
reply of its own (`Reply.fits`).

A reply is read through one of the functions `Reply.pools?`, `Reply.contexts?` and
so on, which give its content when it has the expected form and nothing otherwise.
-/

set_option autoImplicit false

namespace ShardedGraph

/-! ## Requests -/

/-- A request for negative nodes. -/
structure NegativeQuery where
  count : UInt64
  nodes : List NodeId
  /-- Nodes that must not be drawn. -/
  excluded : List NodeId
  deriving DecidableEq, Repr

/-- A request for neighbors; a negative count asks for all of them. -/
structure NeighborQuery where
  count : Int32
  nodes : List NodeId
  deriving DecidableEq, Repr

/-- A request for walks. -/
structure WalkQuery where
  starts : List NodeId
  /-- Hops wanted from each start. -/
  lengths : List UInt64
  /-- Hops taken before each start; empty when none were. -/
  offsets : List UInt64
  /-- The cycle of namespaces to follow; empty for a free walk. -/
  path : List NamespaceId
  deriving DecidableEq, Repr

/-- A request for a page of a shard's hot nodes. -/
structure PageQuery where
  cursor : UInt64
  count : UInt64
  deriving DecidableEq, Repr

/-- Everything that a shard is asked. -/
inductive Request where
  | metaValue (key : String)
  | sharedNegatives (query : NegativeQuery)
  | independentNegatives (query : NegativeQuery)
  | neighbors (query : NeighborQuery)
  | walks (query : WalkQuery)
  | features (nodes : List NodeId)
  | nodeFeatures (nodes : List NodeId)
  | neighborFeatures (nodes : List NodeId)
  | contexts (nodes : List NodeId)
  | hotNodes (query : PageQuery)
  deriving DecidableEq, Repr

/-! ## Replies -/

/-- Everything that a shard answers. -/
inductive Reply where
  | metaValue (value : String)
  /-- Nodes by namespace, or by query node. -/
  | negatives (pools : List (List NodeId))
  | neighbors (lists : List (List NodeId))
  /-- The hops after each start. -/
  | walks (hops : List (List NodeId))
  | features (ofNodes ofNeighbors : List Feature)
  | nodeFeatures (found : List Feature)
  | neighborFeatures (found : List Feature)
  | contexts (found : List Context)
  | hotNodes (nodes : List NodeId)
  deriving DecidableEq, Repr

namespace Reply

def metaValue? : Reply → Option String
  | metaValue value => some value
  | _ => none

def pools? : Reply → Option (List (List NodeId))
  | negatives pools => some pools
  | _ => none

def neighbors? : Reply → Option (List (List NodeId))
  | neighbors lists => some lists
  | _ => none

def walks? : Reply → Option (List (List NodeId))
  | walks hops => some hops
  | _ => none

def features? : Reply → Option (List Feature × List Feature)
  | features ofNodes ofNeighbors => some (ofNodes, ofNeighbors)
  | _ => none

def nodeFeatures? : Reply → Option (List Feature)
  | nodeFeatures found => some found
  | _ => none

def neighborFeatures? : Reply → Option (List Feature)
  | neighborFeatures found => some found
  | _ => none

def contexts? : Reply → Option (List Context)
  | contexts found => some found
  | _ => none

def hotNodes? : Reply → Option (List NodeId)
  | hotNodes nodes => some nodes
  | _ => none

/-- Whether a reply has the form that a request asks for. -/
def fits (request : Request) (reply : Reply) : Bool :=
  match request with
  | .metaValue _ => reply.metaValue?.isSome
  | .sharedNegatives _ | .independentNegatives _ => reply.pools?.isSome
  | .neighbors _ => reply.neighbors?.isSome
  | .walks _ => reply.walks?.isSome
  | .features _ => reply.features?.isSome
  | .nodeFeatures _ => reply.nodeFeatures?.isSome
  | .neighborFeatures _ => reply.neighborFeatures?.isSome
  | .contexts _ => reply.contexts?.isSome
  | .hotNodes _ => reply.hotNodes?.isSome

end Reply

namespace Request

/-- The name of the operation that answers a request. -/
def operation : Request → String
  | metaValue _ => "MetaLookuper"
  | sharedNegatives _ => "SharedNegativeSampler"
  | independentNegatives _ => "IndepNegativeSampler"
  | neighbors _ => "RandomNeighborSampler"
  | walks _ => "StaticRandomWalker"
  | features _ => "FeatureLookuper"
  | nodeFeatures _ => "NodeFeatureLookuper"
  | neighborFeatures _ => "NeighborFeatureLookuper"
  | contexts _ => "ContextLookuper"
  | hotNodes _ => "CacheNodeLookuper"

/-- The name of a request in messages about its reply. -/
def label : Request → String
  | metaValue _ => "MetaLookup"
  | sharedNegatives _ => "SharedNegativeSample"
  | independentNegatives _ => "IndepNegativeSample"
  | neighbors _ => "RandomNeighborSample"
  | walks _ => "StaticRandomWalk"
  | features _ => "LookupFeature"
  | nodeFeatures _ => "LookupNodeFeature"
  | neighborFeatures _ => "LookupNeighborFeature"
  | contexts _ => "LookupContext"
  | hotNodes _ => "CacheNodeLookup"

end Request

end ShardedGraph
