import ShardedGraph.Kind
import ShardedGraph.Message.Dump
import ShardedGraph.Text.Duration
import ShardedGraph.Text.Utf8

/-!
# Errors

An error is a cause: a constructor with the values that its wording needs. Each cause
belongs to one class (`Error.kind`), which opens its wording (`Error.message`).

**Errors of other parties.** A shard that fails in the same process is reported with
its own error (`Error.remote`); a shard that answers over the network is reported with
the status and the text that it sent (`Error.refused`).

**Stops.** Room for a list that is longer than any list can be is not an error that is
answered: the program stops there (`ErrorKind.stop`). A shard in the same process stops its
client with it (`Error.ofShard`).
-/

set_option autoImplicit false

namespace ShardedGraph

open Number

/-- The classes of errors. -/
inductive ErrorKind where
  | config
  | data
  | rpc
  | capacity
  | rangeUnsupported
  | io
  | codec
  | json
  | http
  /-- Nothing is answered, the program stops. -/
  | stop
  deriving DecidableEq, Repr

/-- Why octets are not a message. -/
inductive CodecFault where
  /-- The octets end too early. -/
  | endOfInput
  /-- A text is longer than the octets that are left. -/
  | textPastEnd
  /-- A text is not UTF-8. -/
  | notText (fault : Text.Utf8Fault)
  /-- No message has this number among `limit` of them. -/
  | unknownForm (tag limit : Nat)
  deriving DecidableEq, Repr

/-- Why a file was not read. -/
inductive FileFault where
  | missing
  | folder
  | notInFolder
  | tooLong
  | nullCharacter
  | notText
  deriving DecidableEq, Repr

/-- Everything that can go wrong. -/
inductive Error where
  | noShards
  | unknownKernel (code : Int)
  | unknownHotRule (code : Int)
  | zeroShardNumber
  | shardOutOfRange (shard shards : Nat)
  | badThreshold (threshold : Double)
  | zeroPageSize
  | walksNeedRanges (kind : KernelKind)
  | addressCount (addresses shards : Nat)
  | noAddresses
  | namespaceTooLarge (ns : NamespaceId)
  | repeatedName (name : String)
  | repeatedNamespace (ns : NamespaceId)
  | badNamespaceLine (line : Nat) (text : String)
  | badNamespaceNumber (line : Nat) (text : String)
  | badNode (line : String)
  | badPair (token : String) (node : NodeId)
  | unknownNamespace (node : NodeId)
  | noWeights (kind : KernelKind)
  | badWeight (kind : KernelKind) (weight : Single)
  | noMass (kind : KernelKind)
  | tableTooLarge (kind : KernelKind) (entries : Nat)
  | badRange (first last size : Nat)
  | noMassInRange (first last : Nat)
  | rangeUnsupported (kind : KernelKind)
  | badHotThreshold (threshold : Double)
  | nothingHot (rule : HotRule) (threshold : Double) (nodes : Nat)
  | tableSlots (slots nodes frequencies : Nat)
  | tableLengths (ns nodes frequencies : Nat)
  | misplacedNode (node : NodeId) (ns : Nat)
  | repeatedNode (node : NodeId)
  | uncountedNamespace (node : NodeId)
  | noKeys
  | unconfiguredNamespace (ns : NamespaceId)
  | noCandidates (ns : NamespaceId)
  | badPoolRange (first last : Nat) (ns : NamespaceId) (size : Nat)
  | noTable (ns : NamespaceId)
  | badFrequency (ns : NamespaceId) (name : String) (frequency : Single)
  | tooFewCandidates (ns : NamespaceId) (admissible count : Nat)
  | poolTooLong (count : Nat)
  | drawsExhausted (ns : NamespaceId) (found count draws : Nat)
  | namespaceOutside (node : NodeId) (namespaces : Nat)
  | noContext (node : NodeId)
  | emptyContext (node : NodeId)
  | badEdge (node neighbor : NodeId) (weight : Single)
  | badContextRange (first last : Nat) (node : NodeId) (size : Nat)
  | noNeighbors (nodes : Nat)
  | walkSizes (starts lengths offsets : Nat)
  | freeWalksOnly
  | walkTooLong (hops : Nat)
  | walkLengths (starts lengths : Nat)
  | isolatedStart (node : NodeId)
  | unknownMetaKey (key : String)
  | noContexts (nodes : Nat)
  | cursorPastEnd (cursor nodes : Nat)
  | unhandled (operation : String)
  | requestCount (requests shards : Nat)
  | unknownShard (shard shards : Nat)
  | unanswered (shard : Nat)
  | timedOut (shard milliseconds : Nat)
  | mismatched (request : String) (reply : Reply)
  | failed (text : String)
  | remote (shard : Nat) (cause : Error)
  | refused (shard : Nat) (status text : String)
  | entryCount (shard answered requested : Nat)
  | badPosition (shard position size : Nat)
  | walkCount (shard answered requested : Nat)
  | badPageSize (shard : Nat) (text : String)
  | zeroPageSizeOf (shard : Nat)
  | pageSizesDiffer (first other : Nat)
  | badFrequencies (shard : Nat) (text : String)
  | noNamespaces
  | namespaceCount (shard namespaces expected : Nat)
  | emptyNamespace (ns : NamespaceId)
  | poolCount (shard answered : Nat) (ns : NamespaceId) (requested : Nat)
  | overfullPage (shard answered page : Nat)
  | file (fault : FileFault)
  | codec (fault : CodecFault)
  | json
  | http
  deriving DecidableEq, Repr

namespace CodecFault

/-- The wording of a fault. -/
def message : CodecFault → String
  | endOfInput => "io error: unexpected end of file"
  | textPastEnd => "io error: "
  | notText fault => "string is not valid utf8: " ++ fault.message
  | unknownForm tag limit =>
      s!"invalid value: integer `{tag}`, expected variant index 0 <= i < {limit}"

end CodecFault

namespace FileFault

/-- The wording of a fault. -/
def message : FileFault → String
  | missing => "No such file or directory (os error 2)"
  | folder => "Is a directory (os error 21)"
  | notInFolder => "Not a directory (os error 20)"
  | tooLong => "File name too long (os error 36)"
  | nullCharacter => "file name contained an unexpected NUL byte"
  | notText => "stream did not contain valid UTF-8"

end FileFault

namespace Error

/-! ## Classes -/

/-- The class of an error. -/
def kind : Error → ErrorKind
  | noShards | unknownKernel _ | unknownHotRule _ | zeroShardNumber | shardOutOfRange _ _
  | badThreshold _ | zeroPageSize | walksNeedRanges _ | addressCount _ _ | noAddresses
  | namespaceTooLarge _ | repeatedName _ | repeatedNamespace _ | badNamespaceLine _ _
  | badNamespaceNumber _ _ | noWeights _ | badHotThreshold _ | nothingHot _ _ _
  | freeWalksOnly | zeroPageSizeOf _ | pageSizesDiffer _ _ => .config
  | badNode _ | badPair _ _ | unknownNamespace _ | badWeight _ _ | noMass _ | badRange _ _ _
  | noMassInRange _ _ | tableSlots _ _ _ | tableLengths _ _ _ | misplacedNode _ _
  | repeatedNode _ | uncountedNamespace _ | noKeys | unconfiguredNamespace _
  | noCandidates _ | badPoolRange _ _ _ _ | noTable _ | badFrequency _ _ _
  | tooFewCandidates _ _ _ | drawsExhausted _ _ _ _ | namespaceOutside _ _ | noContext _
  | emptyContext _ | badEdge _ _ _ | badContextRange _ _ _ _ | noNeighbors _
  | walkSizes _ _ _ | walkLengths _ _ | isolatedStart _ | unknownMetaKey _ | noContexts _
  | cursorPastEnd _ _ | unhandled _ | noNamespaces | namespaceCount _ _ _
  | emptyNamespace _ => .data
  | requestCount _ _ | unknownShard _ _ | unanswered _ | timedOut _ _ | mismatched _ _
  | failed _ | remote _ _ | refused _ _ _ | entryCount _ _ _ | badPosition _ _ _
  | walkCount _ _ _ | badPageSize _ _ | badFrequencies _ _ | poolCount _ _ _ _
  | overfullPage _ _ _ => .rpc
  | tableTooLarge _ _ => .capacity
  | rangeUnsupported _ => .rangeUnsupported
  | file _ => .io
  | codec _ => .codec
  | json => .json
  | http => .http
  | poolTooLong _ | walkTooLong _ => .stop

/-- Whether the program stops. -/
def stops (error : Error) : Bool := decide (error.kind = .stop)

/-- What a client in the same process hears of an error of a shard: a stop ends the client as it
ends the shard, and any other error is reported. -/
def ofShard (shard : Nat) (error : Error) : Error :=
  if error.stops then error else remote shard error

/-- How the wording of a class begins. -/
def opening : ErrorKind → String
  | .config => "config error: "
  | .data => "data error: "
  | .rpc => "rpc error: "
  | .capacity => "capacity error: "
  | .rangeUnsupported => ""
  | .io => "io error: "
  | .codec => "codec error: "
  | .json => "json error: "
  | .http => "http error: "
  | .stop => ""

/-! ## Wording -/

/-- What a kernel needs and did not get. -/
def massWording : KernelKind → String
  | .unigram => "unigram sampling needs at least one non-zero frequency"
  | .prefixSum => "partial sum sampling needs a positive probability mass"
  | kind => kind.name ++ " sampling needs a positive probability mass"

/-- What a table of this many entries exceeds. -/
def sizeWording (entries : Nat) : KernelKind → String
  | .unigram => s!"unigram table cannot index {entries} entries"
  | kind => kind.name ++ s!" table of {entries} buckets exceeds {UInt32.size - 1}"

/-- The wording of an error, with the opening of its class. -/
def message (error : Error) : String :=
  opening error.kind ++
  match error with
  | noShards => "shard count must be > 0"
  | unknownKernel code =>
      s!"sampling type must be one of UNIFORM(0), ALIAS(1), UNIGRAM(2), PARTIAL_SUM(3), got {code}"
  | unknownHotRule code =>
      s!"cache type must be one of RANDOM(0), DEGREE(1), IMPORTANCE(2), got {code}"
  | zeroShardNumber => "shard_num must be > 0"
  | shardOutOfRange shard shards => s!"shard_id must be < shard_num, got {shard} vs {shards}"
  | badThreshold threshold => "cache_thld must be >= 0, got " ++ threshold.text
  | zeroPageSize => "max_node_per_rpc must be > 0"
  | walksNeedRanges kind =>
      "meta-path walks need ranged draws, which the " ++ kind.name
        ++ " neighbor sampler does not support"
  | addressCount addresses shards => s!"ip_ports lists {addresses} shards, shard_num is {shards}"
  | noAddresses => "no shard addresses given"
  | namespaceTooLarge ns => s!"namespace id {ns} exceeds {namespaceLimit - 1}"
  | repeatedName name => s!"duplicate namespace name: {name}"
  | repeatedNamespace ns => s!"duplicate namespace id: {ns}"
  | badNamespaceLine line text =>
      s!"namespace config line {line}: expected `name id`, got `{text}`"
  | badNamespaceNumber line text => s!"namespace config line {line}: bad id `{text}`"
  | badNode line => s!"bad node id in line `{line}`"
  | badPair token node => s!"bad `id:value` token `{token}` for node {node}"
  | unknownNamespace node =>
      s!"node {node} has namespace {namespaceOf node} which is not configured"
  | noWeights kind => kind.name ++ " sampling needs a non-empty probability vector"
  | badWeight kind weight =>
      kind.name ++ " sampling got an invalid probability: " ++ weight.text
  | noMass kind => massWording kind
  | tableTooLarge kind entries => sizeWording entries kind
  | badRange first last size =>
      s!"sampling range [{first}, {last}) is empty or exceeds table size {size}"
  | noMassInRange first last => s!"sampling range [{first}, {last}) has no probability mass"
  | rangeUnsupported kind =>
      "ranged draw is not supported by the " ++ kind.name ++ " sampling kernel"
  | badHotThreshold threshold => "cache threshold must be >= 0, got " ++ threshold.text
  | nothingHot rule threshold nodes =>
      rule.name ++ " cache threshold " ++ threshold.text
        ++ s!" selects nothing from {nodes} nodes"
  | tableSlots slots nodes frequencies =>
      s!"freq table needs {slots} namespace slots, got {nodes} node lists and "
        ++ s!"{frequencies} freq lists"
  | tableLengths ns nodes frequencies =>
      s!"namespace {ns} has {nodes} nodes but {frequencies} frequencies"
  | misplacedNode node ns => s!"node {node} listed under namespace {ns}"
  | repeatedNode node => s!"duplicate node {node} in freq table"
  | uncountedNamespace node => s!"node {node} has unconfigured namespace {namespaceOf node}"
  | noKeys => "a frequency table has no node keys"
  | unconfiguredNamespace ns => s!"namespace {ns} is not configured"
  | noCandidates ns => s!"namespace {ns} has no candidate nodes"
  | badPoolRange first last ns size =>
      s!"range [{first}, {last}) outside namespace {ns} of {size} nodes"
  | noTable ns => s!"namespace {ns} has no sampling table"
  | badFrequency ns name frequency =>
      s!"namespace {ns} ({name}) has a non-positive frequency " ++ frequency.text
  | tooFewCandidates ns admissible count =>
      s!"namespace {ns} has {admissible} admissible candidates, {count} requested"
  | poolTooLong _ | walkTooLong _ => "capacity overflow"
  | drawsExhausted ns found count draws =>
      s!"namespace {ns}: {found} of {count} distinct negatives after {draws} draws"
  | namespaceOutside node namespaces =>
      s!"node {node} has namespace {namespaceOf node}, outside the {namespaces} configured"
  | noContext node => s!"node {node} has no context"
  | emptyContext node => s!"node {node} has an empty context"
  | badEdge node neighbor weight =>
      s!"edge {node} -> {neighbor} has non-positive weight " ++ weight.text
  | badContextRange first last node size =>
      s!"range [{first}, {last}) outside context of node {node} with {size} neighbors"
  | noNeighbors nodes => s!"none of the {nodes} query nodes has neighbors"
  | walkSizes starts lengths offsets =>
      s!"walk batch sizes differ: {starts} nodes, {lengths} lengths, {offsets} offsets"
  | freeWalksOnly => "this walker was not built for meta-path walks"
  | walkLengths starts lengths => s!"{starts} start nodes but {lengths} walk lengths"
  | isolatedStart node => s!"isolated start node {node}"
  | unknownMetaKey key => s!"unknown meta key: {key}"
  | noContexts nodes => s!"none of the {nodes} nodes has a context"
  | cursorPastEnd cursor nodes => s!"cursor {cursor} is past the {nodes} cache nodes"
  | unhandled operation => s!"no handler for {operation}"
  | requestCount requests shards => s!"{requests} requests for {shards} shards"
  | unknownShard shard shards => s!"no shard {shard} in a cluster of {shards}"
  | unanswered shard => s!"shard {shard} did not answer"
  | timedOut shard milliseconds =>
      s!"shard {shard} timed out after " ++ Text.duration milliseconds
  | mismatched request reply => s!"{request} got a mismatched response: " ++ reply.dump
  | failed text => text
  | remote shard cause => s!"shard {shard}: " ++ cause.message
  | refused shard status text => s!"shard {shard} answered {status}: {text}"
  | entryCount shard answered requested =>
      s!"shard {shard} answered {answered} entries for {requested} requested"
  | badPosition shard position size =>
      s!"shard {shard} answered for position {position} outside a batch of {size}"
  | walkCount shard answered requested =>
      s!"shard {shard} answered {answered} walks for {requested} requested"
  | badPageSize shard text => s!"shard {shard} sent a bad max_node_per_rpc: {text}"
  | zeroPageSizeOf shard => s!"shard {shard} has max_node_per_rpc 0"
  | pageSizesDiffer first other => s!"shards disagree on max_node_per_rpc: {first} vs {other}"
  | badFrequencies shard text => s!"shard {shard} sent bad node freqs: {text}"
  | noNamespaces => "shards report no namespaces"
  | namespaceCount shard namespaces expected =>
      s!"shard {shard} reports {namespaces} namespaces, shard 0 reports {expected}"
  | emptyNamespace ns => s!"no shard holds nodes of namespace {ns}"
  | poolCount shard answered ns requested =>
      s!"shard {shard} sampled {answered} nodes of namespace {ns}, {requested} requested"
  | overfullPage shard answered page =>
      s!"shard {shard} returned {answered} cache nodes for a page of {page}"
  | file fault => fault.message
  | codec fault => fault.message
  | json => "the text is no configuration"
  | http => "the shard was not reached"

end Error

end ShardedGraph
