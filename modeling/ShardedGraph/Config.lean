import ShardedGraph.Error
import ShardedGraph.Text.Blank
import ShardedGraph.Text.Separated

/-!
# Configurations

A configuration says which files a shard reads, which kernels it draws with, which part
of the graph it owns, which nodes clients keep at hand and how long a client waits. The
same configuration serves shards and clients.

`Config.check` makes the tests that come before anything is built. They are ordered, and
the first that fails is reported.
-/

set_option autoImplicit false

namespace ShardedGraph

open Number

/-- The settings of a shard or a client. -/
structure Config where
  /-- The file of contexts. -/
  graphFile : Option String := none
  /-- The file of the namespace table. -/
  namespaceFile : Option String := none
  nodeFeatureFile : Option String := none
  neighborFeatureFile : Option String := none
  negativeKernel : KernelKind := .aliased
  neighborKernel : KernelKind := .aliased
  /-- Whether walks may follow a cycle of namespaces. -/
  pathWalks : Bool := false
  shardCount : UInt64 := 1
  shard : UInt64 := 0
  /-- How many workers build tables; zero leaves the number open. -/
  threads : UInt64 := 0
  /-- The addresses of the shards, separated by semicolons. -/
  addresses : String := ""
  hotRule : HotRule := .degree
  /-- How many nodes are hot; zero turns hot nodes off. -/
  hotThreshold : Double := 0
  /-- How many nodes one request carries at most. -/
  pageSize : UInt64 := 2000
  /-- How many milliseconds a client waits for a shard; zero is without limit. -/
  deadline : UInt64 := 60000
  deriving DecidableEq, Repr

namespace Config

/-- Refuses settings that cannot work. -/
def check (config : Config) : Except Error Unit :=
  if config.shardCount = 0 then .error .zeroShardNumber
  else if config.shardCount ≤ config.shard then
    .error (.shardOutOfRange config.shard.toNat config.shardCount.toNat)
  else if ¬ 0 ≤ config.hotThreshold then .error (.badThreshold config.hotThreshold)
  else if config.pageSize = 0 then .error .zeroPageSize
  else if config.pathWalks && !config.neighborKernel.supportsRange then
    .error (.walksNeedRanges config.neighborKernel)
  else .ok ()

/-- The deadline in milliseconds, if there is one. -/
def deadline? (config : Config) : Option Nat :=
  if config.deadline = 0 then none else some config.deadline.toNat

/-- The number of workers, if it is set. -/
def workers? (config : Config) : Option Nat :=
  if config.threads = 0 then none else some config.threads.toNat

end Config

/-- The addresses in a list separated by semicolons. Outer blanks do not count, and
entries without other characters are dropped. -/
def readAddresses (text : String) : List String :=
  ((Text.separated ';' text.toList).map Text.trim).filterMap fun address =>
    if address.isEmpty then none else some (String.ofList address)

/-- The addresses of the shards, in the order of the shards. -/
def Config.shardAddresses (config : Config) : List String := readAddresses config.addresses

end ShardedGraph
