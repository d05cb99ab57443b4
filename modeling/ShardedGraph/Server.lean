import ShardedGraph.Config.Read
import ShardedGraph.Http
import ShardedGraph.Partition
import ShardedGraph.SocketAddress

/-!
# Servers

A server is a shard that is ready to listen: it has the address that the configuration
gives for its number and the partition that it answers from. Everything that can keep it
from listening is found out here, in order: the configuration, the address, the files.
-/

set_option autoImplicit false

namespace ShardedGraph

/-- Why a server cannot be set up. -/
inductive ServerError where
  | failed (error : Error)
  /-- Fewer addresses are given than the number of the shard needs. -/
  | noAddress (shard addresses : Nat)
  | badAddress
  deriving DecidableEq, Repr

/-- The wording of an error. -/
def ServerError.message : ServerError → String
  | failed error => error.message
  | noAddress shard addresses =>
      s!"no address for shard {shard} in ip_ports ({addresses} given)"
  | badAddress => "invalid socket address syntax"

/-- A shard that is ready to listen. -/
structure Server where
  address : SocketAddress
  partition : Partition

namespace Server

/-- The address that a configuration gives for its shard. -/
def addressOf (config : Config) : Except ServerError SocketAddress :=
  let addresses := config.shardAddresses
  match addresses[config.shard.toNat]? with
  | none => .error (.noAddress config.shard.toNat addresses.length)
  | some text =>
      match SocketAddress.read? text with
      | none => .error .badAddress
      | some address => .ok address

/-- Sets a server up from the files of a folder. -/
def setUp (folder : Folder) (config : Config) (stream : WordStream) :
    Except ServerError Server := do
  config.check.mapError ServerError.failed
  let address ← addressOf config
  let partition ← (Partition.load folder config stream).mapError ServerError.failed
  return { address, partition }

/-- Answers a request for a route; `report` is what the runtime says of a task that has stopped. -/
def route (server : Server) (report : Error → String) (method target : String)
    (body : List UInt8) : Draw Http.Response :=
  Http.route report server.partition.answer method target body

end Server

end ShardedGraph
