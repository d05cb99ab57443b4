import ShardedGraph.Transport
import ShardedGraph.Wire.Message

/-!
# Shards in the same process

A service answers requests. A transport to services in the same process calls them
directly, but sends requests and replies through their octets, so that clients see what
they would see over a network. An error of a service is reported with the number of its
shard. Nothing stands between a service and its client, so a service that stops is not
reported: its client stops as well.
-/

set_option autoImplicit false

namespace ShardedGraph

/-- Something that answers requests. -/
abbrev Service : Type := Request → Attempt Reply

namespace Service

/-- A service that knows no request. -/
def unhandling : Service := fun request => throw (.unhandled request.operation)

end Service

namespace Transport

/-- A message as it arrives after being written and read. -/
def throughWire {α : Type} (codec : Wire.Codec α) (message : α) : Except Error α :=
  Wire.read codec (codec.encode message)

/-- What a service answers to a request that a shard receives. -/
def serve (service : Service) (shard : Nat) (request : Request) : Attempt Reply := do
  let received ← throughWire Wire.request request
  let answer ← ExceptT.adapt (Error.ofShard shard) (service received)
  throughWire Wire.reply answer

/-- The transport to a list of services, which draw from one stream. -/
def inProcess (services : List Service) : Transport WordStream where
  shards := services.length
  call shard request :=
    match services[shard]? with
    | none => return .now (.error (.unknownShard shard services.length))
    | some service => do return .now (← (serve service shard request).run)

end Transport

end ShardedGraph
