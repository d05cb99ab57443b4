import ShardedGraph.Error

/-!
# Routing

A node belongs to the shard that its identifier leaves as a remainder. A batch is a list
of items, each sent to a shard and taken from a position; its slice for a shard holds the
items for that shard in order. After the shards have answered, the answers of a slice are
written back to the positions its items were taken from.

**Splitting and writing back** cancel: whatever the order in which slices are written,
each position receives the answer for its own item.
-/

set_option autoImplicit false

namespace ShardedGraph

/-- The shard, among `shards` of them, that a node belongs to. -/
def ownerOf (shards : Nat) (node : NodeId) : Nat := node.toNat % shards

/-- The shard that a node belongs to; without shards there is none. -/
def shardOf (shards : Nat) (node : NodeId) : Except Error Nat :=
  if shards = 0 then .error .noShards else .ok (ownerOf shards node)

/-! ## Batches -/

/-- An item of a batch, with the shard it goes to and the position it comes from. -/
structure Parcel (α : Type) where
  shard : Nat
  position : Nat
  item : α
  deriving DecidableEq, Repr

/-- Items on their way to the shards of a cluster. -/
structure Batch (α : Type) where
  shards : Nat
  parcels : List (Parcel α)
  deriving DecidableEq, Repr

namespace Batch

variable {α β : Type}

/-- The parcels for a shard, in order. -/
def slice (batch : Batch α) (shard : Nat) : List (Parcel α) :=
  batch.parcels.filter fun parcel => parcel.shard == shard

/-- The slices of all shards. -/
def slices (batch : Batch α) : List (List (Parcel α)) :=
  (List.range batch.shards).map batch.slice

/-- How many items each shard gets. -/
def sizes (batch : Batch α) : List Nat := batch.slices.map List.length

/-- Whether there is no item. -/
def isEmpty (batch : Batch α) : Bool := batch.parcels.isEmpty

/-- The positions that the items of each shard come from. -/
def positions (batch : Batch α) : List (List Nat) :=
  batch.slices.map fun slice => slice.map Parcel.position

/-- One request for each shard that gets items. -/
def requests (batch : Batch α) (make : List α → β) : List (Option β) :=
  batch.slices.map fun slice =>
    if slice.isEmpty then none else some (make (slice.map Parcel.item))

/-- The batch of all nodes of a list, each going to the shard it belongs to. -/
def ofNodes (shards : Nat) (nodes : List NodeId) : Except Error (Batch NodeId) := do
  let parcels ← nodes.zipIdx.mapM fun (node, position) => do
    return ⟨← shardOf shards node, position, node⟩
  return ⟨shards, parcels⟩

end Batch

/-! ## Writing back -/

variable {α : Type}

/-- Writes values to their positions, in order, up to the first position outside. -/
def writeAll (shard : Nat) (out : List α) : List (Nat × α) → Except Error Unit × List α
  | [] => (.ok (), out)
  | (position, value) :: rest =>
      if position < out.length then writeAll shard (out.set position value) rest
      else (.error (.badPosition shard position out.length), out)

/-- Writes the answers of a shard to the positions of its slice. The numbers of answers
and positions must agree; a failed writing leaves what it has written so far. -/
def gather (shard : Nat) (positions : List Nat) (values : List α) (out : List α) :
    Except Error Unit × List α :=
  if positions.length = values.length then writeAll shard out (positions.zip values)
  else (.error (.entryCount shard values.length positions.length), out)

/-- Lets every shard that answered change a value in turn. -/
def eachAnswer {β : Type} (positions : List (List Nat)) (answers : List (Option α)) (out : β)
    (write : Nat → List Nat → α → β → Except Error β) : Except Error β :=
  (positions.zip answers).zipIdx.foldlM
    (fun out ((positions, answer), shard) =>
      match answer with
      | some answer => write shard positions answer out
      | none => .ok out)
    out

end ShardedGraph
