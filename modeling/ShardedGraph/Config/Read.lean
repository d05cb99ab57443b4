import ShardedGraph.Config
import ShardedGraph.Files
import ShardedGraph.Json.Value

/-!
# Configurations as JSON

A configuration is written as an object whose members name settings, or as an array of
settings in their order. Settings that are not given keep their defaults.

**Objects.** Members with other names are ignored, whatever their values are, but no
setting may be given twice. **Arrays** may be shorter than the list of settings and not
longer. A kind is written as its name, or as an object whose only member has that name
and the value `null`.
-/

set_option autoImplicit false

namespace ShardedGraph.Config

open Number

/-! ## Values of settings -/

/-- A text. -/
def text? : Json.Value → Option String
  | .string pieces => (Json.characters? pieces).map String.ofList
  | _ => none

/-- A text, or none. -/
def optionalText? : Json.Value → Option (Option String)
  | .null => some none
  | value => (text? value).map some

/-- A truth value. -/
def bool? : Json.Value → Option Bool
  | .bool value => some value
  | _ => none

/-- A natural number of 64 bits. -/
def word? : Json.Value → Option UInt64
  | .number text => (text.toNat? UInt64.size).map UInt64.ofNat
  | _ => none

/-- A double. -/
def double? : Json.Value → Option Double
  | .number text => text.toDouble?
  | _ => none

/-- One of several kinds, by its name. -/
def kind? {κ : Type} (ofName? : String → Option κ) : Json.Value → Option κ
  | .string pieces => (Json.characters? pieces).bind fun name => ofName? (String.ofList name)
  | .object [(pieces, .null)] =>
      (Json.characters? pieces).bind fun name => ofName? (String.ofList name)
  | _ => none

/-! ## Settings -/

/-- A setting: its name, and what giving it a value does. -/
structure Setting where
  name : String
  give? : Config → Json.Value → Option Config

/-- A setting whose values are read by `read?` and stored by `store`. -/
def Setting.of {α : Type} (name : String) (read? : Json.Value → Option α)
    (store : Config → α → Config) : Setting :=
  ⟨name, fun config value => (read? value).map (store config)⟩

/-- The settings in their order. -/
def settings : List Setting :=
  [ .of "node_graph" optionalText? fun c v => { c with graphFile := v },
    .of "node_config" optionalText? fun c v => { c with namespaceFile := v },
    .of "node_feature" optionalText? fun c v => { c with nodeFeatureFile := v },
    .of "neighbor_feature" optionalText? fun c v => { c with neighborFeatureFile := v },
    .of "negative_sampler" (kind? KernelKind.ofName?) fun c v => { c with negativeKernel := v },
    .of "neighbor_sampler" (kind? KernelKind.ofName?) fun c v => { c with neighborKernel := v },
    .of "enable_meta_path" bool? fun c v => { c with pathWalks := v },
    .of "shard_num" word? fun c v => { c with shardCount := v },
    .of "shard_id" word? fun c v => { c with shard := v },
    .of "thread_num" word? fun c v => { c with threads := v },
    .of "ip_ports" text? fun c v => { c with addresses := v },
    .of "cache_type" (kind? HotRule.ofName?) fun c v => { c with hotRule := v },
    .of "cache_thld" double? fun c v => { c with hotThreshold := v },
    .of "max_node_per_rpc" word? fun c v => { c with pageSize := v },
    .of "rpc_timeout_ms" word? fun c v => { c with deadline := v } ]

/-- The setting with the given name. -/
def setting? (name : String) : Option Setting :=
  settings.find? fun setting => setting.name == name

/-! ## Reading -/

/-- Takes a member of an object; `given` are the names of the settings given before. -/
def takeMember? (state : Config × List String) (member : List Json.Piece × Json.Value) :
    Option (Config × List String) := do
  let (config, given) := state
  let name ← (Json.characters? member.1).map String.ofList
  match setting? name with
  | none => return state
  | some setting =>
      if given.contains name then none
      else return (← setting.give? config member.2, name :: given)

/-- Takes the items of an array, one for each setting. -/
def takeItems? (config : Config) : List Setting → List Json.Value → Option Config
  | _, [] => some config
  | [], _ :: _ => none
  | setting :: settings, item :: items => do
      takeItems? (← setting.give? config item) settings items

/-- The configuration that a JSON value stands for. -/
def ofValue? : Json.Value → Option Config
  | .object members => (members.foldlM takeMember? ({}, [])).map Prod.fst
  | .array items => takeItems? {} settings items
  | _ => none

/-- Reads a configuration. -/
def read (text : String) : Except Error Config :=
  match (Json.read? text.toList).bind ofValue? with
  | some config => .ok config
  | none => .error .json

/-- Reads and checks the configuration in a file. -/
def load (folder : Folder) (path : String) : Except Error Config := do
  let config ← read (← folder.readText path)
  config.check
  return config

end ShardedGraph.Config
