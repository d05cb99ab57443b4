import ShardedGraph.Kernel
import ShardedGraph.Number.Power
import ShardedGraph.Source

/-!
# Pools of negative nodes

A pool is the list of the nodes of one namespace, its candidates, with a way to draw one
of them. Uniform pools draw from the list itself. Pools of the other kinds keep a kernel
for every configured namespace that has nodes, whose weights are the frequencies of the
nodes to the power three quarters, divided by their sum.
-/

set_option autoImplicit false

namespace ShardedGraph

open Number

/-- The pools of all namespaces of a source. -/
structure NegativePools where
  source : Source
  kind : KernelKind
  /-- For each slot, the kernel of its pool; no slots for uniform pools. -/
  tables : List (Option Kernel)

namespace NegativePools

/-! ## Building -/

/-- The dampened frequencies of a pool, divided by their sum. -/
def dampened (frequencies : List Single) : List Single :=
  let powers := frequencies.map Single.powThreeQuarters
  let sum := powers.foldl (· + ·) 0
  powers.map fun power => power / sum

/-- The kernel of a slot, if its namespace is configured and has nodes. -/
def buildTable (source : Source) (kind : KernelKind) (slot : Nat) :
    Except Error (Option Kernel) :=
  let ns := UInt16.ofNat slot
  match source.namespaces.name? ns, (source.frequencies[slot]?).getD [] with
  | none, _ | _, [] => .ok none
  | some name, frequencies =>
      match frequencies.find? fun frequency => !decide (0 < frequency) with
      | some bad => .error (.badFrequency ns name bad)
      | none => some <$> Kernel.build kind (dampened frequencies)

/-- Builds the pools of a source. -/
def build (source : Source) (kind : KernelKind) : Except Error NegativePools :=
  match kind with
  | .uniform => .ok ⟨source, .uniform, []⟩
  | kind => do
      let tables ← (List.range source.slots).mapM (buildTable source kind)
      return ⟨source, kind, tables⟩

/-! ## Queries -/

/-- The nodes of a namespace that may be drawn. -/
def candidates (pools : NegativePools) (ns : NamespaceId) : Except Error (List NodeId) :=
  if pools.source.namespaces.contains ns then
    match (pools.source.nodes[ns.toNat]?).getD [] with
    | [] => .error (.noCandidates ns)
    | nodes => .ok nodes
  else .error (.unconfiguredNamespace ns)

/-- The kernel of a namespace; none for uniform pools. -/
def table (pools : NegativePools) (ns : NamespaceId) : Except Error (Option Kernel) :=
  if pools.kind = .uniform then .ok none
  else
    match (pools.tables[ns.toNat]?).join with
    | some kernel => .ok (some kernel)
    | none => .error (.noTable ns)

/-- How many candidates of a namespace a draw can give. -/
def support (pools : NegativePools) (ns : NamespaceId) : Except Error Nat := do
  let candidates ← pools.candidates ns
  match ← pools.table ns with
  | some kernel => return kernel.support
  | none => return candidates.length

/-- Whether a draw can give the candidate at an index. -/
def isDrawable (pools : NegativePools) (ns : NamespaceId) (index : Nat) :
    Except Error Bool := do
  let candidates ← pools.candidates ns
  match ← pools.table ns with
  | some kernel => return kernel.isReachable index
  | none => return decide (index < candidates.length)

/-! ## Draws -/

/-- Draws a candidate of the namespace of a node. -/
def draw (pools : NegativePools) (node : NodeId) : Attempt NodeId := do
  let ns := namespaceOf node
  let candidates ← pools.candidates ns
  match ← pools.table ns with
  | some kernel => return candidates.getD (← kernel.draw) 0
  | none => return candidates.getD (← WordStream.below candidates.length) 0

/-- Draws a candidate at an index at least `first` and below `last`. -/
def drawBetween (pools : NegativePools) (node : NodeId) (first last : Nat) :
    Attempt NodeId := do
  let ns := namespaceOf node
  let candidates ← pools.candidates ns
  if last ≤ first ∨ candidates.length < last then
    throw (.badPoolRange first last ns candidates.length)
  match ← pools.table ns with
  | some kernel => return candidates.getD (← kernel.drawBetween first last) 0
  | none => return candidates.getD (← WordStream.between first last) 0

end NegativePools

end ShardedGraph
