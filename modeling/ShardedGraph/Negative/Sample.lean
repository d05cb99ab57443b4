import ShardedGraph.Negative.Pools

/-!
# Samples of negative nodes

A sample for a query node holds nodes of its namespace: as many as are asked for, no two
equal, none excluded. Candidates are drawn one by one, and a draw that repeats or is
excluded is skipped, up to a budget of draws.

**Admission.** A sample is refused before any draw when too few candidates are left that
can be drawn and are not excluded. They are counted only when the number of drawable
candidates does not settle it; that number is compared with the sum of the numbers of
asked and excluded nodes in 64 bits. An admitted sample gets a list with room for all of its
nodes, and no list has room for more than `listLimit` of them.

**Two modes.** Independent samples are taken for every query node. Shared samples are
taken once for every namespace that the query nodes touch, in the order in which they
touch it, and answered by namespace.
-/

set_option autoImplicit false

namespace ShardedGraph

/-- Whether the query nodes of one namespace share a sample. -/
inductive NegativeMode where
  | shared
  | independent
  deriving DecidableEq, Repr

/-! ## Touched namespaces -/

/-- Goes on with the search for namespaces, given the ones found so far. The search ends
when as many namespaces were found as there are slots. -/
def touchFrom (slots : Nat) (found : List (NamespaceId × NodeId)) :
    List NodeId → Except Error (List (NamespaceId × NodeId))
  | [] => .ok found
  | node :: nodes =>
      let ns := namespaceOf node
      if slots ≤ ns.toNat then .error (.namespaceOutside node slots)
      else if found.any fun entry => entry.1 == ns then touchFrom slots found nodes
      else
        let more := found ++ [(ns, node)]
        if more.length = slots then .ok more else touchFrom slots more nodes

/-- The namespaces of nodes in the order in which they are first seen, each with the first
node that has it. -/
def touchedNamespaces (slots : Nat) (nodes : List NodeId) :
    Except Error (List (NamespaceId × NodeId)) :=
  touchFrom slots [] nodes

namespace NegativePools

/-! ## Admission -/

/-- How many draws may be made for each asked node. -/
def drawsPerNode : Nat := 100000

/-- How many draws may be made for a sample. -/
def drawBudget (count : Nat) : Nat := min (count * drawsPerNode) (UInt64.size - 1)

/-- How many candidates of a namespace can be drawn and are not excluded. -/
def countAdmissible (pools : NegativePools) (ns : NamespaceId) (candidates excluded : List NodeId) :
    Except Error Nat := do
  let admissible ← candidates.zipIdx.filterM fun (candidate, index) =>
    if excluded.contains candidate then return false else pools.isDrawable ns index
  return admissible.length

/-- Refuses a sample that the candidates cannot give. -/
def requireCandidates (pools : NegativePools) (ns : NamespaceId) (candidates : List NodeId) (count : Nat)
    (excluded : List NodeId) : Except Error Unit := do
  if (← pools.support ns) < (count + excluded.length) % UInt64.size then
    let admissible ← pools.countAdmissible ns candidates excluded
    if admissible < count then throw (.tooFewCandidates ns admissible count)

/-! ## Samples -/

/-- Draws until enough different nodes were found that are not excluded, or the budget of
draws is used up. -/
def collect (draw : Attempt NodeId) (count : Nat) (excluded : List NodeId) :
    Nat → List NodeId → Attempt (List NodeId)
  | 0, found => fun stream => (.ok found, stream)
  | budget + 1, found => fun stream =>
      match draw stream with
      | (.error error, stream) => (.error error, stream)
      | (.ok node, stream) =>
          if excluded.contains node || found.contains node then
            collect draw count excluded budget found stream
          else if found.length + 1 = count then (.ok (found ++ [node]), stream)
          else collect draw count excluded budget (found ++ [node]) stream

/-- A sample for a query node. -/
def sampleFor (pools : NegativePools) (count : Nat) (excluded : List NodeId) (node : NodeId) :
    Attempt (List NodeId) := do
  let ns := namespaceOf node
  let candidates ← pools.candidates ns
  if count = 0 then return []
  pools.requireCandidates ns candidates count excluded
  if listLimit < count then throw (.poolTooLong count)
  let found ← collect (pools.draw node) count excluded (drawBudget count) []
  if found.length = count then return found
  else throw (.drawsExhausted ns found.length count (drawBudget count))

/-- A sample for each query node. -/
def sampleIndependent (pools : NegativePools) (count : Nat) (nodes excluded : List NodeId) :
    Attempt (List (List NodeId)) :=
  nodes.mapM (pools.sampleFor count excluded)

/-- A sample for each touched namespace, by slot; other slots stay empty. -/
def sampleShared (pools : NegativePools) (count : Nat) (nodes excluded : List NodeId) :
    Attempt (List (List NodeId)) := do
  let slots := pools.source.slots
  let touched ← touchedNamespaces slots nodes
  touched.foldlM
    (fun out entry => do
      let found ← pools.sampleFor count excluded entry.2
      return out.set entry.1.toNat found)
    (List.replicate slots [])

/-- Samples in the given mode. -/
def sample (pools : NegativePools) (mode : NegativeMode) (count : Nat)
    (nodes excluded : List NodeId) : Attempt (List (List NodeId)) :=
  match mode with
  | .shared => pools.sampleShared count nodes excluded
  | .independent => pools.sampleIndependent count nodes excluded

end NegativePools

end ShardedGraph
