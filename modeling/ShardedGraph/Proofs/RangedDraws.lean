import ShardedGraph.Proofs.Faults
import ShardedGraph.Proofs.FirstSeen
import ShardedGraph.Proofs.Paths

/-!
# Draws from ranges

Only uniform kernels and prefix sums draw from ranges. Ranges are drawn from by walks along
namespaces alone, and by those of a walker that follows namespaces.

**The guard.** A walker that follows namespaces is made only over tables whose kind draws from
ranges, and the kernels of these tables are of that kind (`Walker.RangesServed`). So a draw from a
range may find no mass there, but never a kernel that has no ranges; and neither does any question
to a partition or to a client that holds one (`Client.ranges_supported`).
-/

set_option autoImplicit false

namespace ShardedGraph

/-! ## Ranges -/

/-- Any error but that a kernel does not draw from ranges. -/
def Error.IsSupported (error : Error) : Prop := error.kind ≠ .rangeUnsupported

theorem isSupported_of_isSampleFault (error : Error) (fault : IsSampleFault error) :
    error.IsSupported := by
  cases error with
  | rangeUnsupported kind => cases fault
  | _ => nofun

namespace Kernel

theorem checkRange_isSupported (size first last : Nat) :
    FailsWithin Error.IsSupported (checkRange size first last) := by
  unfold checkRange
  split
  · exact .error nofun
  · exact .ok _

/-- A range without mass is found by kernels that draw from ranges. -/
theorem noMassInRange_isSupported (first last : Nat) :
    (Error.noMassInRange first last).IsSupported := nofun

/-- A kernel whose kind draws from ranges does so. -/
theorem drawBetween_isSupported {kernel : Kernel} (ranged : kernel.kind.supportsRange = true)
    (first last : Nat) : ActsWithin Error.IsSupported (kernel.drawBetween first last) := by
  cases kernel with
  | uniform size =>
      exact (ActsWithin.liftM (checkRange_isSupported size first last)).bind
        fun _ _ _ _ _ => .ok _
  | prefixSum table =>
      refine (ActsWithin.liftM (checkRange_isSupported _ first last)).bind fun _ _ _ _ => ?_
      split
      · exact fun _ => .ok _
      · exact .throw (noMassInRange_isSupported first last)
  | aliased table => cases ranged
  | unigram table => cases ranged

end Kernel

namespace NeighborTables

variable {source : Source} {graph : Graph} {kind : KernelKind} {tables : NeighborTables}

/-- The kernels of the nodes are of the kind of their tables. -/
def OfOneKind (tables : NeighborTables) : Prop :=
  ∀ (node : NodeId) (kernel : Kernel), tables.tables[node]? = some kernel →
    kernel.kind = tables.kind

theorem kind_of_buildTable {node : NodeId} {kernel : Kernel}
    (run : buildTable source kind node = .ok kernel) : kernel.kind = kind := by
  unfold buildTable at run
  split at run
  · cases run
  · cases run
  · split at run
    · cases run
    · exact Kernel.kind_of_build run

theorem ofOneKind_of_build (run : build graph.source kind = .ok tables) : tables.OfOneKind := by
  by_cases uniform : kind = .uniform
  · subst uniform
    cases run
    exact fun node kernel there => by simp at there
  · obtain ⟨kernels, fold, rfl⟩ := build_of_ne_uniform uniform run
    refine foldlM_keeps
      (fun _ (kernels : NodeMap Kernel) => ∀ (node : NodeId) (kernel : Kernel),
        kernels[node]? = some kernel → kernel.kind = kind)
      (fun key rest before after kept step node kernel there => ?_)
      (fun node kernel there => by simp at there) fold
    obtain ⟨added, built, made⟩ := except_bind_eq_ok.mp step
    cases made
    rw [Std.ExtTreeMap.getElem?_insert] at there
    split at there
    · cases there
      exact kind_of_buildTable built
    · exact kept node kernel there

/-- Tables whose kind draws from ranges draw neighbors from ranges of contexts. -/
theorem drawBetween_isSupported (ofOneKind : tables.OfOneKind)
    (ranged : tables.kind.supportsRange = true) (node : NodeId) (first last : Nat) :
    ActsWithin Error.IsSupported (tables.drawBetween node first last) := by
  unfold drawBetween
  split
  · exact .pure none
  · dsimp only
    split
    · exact (ActsWithin.throw nofun).bind fun _ _ _ failed => nomatch failed
    · split
      · exact fun _ => .ok _
      · split
        · exact .pure none
        · next kernel there =>
          refine (Kernel.drawBetween_isSupported ?_ first last).bind fun _ _ _ _ => .pure _
          rwa [ofOneKind node kernel there]

end NeighborTables

namespace Walker

variable {walker : Walker} {path : List NamespaceId}

/-- A walker that follows namespaces has kernels that draw from ranges. -/
structure RangesServed (walker : Walker) : Prop where
  ofOneKind : walker.tables.OfOneKind
  ranged : walker.followsPaths = true → walker.tables.kind.supportsRange = true

theorem hopsFrom_isSupported (served : walker.RangesServed)
    (allowed : path = [] ∨ walker.followsPaths = true) (left taken : Nat) (node : NodeId) :
    ActsWithin Error.IsSupported (hopsFrom walker.tables path left taken node) := by
  have stepped : ∀ taken node,
      ActsWithin Error.IsSupported (step walker.tables path taken node) := by
    intro taken node
    unfold step
    split
    · exact fun _ => .ok _
    · next along =>
      have follows := allowed.resolve_left fun free => along (List.isEmpty_iff.mpr free)
      unfold stepInto
      split
      · exact .pure none
      · split
        · exact .pure none
        · exact NeighborTables.drawBetween_isSupported served.ofOneKind (served.ranged follows)
            _ _ _
  induction left generalizing taken node with
  | zero => exact .pure []
  | succ left ih =>
      rw [hopsFrom]
      refine (stepped taken node).bind fun _ drawn _ _ => ?_
      cases drawn with
      | none => exact .pure []
      | some next => exact (ih (taken + 1) next).bind fun _ _ _ _ => .pure _

theorem walkFrom_isSupported (served : walker.RangesServed)
    (allowed : path = [] ∨ walker.followsPaths = true) (length taken : Nat) (start : NodeId) :
    ActsWithin Error.IsSupported (walkFrom walker.tables path length taken start) := by
  intro stream
  rw [runFrom_walkFrom]
  split
  · exact .error nofun
  · exact hopsFrom_isSupported served allowed length taken start stream

/-- Sizes are looked at first, then whether namespaces are followed; nothing is drawn before. -/
theorem runFrom_traverse (walker : Walker) (starts : List NodeId) (lengths offsets : List Nat)
    (path : List NamespaceId) (stream : WordStream) :
    runFrom (walker.traverse starts lengths offsets path) stream =
      if starts.length ≠ lengths.length ∨ (offsets ≠ [] ∧ offsets.length ≠ starts.length) then
        (.error (.walkSizes starts.length lengths.length offsets.length), stream)
      else if path ≠ [] ∧ walker.followsPaths = false then (.error .freeWalksOnly, stream)
      else runFrom ((starts.zip lengths).zipIdx.mapM fun ((start, length), index) =>
        walkFrom walker.tables path length (offsets.getD index 0) start) stream := by
  unfold traverse
  dsimp only
  split
  · rfl
  · split
    · rfl
    · rfl

theorem traverse_isSupported (served : walker.RangesServed) (starts : List NodeId)
    (lengths offsets : List Nat) (path : List NamespaceId) :
    ActsWithin Error.IsSupported (walker.traverse starts lengths offsets path) := by
  intro stream
  rw [runFrom_traverse]
  split
  · exact .error nofun
  · split
    · exact .error nofun
    · next allowed =>
      have allowed : path = [] ∨ walker.followsPaths = true := by
        by_cases free : path = []
        · exact .inl free
        · exact .inr (eq_true_of_ne_false fun still => allowed ⟨free, still⟩)
      exact ActsWithin.mapM (fun _ _ => walkFrom_isSupported served allowed _ _ _) stream

end Walker

/-! ## Partitions -/

/-- Settings with walks along namespaces over kernels without ranges are refused. -/
theorem Config.check_of_unranged {config : Config} (follows : config.pathWalks = true)
    (unranged : config.neighborKernel.supportsRange = false) :
    ∃ error, error.kind = .config ∧ config.check = .error error := by
  unfold check
  rw [follows, unranged]
  split
  · exact ⟨_, rfl, rfl⟩
  split
  · exact ⟨_, rfl, rfl⟩
  split
  · exact ⟨_, rfl, rfl⟩
  split
  · exact ⟨_, rfl, rfl⟩
  · exact ⟨_, rfl, rfl⟩

namespace Partition

variable {graph : Graph} {config : Config} {stream : WordStream} {partition : Partition}

theorem Made.rangesServed (made : partition.Made graph config stream) :
    partition.walker.RangesServed := by
  rw [made.walker]
  exact ⟨NeighborTables.ofOneKind_of_build made.neighbors, made.ranged⟩

/-- Why a walk along namespaces is refused where none are followed: its sizes come first. -/
def walkRefusal (starts lengths offsets : Nat) : Error :=
  if starts ≠ lengths ∨ (offsets ≠ 0 ∧ offsets ≠ starts) then .walkSizes starts lengths offsets
  else .freeWalksOnly

/-- A partition that follows no namespaces refuses walks along them, and draws nothing. -/
theorem Made.runFrom_walks (made : partition.Made graph config stream)
    (free : config.pathWalks = false) (query : WalkQuery) (along : query.path ≠ [])
    (before : WordStream) :
    runFrom (partition.walks query) before =
      (.error (walkRefusal query.starts.length query.lengths.length query.offsets.length),
        before) := by
  have still : partition.walker.followsPaths = false := by rw [made.walker, free]
  rw [walks, Walker.runFrom_traverse, walkRefusal]
  simp only [List.length_map, ne_eq, List.map_eq_nil_iff, List.length_eq_zero_iff]
  split
  · rfl
  · rw [if_pos ⟨along, still⟩]

theorem Made.runFrom_paths (made : partition.Made graph config stream)
    (free : config.pathWalks = false) (starts : List NodeId) (lengths : List UInt64)
    {path : List NamespaceId} (along : path ≠ []) (before : WordStream) :
    runFrom (partition.paths starts lengths path) before =
      (.error (walkRefusal starts.length lengths.length 0), before) := by
  have refused := made.runFrom_walks free
    { starts, lengths := lengths.map hopsWanted, offsets := [], path } along before
  rw [List.length_map] at refused
  exact runFrom_bind_of_error refused

variable (served : partition.walker.RangesServed)

/-- Samples of negative nodes draw from no ranges. -/
theorem sample_isSupported (mode : NegativeMode) (count : Nat) (nodes excluded : List NodeId) :
    ActsWithin Error.IsSupported (partition.negatives.sample mode count nodes excluded) := by
  cases mode with
  | shared =>
      refine ActsWithin.bind (.liftM fun error failed => ?_) fun _ touched _ _ =>
        (partition.negatives.sampleTouched_within count excluded touched).mono
          isSupported_of_isSampleFault
      obtain ⟨_, _, rfl⟩ := touchedNamespaces_eq_error_iff.mp failed
      exact nofun
  | independent =>
      exact (partition.negatives.sampleIndependent_within count nodes excluded).mono
        isSupported_of_isSampleFault

theorem metaValue_isSupported (key : String) :
    FailsWithin Error.IsSupported (partition.metaValue key) := by
  unfold metaValue
  split
  · exact .ok _
  · split
    · exact .ok _
    · exact .error nofun

include served

/-- **No request meets a kernel without ranges.** -/
theorem answer_isSupported (request : Request) :
    ActsWithin Error.IsSupported (partition.answer request) := by
  cases request with
  | metaValue key =>
      exact (ActsWithin.liftM (metaValue_isSupported key)).bind fun _ _ _ _ => .pure _
  | sharedNegatives query =>
      exact (sample_isSupported .shared _ _ _).bind fun _ _ _ _ => .pure _
  | independentNegatives query =>
      exact (sample_isSupported .independent _ _ _).bind fun _ _ _ _ => .pure _
  | neighbors query => exact fun _ => .ok _
  | walks query =>
      exact (Walker.traverse_isSupported served _ _ _ _).bind fun _ _ _ _ => .pure _
  | features nodes => exact .pure _
  | nodeFeatures nodes => exact .pure _
  | neighborFeatures nodes => exact .pure _
  | contexts nodes => exact .pure _
  | hotNodes query =>
      refine (ActsWithin.liftM ?_).bind fun _ _ _ _ => .pure _
      unfold hotPage
      split
      · exact .error nofun
      · exact .ok _

theorem paths_isSupported (starts : List NodeId) (lengths : List UInt64)
    (path : List NamespaceId) :
    ActsWithin Error.IsSupported (partition.paths starts lengths path) := by
  refine (Walker.traverse_isSupported served _ _ _ _).bind fun _ hops _ _ => ?_
  refine ActsWithin.mapM fun entry _ => ActsWithin.liftM ?_
  unfold pathFrom
  split
  · exact .error nofun
  · exact .ok _

end Partition

/-! ## Clients -/

/-- A client whose questions fail, if they do, in an expected way. -/
structure Client.FailsWithin {σ : Type} (expected : Error → Prop) (client : Client σ) : Prop where
  sharedNegatives : ∀ query, ActsWithin expected (client.sharedNegatives query)
  independentNegatives : ∀ query, ActsWithin expected (client.independentNegatives query)
  neighbors : ∀ query, ActsWithin expected (client.neighbors query)
  walk : ∀ starts lengths path, ActsWithin expected (client.walk starts lengths path)
  features : ∀ nodes, ActsWithin expected (client.features nodes)
  nodeFeatures : ∀ nodes, ActsWithin expected (client.nodeFeatures nodes)
  neighborFeatures : ∀ nodes, ActsWithin expected (client.neighborFeatures nodes)
  contexts : ∀ nodes, ActsWithin expected (client.contexts nodes)
  metaValues : ∀ key, ActsWithin expected (client.metaValues key)

namespace Client

variable {σ : Type} {graph : Graph} {config : Config} {stream : WordStream} {partition : Partition}

/-- What is done aside fails only as it does by itself. -/
theorem aside_within {α : Type} {expected : Error → Prop} {attempt : Attempt α}
    (within : ActsWithin expected attempt) :
    ActsWithin expected (Exchange.aside attempt : Exchange σ α) := fun world => by
  rw [runFrom_aside]
  exact within world.stream

/-- No client that holds a partition meets a kernel without ranges. -/
theorem failsWithin_whole (served : partition.walker.RangesServed) :
    (whole partition : Client σ).FailsWithin Error.IsSupported where
  sharedNegatives query := aside_within (Partition.sample_isSupported .shared _ _ _)
  independentNegatives query := aside_within (Partition.sample_isSupported .independent _ _ _)
  neighbors query := by
    refine aside_within (ActsWithin.bind (fun _ => .ok _) fun _ lists _ _ => ?_)
    refine (ActsWithin.liftM ?_).bind fun _ _ _ _ => .pure _
    unfold requireNeighbors
    split
    · exact .error nofun
    · exact .ok _
  walk starts lengths path := aside_within (Partition.paths_isSupported served starts lengths path)
  features nodes := .pure _
  nodeFeatures nodes := .pure _
  neighborFeatures nodes := .pure _
  contexts nodes := by
    refine ActsWithin.liftM (ShardedGraph.FailsWithin.bind ?_ fun _ _ => .ok _)
    unfold requireContexts
    split
    · exact .error nofun
    · exact .ok _
  metaValues key :=
    (ActsWithin.liftM (Partition.metaValue_isSupported key)).bind fun _ _ _ _ => .pure _

/-- **Ranges are never asked of a kernel that has none.** Whatever the graph, the configuration and
the chance, once a partition is built no request to it and no question to a client that holds it
fails because a kernel does not draw from ranges. When walks along namespaces are not configured,
one that is asked for is refused before anything is drawn: because it is not possible, or first of
all because the sizes of the request differ. And a configuration of walks along namespaces over
neighbor kernels without ranges is refused before anything is built. -/
theorem ranges_supported (run : Partition.build graph config stream = .ok partition) :
    (∀ request, ActsWithin Error.IsSupported (partition.answer request)) ∧
    (whole partition : Client σ).FailsWithin Error.IsSupported ∧
    (config.pathWalks = false →
      (∀ (query : WalkQuery) (before : WordStream), query.path ≠ [] →
        runFrom (partition.answer (.walks query)) before =
          (.error (Partition.walkRefusal query.starts.length query.lengths.length
            query.offsets.length), before)) ∧
      ∀ (starts : List NodeId) (lengths : List UInt64) (path : List NamespaceId)
          (before : World σ), path ≠ [] →
        runFrom ((whole partition).walk starts lengths path) before =
          (.error (Partition.walkRefusal starts.length lengths.length 0), before)) ∧
    ∀ settings : Config, settings.pathWalks = true →
      settings.neighborKernel.supportsRange = false →
        ∃ error, error.kind = .config ∧ ∀ (graph : Graph) (folder : Folder) (stream : WordStream),
          Partition.build graph settings stream = .error error ∧
          Partition.load folder settings stream = .error error ∧
          (ofGraph graph settings stream : Except Error (Client σ)) = .error error ∧
          (load folder settings stream : Except Error (Client σ)) = .error error := by
  have made := Partition.made_of_build run
  refine ⟨Partition.answer_isSupported made.rangesServed, failsWithin_whole made.rangesServed,
    fun free => ⟨fun query before along => ?_, fun starts lengths path before along => ?_⟩,
    fun settings follows unranged => ?_⟩
  · exact runFrom_bind_of_error (made.runFrom_walks free query along before)
  · rw [walk, runFrom_aside, made.runFrom_paths free starts lengths along before.stream]
  · obtain ⟨error, config, refused⟩ := Config.check_of_unranged follows unranged
    refine ⟨error, config, fun graph folder stream => ?_⟩
    have build : Partition.build graph settings stream = .error error := by
      rw [Partition.build, refused]
      rfl
    have load : Partition.load folder settings stream = .error error := by
      rw [Partition.load, refused]
      rfl
    refine ⟨build, load, ?_, ?_⟩
    · rw [ofGraph, build]
      rfl
    · rw [Client.load, load]
      rfl

/-- Prefix sums for neighbors, and walks along namespaces. -/
def rangedConfig : Config := { uniformConfig with neighborKernel := .prefixSum, pathWalks := true }

/-- A partition over the insertions of the even shard that walks along namespaces. -/
theorem exists_ranged {graph : Graph}
    (built : Graph.build .single (Graph.ownedInsertions 2 0 mixedInsertions) = .ok graph) :
    ∃ partition, Partition.build graph rangedConfig (.cycle #[]) = .ok partition := by
  have both : ((Graph.build .single (Graph.ownedInsertions 2 0 mixedInsertions) >>= fun graph =>
      Partition.build graph rangedConfig (.cycle #[])).toOption).isSome = true := by decide +kernel
  obtain ⟨partition, run⟩ := Option.isSome_iff_exists.mp both
  obtain ⟨other, there, made⟩ := except_bind_eq_ok.mp (except_toOption_eq_some.mp run)
  cases built.symm.trans there
  exact ⟨partition, made⟩

/-- Over the same graph, one partition walks along namespaces and is never asked for a range in
vain, another one refuses such walks, and kernels without ranges are refused with them. -/
theorem ranges_supported_mixed :
    ∃ graph ranged,
      Partition.build graph rangedConfig (.cycle #[]) = .ok ranged ∧
      ActsWithin Error.IsSupported (ranged.answer (.walks ⟨[2], [3], [], [0]⟩)) ∧
      Partition.build graph uniformConfig (.cycle #[]) = .ok evenPartition ∧
      uniformConfig.pathWalks = false ∧ [(0 : NamespaceId)] ≠ [] ∧
      runFrom (evenPartition.answer (.walks ⟨[2], [3], [], [0]⟩)) (.cycle #[]) =
        (.error .freeWalksOnly, .cycle #[]) ∧
      ({ pathWalks := true } : Config).neighborKernel.supportsRange = false ∧
      ∃ error, error.kind = .config ∧
        Partition.build graph { pathWalks := true } (.cycle #[]) = .error error := by
  obtain ⟨graph, built, even⟩ :=
    build_of_mixed (show [evenPartition, oddPartition][0]? = _ from rfl)
  obtain ⟨ranged, made⟩ := exists_ranged built
  obtain ⟨answered, _⟩ := ranges_supported (σ := Unit) made
  obtain ⟨_, _, refuses, unranged⟩ := ranges_supported (σ := Unit) even
  obtain ⟨error, config, refused⟩ := unranged { pathWalks := true } rfl rfl
  exact ⟨graph, ranged, made, answered _, even, rfl, by decide,
    (refuses rfl).1 ⟨[2], [3], [], [0]⟩ _ (by decide), rfl, error, config,
    (refused graph ⟨[]⟩ (.cycle #[])).1⟩

/-- A walk along namespaces that has no length for its start is not refused as a fault of the
configuration, although nobody follows namespaces. -/
theorem refused_for_sizes_mixed :
    ∃ graph, Partition.build graph uniformConfig (.cycle #[]) = .ok evenPartition ∧
      uniformConfig.pathWalks = false ∧
      runFrom (evenPartition.answer (.walks ⟨[2], [], [], [0]⟩)) (.cycle #[]) =
        (.error (.walkSizes 1 0 0), .cycle #[]) ∧
      (Error.walkSizes 1 0 0).kind = .data ∧ Error.freeWalksOnly.kind = .config := by
  obtain ⟨graph, _, even⟩ := build_of_mixed (show [evenPartition, oddPartition][0]? = _ from rfl)
  refine ⟨graph, even, rfl, ?_, rfl, rfl⟩
  have refused := (Partition.made_of_build even).runFrom_walks rfl
    ⟨[2], [], [], [0]⟩ (by decide) (.cycle #[])
  exact runFrom_bind_of_error refused

end Client

end ShardedGraph
