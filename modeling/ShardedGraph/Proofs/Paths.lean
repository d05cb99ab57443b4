import ShardedGraph.Client
import ShardedGraph.Proofs.Agreement
import ShardedGraph.Proofs.Rounds
import ShardedGraph.Proofs.Walks

/-!
# Paths of a client

The paths that a client returns are walks in the graph (`Client.walk_isWalk`), whether it holds
the graph itself or asks the shards that hold the parts of it.

**What is heard.** All that matters of a transport is that the hops it delivers were drawn by the
partition of the shard that was asked (`Link.DrawsFrom`), from any chance; calls may be lost or
late. This holds of partitions in the same process (`Link.drawsFrom_toPartitions`).

**Rounds.** Before every round, each path follows the graph from its start, and a path that has
stopped short has come to a node without a way on (`Trail.IsReal`). A round keeps this: a growing
path asks the owner of its last node, which alone knows all neighbors of it, and says how many
hops it has taken, so that the new hops are in phase (`Link.onward_of_sends`,
`Trail.IsReal.extend`).
-/

set_option autoImplicit false

namespace ShardedGraph

/-! ## Drawn hops -/

/-- Every list of a request for walks can be sent: its length fits in 64 bits. -/
structure WalkQuery.Fits (query : WalkQuery) : Prop where
  starts : query.starts.length < UInt64.size
  lengths : query.lengths.length < UInt64.size
  offsets : query.offsets.length < UInt64.size
  path : query.path.length < UInt64.size

theorem Wire.reads_walkQuery {query : WalkQuery} (fits : query.Fits) : walkQuery.Reads query := by
  refine Codec.Reads.imap ?_ rfl
  refine .pair (reads_nodes fits.starts) (.pair ?_ (.pair ?_ ?_))
  · exact Codec.reads_list fits.lengths fun value _ => Codec.reads_word value
  · exact Codec.reads_list fits.offsets fun value _ => Codec.reads_word value
  · exact Codec.reads_list fits.path fun value _ => Codec.reads_shortWord value

/-- The hops that a partition draws for a request that can be sent can be sent back. -/
theorem Partition.reads_walks {partition : Partition} {query : WalkQuery} (fits : query.Fits)
    {stream later : WordStream} {lists : List (List NodeId)}
    (run : runFrom (partition.walks query) stream = (.ok lists, later)) :
    Wire.reply.Reads (.walks lists) := by
  obtain ⟨counts, given, _⟩ := Walker.hopsFrom_of_traverse run
  refine Wire.reads_reply 3 Wire.nodeLists .walks (by decide) rfl (fun _ => rfl) ?_
  refine Wire.reads_nodeLists (given ▸ fits.starts) fun hops member => ?_
  obtain ⟨index, third⟩ := List.getElem?_of_mem member
  obtain ⟨inside, _⟩ := List.getElem?_eq_some_iff.mp third
  have second : (query.lengths.map UInt64.toNat)[index]? = some _ :=
    List.getElem?_eq_getElem (by omega)
  have most := Walker.length_le_of_traverse run second third
  rw [List.getElem_map] at most
  exact Nat.lt_of_le_of_lt most (UInt64.toNat_lt _)

namespace Link

variable {σ : Type}

/-- One partition for each shard, such that the hops that a shard is heard to answer are hops
that its partition draws. -/
structure DrawsFrom (link : Link σ) (partitions : List Partition) : Prop where
  shards : link.transport.shards = partitions.length
  drawn : ∀ (shard : Nat) query state lists, query.Fits →
    ((link.ask Reply.walks? shard (.walks query)).run state).1.value = .ok lists →
      ∃ partition stream later, partitions[shard]? = some partition ∧
        runFrom (partition.walks query) stream = (.ok lists, later)

open Transport

/-- Partitions in the same process are heard to answer the hops that they draw. -/
theorem drawsFrom_toPartitions (partitions : List Partition) (deadline : Option Nat) :
    (toPartitions partitions deadline).DrawsFrom partitions where
  shards := List.length_map _
  drawn := by
    intro shard query stream lists fits heard
    have sent := Wire.reads_request 4 Wire.walkQuery .walks (by decide) rfl (fun _ => rfl)
      (Wire.reads_walkQuery fits)
    obtain ⟨partition, reply, later, there, answered, taken⟩ := exists_answer_of_heard sent
      (fun partition reply later _ answered => by
        obtain ⟨drawn, _, run, made⟩ := runFrom_bind_eq_ok answered
        cases made
        exact Partition.reads_walks fits run)
      heard
    obtain ⟨drawn, _, run, made⟩ := runFrom_bind_eq_ok answered
    cases made
    cases taken
    exact ⟨partition, stream, later, there, run⟩

end Link

/-! ## Hops in the parts of a graph -/

/-- The partitions of a graph draw hops that go on from owned nodes in the whole graph. -/
theorem BuiltShards.onward {namespaces : NamespaceTable} {insertions : List Insertion}
    {partitions : List Partition} (shards : BuiltShards namespaces insertions partitions)
    {whole : Graph} (built : Graph.build namespaces insertions = .ok whole) {shard : Nat}
    {partition : Partition} (there : partitions[shard]? = some partition) {query : WalkQuery}
    (small : ∀ (index : Nat) length, (query.lengths.map UInt64.toNat)[index]? = some length →
      (query.offsets.map UInt64.toNat).getD index 0 + length < UInt64.size)
    {stream later : WordStream} {lists : List (List NodeId)}
    (run : runFrom (partition.walks query) stream = (.ok lists, later)) {index : Nat}
    {start : NodeId} {length : UInt64} {hops : List NodeId}
    (first : query.starts[index]? = some start) (second : query.lengths[index]? = some length)
    (third : lists[index]? = some hops) (owned : ownerOf partitions.length start = shard)
    (wanted : 0 < length.toNat) :
    whole.Onward query.path ((query.offsets.map UInt64.toNat).getD index 0) start hops := by
  obtain ⟨graph, config, _, part, made⟩ := shards shard partition there
  obtain ⟨_, tables, walker⟩ := Partition.spec_of_build made
  have covers : partition.walker.tables.Covers graph :=
    walker.symm ▸ NeighborTables.covers_of_build tables
  have second : (query.lengths.map UInt64.toNat)[index]? = some length.toNat := by
    rw [List.getElem?_map, second]
    rfl
  have areHops :=
    Walker.areHops_of_traverse covers (Graph.sorted_of_build part) small run first second third
  exact areHops.onward_of_isPart (Graph.isPart_of_build built part) owned wanted

/-! ## One path -/

namespace Trail

/-- A path in a graph: its hops follow its start, and when it does not grow any more, it has
moved, and is short only when it has no way on. -/
structure IsReal (graph : Graph) (path : List NamespaceId) (trail : Trail) : Prop where
  follows : graph.Follows path 1 trail.start trail.hops
  moves : trail.isGrowing = false → 1 < trail.length → trail.hops ≠ []
  stuck : trail.isGrowing = false → trail.nodes.length < trail.length → ∀ next,
    ¬graph.MayFollow path trail.nodes.length trail.last next

variable {graph : Graph} {path : List NamespaceId} {trail longer : Trail} {hops : List NodeId}

theorem isReal_ofStart (graph : Graph) (path : List NamespaceId) (start : NodeId)
    (length : UInt64) : (ofStart start length).IsReal graph path where
  follows := trivial
  moves stopped long := absurd (decide_eq_true long) (Bool.eq_false_iff.mp stopped)
  stuck stopped long := absurd (decide_eq_true long) (Bool.eq_false_iff.mp stopped)

/-- A path that takes hops which go on from its last node, in phase, stays real. -/
theorem IsReal.extend (real : trail.IsReal graph path)
    (onward : graph.Onward path trail.hops.length trail.last hops)
    (run : trail.extend hops = .ok longer) (grows : trail.isGrowing = true) :
    longer.IsReal graph path := by
  have follows : graph.Follows path 1 trail.start (trail.hops ++ hops) := by
    refine Graph.follows_append.mpr ⟨real.follows, ?_⟩
    rw [Nat.add_comm]
    exact onward.follows
  rcases extend_eq_ok run with ⟨rfl, moved, rfl⟩ | ⟨some, enough, rfl⟩ | ⟨some, short, rfl⟩
  · exact ⟨real.follows, fun _ _ => moved, fun _ _ => onward.stuck rfl⟩
  · -- The path has all of its nodes, so it cannot be short.
    have full : ((trail.hops ++ hops).take (trail.length - 1)).length = trail.length - 1 :=
      List.length_take_of_le (by omega)
    refine ⟨follows.take _, fun _ long empty => ?_, fun _ missing => ?_⟩
    · dsimp only at long empty
      rw [empty] at full
      exact absurd full (by simp; omega)
    · rw [length_nodes] at missing
      dsimp only at missing
      omega
  · exact ⟨follows, fun stopped => (Bool.eq_false_iff.mp stopped grows).elim,
      fun stopped => (Bool.eq_false_iff.mp stopped grows).elim⟩

/-- A real path that does not grow any more is a walk. -/
theorem IsReal.isWalk (real : trail.IsReal graph path) {start : NodeId} {length : UInt64}
    (on : trail.On start length) (stopped : trail.isGrowing = false) :
    graph.IsWalk path start length.toNat trail.nodes := by
  obtain ⟨rfl, same, _, bounded⟩ := on
  rw [← same]
  exact Graph.isWalk_cons bounded (real.moves stopped) real.follows (real.stuck stopped)

end Trail

/-! ## All rounds -/

namespace Link

section Rounds

variable {σ : Type} {link : Link σ} {namespaces : NamespaceTable} {insertions : List Insertion}
  {partitions : List Partition} {whole : Graph} {path : List NamespaceId} {starts : List NodeId}
  {lengths : List UInt64} {trails : List Trail} {trail : Trail} {hops : List NodeId}
  (draws : link.DrawsFrom partitions) (shards : BuiltShards namespaces insertions partitions)
  (built : Graph.build namespaces insertions = .ok whole)
  (few : starts.length < UInt64.size) (short : path.length < UInt64.size)

include draws shards built few short

/-- Whatever the owner of the last node of a path sends for it goes on from there in the whole
graph, in phase. -/
theorem onward_of_sends (on : Trail.AllOn starts lengths trails) (grows : trail.isGrowing = true)
    (sends : link.Sends path trails trail hops) :
    whole.Onward path trail.hops.length trail.last hops := by
  obtain ⟨part, lists, state, sub, asked, heard, index, here, given⟩ := sends
  have within : ∀ other ∈ part, ∃ start length, other.On start length := fun other member => by
    obtain ⟨ends, _, on⟩ := exists_of_forall₂_of_mem on (sub.subset member)
    exact ⟨_, _, on⟩
  have small : part.length < UInt64.size := by
    have fewer := sub.length_le
    have all := on.length_eq
    rw [List.length_zip] at all
    omega
  obtain ⟨partition, stream, later, there, run⟩ := draws.drawn _ _ _ _
    ⟨by rwa [List.length_map], by rwa [List.length_map], by rwa [List.length_map], short⟩ heard
  -- The offset of a path is the number of its hops, and its length that of the missing ones.
  have offset : ∀ (position : Nat) other, part[position]? = some other →
      ((part.map fun trail => UInt64.ofNat trail.hops.length).map UInt64.toNat).getD position 0 =
        other.hops.length := by
    intro position other at_
    obtain ⟨_, _, on⟩ := within other (List.mem_of_getElem? at_)
    obtain ⟨_, _, exact⟩ := on.toNat_missing (asked other (List.mem_of_getElem? at_)).1
    rw [List.map_map, List.getD_eq_getElem?_getD, List.getElem?_map, at_]
    exact exact
  obtain ⟨_, _, on⟩ := within trail (List.mem_of_getElem? here)
  have onward := shards.onward built there
    (fun position length found => by
      rw [List.map_map, List.getElem?_map, Option.map_eq_some_iff] at found
      obtain ⟨other, at_, rfl⟩ := found
      rw [offset position other at_]
      obtain ⟨_, _, on⟩ := within other (List.mem_of_getElem? at_)
      obtain ⟨_, total, _⟩ := on.toNat_missing (asked other (List.mem_of_getElem? at_)).1
      rw [Trail.length_nodes] at total
      have bound : other.length < UInt64.size := on.length ▸ UInt64.toNat_lt _
      dsimp only [Function.comp_apply]
      omega)
    run (by rw [List.getElem?_map, here]; rfl) (by rw [List.getElem?_map, here]; rfl) given
    (by rw [← draws.shards]) (on.toNat_missing grows).1
  rwa [offset index trail here] at onward

/-- A round keeps paths real. -/
theorem allReal_growOnce {world later : World σ} {longer : List Trail}
    (on : Trail.AllOn starts lengths trails) (real : ∀ trail ∈ trails, trail.IsReal whole path)
    (grows : trails.any Trail.isGrowing = true)
    (run : runFrom (link.growOnce path trails) world = (.ok longer, later)) :
    ∀ trail ∈ longer, trail.IsReal whole path := by
  intro new member
  obtain ⟨trail, before, move⟩ := exists_of_forall₂_of_mem (growOnce_extends grows run) member
  unfold Extends at move
  split at move
  · next growing =>
    obtain ⟨hops, sends, extended⟩ := move
    have onward := onward_of_sends draws shards built few short on growing sends
    exact (real trail before).extend onward extended growing
  · rw [move]
    exact real trail before

/-- All rounds together keep paths real. -/
theorem Rounds.allReal {world later : World σ} {asked : List (List Trail)}
    {result : Except Error (List Trail)}
    (rounds : link.Rounds path trails world asked result later)
    (on : Trail.AllOn starts lengths trails) (real : ∀ trail ∈ trails, trail.IsReal whole path) :
    ∀ last, result = .ok last → ∀ trail ∈ last, trail.IsReal whole path := by
  induction rounds with
  | finished still =>
      intro last equal
      cases equal
      exact real
  | failed grows run =>
      intro last equal
      cases equal
  | round grows run rest ih =>
      exact ih (allOn_growOnce on grows run)
        (allReal_growOnce draws shards built few short on real grows run)

end Rounds

/-- Paths that are walked across the shards of a graph are walks in the graph. -/
theorem isWalk_of_walk {σ : Type} {link : Link σ} {namespaces : NamespaceTable}
    {insertions : List Insertion} {partitions : List Partition} {whole : Graph}
    (draws : link.DrawsFrom partitions) (shards : BuiltShards namespaces insertions partitions)
    (built : Graph.build namespaces insertions = .ok whole) {starts : List NodeId}
    {lengths : List UInt64} {path : List NamespaceId} (few : starts.length < UInt64.size)
    (short : path.length < UInt64.size) {world later : World σ} {paths : List (List NodeId)}
    (run : runFrom (link.walk starts lengths path) world = (.ok paths, later)) :
    starts.length = lengths.length ∧ List.Forall₂
      (fun ends nodes => whole.IsWalk path ends.1 ends.2.toNat nodes)
      (starts.zip lengths) paths := by
  have counts : starts.length = lengths.length := by
    by_contra other
    rw [walk, if_neg other] at run
    cases run
  refine ⟨counts, ?_⟩
  have on := Trail.allOn_ofStart starts lengths
  obtain ⟨asked, result, _, rounds, limited⟩ := link.exists_rounds path on
    (fun trail member _ => Trail.missing_le_roundLimit member) world
  rw [link.runFrom_walk counts rounds limited] at run
  obtain ⟨grown, rfl, rfl⟩ := except_map_eq_ok.mp (congrArg Prod.fst run)
  obtain ⟨final, still⟩ := (rounds.allOn on).2 grown rfl
  have real := rounds.allReal draws shards built few short on
    (fun trail member => by
      rw [← List.map_uncurry_zip_eq_zipWith] at member
      obtain ⟨ends, _, rfl⟩ := List.mem_map.mp member
      exact Trail.isReal_ofStart whole path ends.1 ends.2)
    grown rfl
  rw [List.forall₂_map_right_iff, forall₂_iff_getElem?]
  obtain ⟨length, places⟩ := forall₂_iff_getElem?.mp final
  refine ⟨length, fun position ends trail here there => ?_⟩
  have member := List.mem_of_getElem? there
  have stopped := List.any_eq_false.mp still trail member
  exact (real trail member).isWalk (places position ends trail here there)
    (Bool.eq_false_iff.mpr stopped)

end Link

/-! ## Clients -/

theorem pathFrom_eq_ok {start : NodeId} {wanted : UInt64} {hops nodes : List NodeId}
    (run : pathFrom start wanted hops = .ok nodes) :
    nodes = start :: hops ∧ (0 < wanted.toNat → hops ≠ []) := by
  unfold pathFrom at run
  split at run
  · cases run
  · next moved =>
    cases run
    exact ⟨rfl, fun more empty => moved ⟨UInt64.lt_iff_toNat_lt.mpr more, empty⟩⟩

theorem toNat_hopsWanted (length : UInt64) : (hopsWanted length).toNat = length.toNat - 1 := by
  unfold hopsWanted
  split
  · next none =>
    rw [none]
    rfl
  · next some =>
    refine UInt64.toNat_sub_of_le _ _ (UInt64.le_iff_toNat_le.mpr ?_)
    exact Nat.pos_of_ne_zero fun zero => some (UInt64.toNat_inj.mp zero)

/-- The paths of a partition are the starts and the hops that it draws from them, of which there
are some when some are wanted. -/
theorem Partition.traverse_of_paths {partition : Partition} {stream later : WordStream}
    {starts : List NodeId} {lengths : List UInt64} {path : List NamespaceId}
    {paths : List (List NodeId)}
    (run : runFrom (partition.paths starts lengths path) stream = (.ok paths, later)) :
    ∃ lists between,
      runFrom (partition.walker.traverse starts (lengths.map fun length => length.toNat - 1) []
        path) stream = (.ok lists, between) ∧
      starts.length = lengths.length ∧ List.Forall₂
        (fun entry nodes => nodes = entry.1.1 :: entry.2 ∧ (1 < entry.1.2.toNat → entry.2 ≠ []))
        ((starts.zip lengths).zip lists) paths := by
  have hopsOf : (lengths.map hopsWanted).map UInt64.toNat =
      lengths.map fun length => length.toNat - 1 := by
    rw [List.map_map]
    exact List.map_congr_left fun length _ => toNat_hopsWanted length
  obtain ⟨lists, between, walked, run⟩ := runFrom_bind_eq_ok run
  have walked : runFrom (partition.walker.traverse starts
      (lengths.map fun length => length.toNat - 1) [] path) stream = (.ok lists, between) :=
    hopsOf ▸ walked
  refine ⟨lists, between, walked, ?_, ?_⟩
  · obtain ⟨counts, _⟩ := Walker.hopsFrom_of_traverse walked
    rwa [List.length_map] at counts
  · have made := forall₂_of_runFrom_mapM run
    rw [List.zip_map_right, List.zip_map_left, List.forall₂_map_left_iff] at made
    refine made.imp fun entry nodes made => ?_
    obtain ⟨before, after, made⟩ := made
    obtain ⟨equal, moves⟩ := pathFrom_eq_ok (congrArg Prod.fst made)
    exact ⟨equal, fun long => moves (by rw [toNat_hopsWanted]; exact Nat.sub_pos_of_lt long)⟩

/-- Paths in a partition over a whole graph are walks in the graph. -/
theorem Partition.isWalk_of_paths {graph : Graph} (sorted : graph.Sorted) {config : Config}
    {partition : Partition} {chance stream later : WordStream}
    (made : Partition.build graph config chance = .ok partition) {starts : List NodeId}
    {lengths : List UInt64} {path : List NamespaceId} {paths : List (List NodeId)}
    (run : runFrom (partition.paths starts lengths path) stream = (.ok paths, later)) :
    starts.length = lengths.length ∧ List.Forall₂
      (fun ends nodes => graph.IsWalk path ends.1 ends.2.toNat nodes)
      (starts.zip lengths) paths := by
  obtain ⟨_, tables, walker⟩ := Partition.spec_of_build made
  have covers : partition.walker.tables.Covers graph :=
    walker.symm ▸ NeighborTables.covers_of_build tables
  obtain ⟨lists, between, walked, counts, pairs⟩ := traverse_of_paths run
  obtain ⟨_, given, _⟩ := Walker.hopsFrom_of_traverse walked
  have small : ∀ (index length : Nat),
      (lengths.map fun length => length.toNat - 1)[index]? = some length →
        ([] : List Nat).getD index 0 + length < UInt64.size := by
    intro index wanted there
    rw [List.getElem?_map, Option.map_eq_some_iff] at there
    obtain ⟨length, _, rfl⟩ := there
    rw [List.getD_nil, Nat.zero_add]
    exact Nat.lt_of_le_of_lt (Nat.sub_le _ _) length.toNat_lt
  obtain ⟨length, places⟩ := forall₂_iff_getElem?.mp pairs
  rw [List.length_zip, List.length_zip] at length
  refine ⟨counts, forall₂_iff_getElem?.mpr ⟨by rw [List.length_zip]; omega, ?_⟩⟩
  rintro index ⟨start, length⟩ nodes both last
  obtain ⟨first, second⟩ := List.getElem?_zip_eq_some.mp both
  obtain ⟨hops, third⟩ : ∃ hops, lists[index]? = some hops :=
    ⟨_, List.getElem?_eq_getElem (given ▸ (List.getElem?_eq_some_iff.mp first).1)⟩
  obtain ⟨rfl, moves⟩ := places index ((start, length), hops) nodes
    (List.getElem?_zip_eq_some.mpr ⟨both, third⟩) last
  have wanted : (lengths.map fun length => length.toNat - 1)[index]? =
      some (length.toNat - 1) := by
    rw [List.getElem?_map, second]
    rfl
  have areHops := Walker.areHops_of_traverse covers sorted small walked first wanted third
  exact areHops.isWalk (Walker.length_le_of_traverse walked wanted third) moves

namespace Client

variable {σ : Type}

/-- A client of a graph: it holds a partition over the graph, or asks shards that hold partitions
over the parts of it. -/
inductive Serves (graph : Graph) : Client σ → Prop
  | whole {namespaces insertions config stream partition}
      (built : Graph.build namespaces insertions = .ok graph)
      (made : Partition.build graph config stream = .ok partition) :
      Serves graph (.whole partition)
  | split {namespaces insertions partitions cluster}
      (built : Graph.build namespaces insertions = .ok graph)
      (shards : BuiltShards namespaces insertions partitions)
      (draws : cluster.link.DrawsFrom partitions) :
      Serves graph (.split cluster)

theorem runFrom_aside {α : Type} (attempt : Attempt α) (world : World σ) :
    runFrom (Exchange.aside attempt) world =
      ((runFrom attempt world.stream).1,
        { world with stream := (runFrom attempt world.stream).2 }) := rfl

/-- A client that has connected to partitions in the same process serves their graph. -/
theorem serves_of_ofTransport {graph : Graph} {namespaces : NamespaceTable}
    {insertions : List Insertion} {partitions : List Partition}
    (built : Graph.build namespaces insertions = .ok graph)
    (shards : BuiltShards namespaces insertions partitions) {config : Config}
    {client : Client WordStream} {world later : World WordStream}
    (run : runFrom (ofTransport (.inProcess (partitions.map Partition.answer)) config) world =
      (.ok client, later)) : client.Serves graph := by
  obtain ⟨cluster, between, connected, made⟩ := runFrom_bind_eq_ok run
  cases made
  refine .split built shards ?_
  rw [(Cluster.spec_of_connect connected).2.1]
  exact Link.drawsFrom_toPartitions partitions config.deadline?

/-- **Paths are walks in the graph.** Let a client of a graph return paths, from any starts, of
any lengths, along any path or free, and whatever is drawn. Then there is one for every start,
and each is a walk of its length from its start: it begins at the start, has at least two nodes
if it should have more than one, and no more than it should. Every node after the start is a
neighbor of the node before, in the namespace that is due at its position. A path that is
shorter than it should be ends at a node that has no such neighbor. The lists of starts and
namespaces fit in memory. -/
theorem walk_isWalk {graph : Graph} {client : Client σ} (serves : client.Serves graph)
    {starts : List NodeId} {lengths : List UInt64} {path : List NamespaceId}
    (few : starts.length < UInt64.size) (short : path.length < UInt64.size)
    {world later : World σ} {paths : List (List NodeId)}
    (run : runFrom (client.walk starts lengths path) world = (.ok paths, later)) :
    paths.length = starts.length ∧ starts.length = lengths.length ∧
      ∀ (index : Nat) start length nodes, starts[index]? = some start →
        lengths[index]? = some length → paths[index]? = some nodes →
          graph.IsWalk path start length.toNat nodes := by
  have walks : starts.length = lengths.length ∧ List.Forall₂
      (fun ends nodes => graph.IsWalk path ends.1 ends.2.toNat nodes)
      (starts.zip lengths) paths := by
    cases serves with
    | whole built made =>
        obtain ⟨walked, _⟩ := Prod.mk.inj ((runFrom_aside _ world).symm.trans run)
        exact Partition.isWalk_of_paths (Graph.sorted_of_build built) made (Prod.ext walked rfl)
    | split built shards draws => exact Link.isWalk_of_walk draws shards built few short run
  obtain ⟨counts, pairs⟩ := walks
  obtain ⟨length, places⟩ := forall₂_iff_getElem?.mp pairs
  rw [List.length_zip] at length
  refine ⟨by omega, counts, fun index start length nodes first second third => ?_⟩
  exact places index (start, length) nodes (List.getElem?_zip_eq_some.mpr ⟨first, second⟩) third

theorem walks_mixed : ∃ after, runFrom
    (ofTransport (.inProcess [evenPartition.answer, oddPartition.answer]) uniformConfig >>=
      fun client => client.walk [3] [5] []) ⟨.cycle #[], .cycle #[]⟩ = (.ok [[3, 2, 1]], after) :=
  exists_of_toOption_eq_some (by decide +kernel)

/-- From a node of the odd shard the path leads to the even one and back, where it ends. -/
theorem walk_isWalk_mixed :
    ∃ graph, ∃ client : Client WordStream, ∃ later after,
      Graph.build .single mixedInsertions = .ok graph ∧
      client.Serves graph ∧
      [(3 : NodeId)].length < UInt64.size ∧ ([] : List NamespaceId).length < UInt64.size ∧
      runFrom (client.walk [3] [5] []) later = (.ok [[3, 2, 1]], after) ∧
      graph.IsWalk [] 3 5 [3, 2, 1] := by
  obtain ⟨graph, built, _⟩ := builtShards_mixed.exists_whole (List.cons_ne_nil _ _)
  obtain ⟨after, both⟩ := walks_mixed
  obtain ⟨client, later, connected, run⟩ := runFrom_bind_eq_ok both
  have serves := serves_of_ofTransport built builtShards_mixed connected
  obtain ⟨_, _, walks⟩ := walk_isWalk serves (by decide) (by decide) run
  exact ⟨graph, client, later, after, built, serves, by decide, by decide, run,
    walks 0 3 5 [3, 2, 1] rfl rfl rfl⟩

end Client

end ShardedGraph
