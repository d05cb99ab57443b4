import ShardedGraph.Proofs.Blame
import ShardedGraph.Proofs.Paths

/-!
# Which walks a client accepts

A client accepts a walk when it returns paths, and refuses it with an error otherwise. Let
neighbors be drawn uniformly. Then no draw fails, so chance does not decide what is accepted: there
must be one length for each start, a list must have room for the hops, and from every start that
should be left some node must follow (`Graph.Walkable`). In a walk along namespaces, moreover,
walkers must follow namespaces.

**Two clients.** A client that holds the whole graph hands every walk to its walker, which looks at
the namespaces before anything else (`Partition.accepts_iff`). A client of a cluster asks shards
only about starts that should be left, so a walk that leaves no start meets no walker
(`Link.accepts_iff`). Both accept the same walks, but for those along namespaces that nobody
follows and that leave no start. Such walks are refused by the former client and accepted by the
latter (`Client.refuses_iff`).
-/

set_option autoImplicit false

namespace ShardedGraph

/-! ## Success -/

/-- What gives no value gives an error. -/
theorem exists_error_iff {α : Type} (result : Except Error α) :
    (∃ error, result = .error error) ↔ ¬∃ value, result = .ok value := by
  cases result with
  | ok value => simp
  | error error => simp

/-- Work that succeeds for every item, in every state, succeeds for a list. -/
theorem exists_runFrom_mapM {S α β : Type} {f : α → ExceptT Error (StateM S) β} {items : List α}
    (succeeds : ∀ item ∈ items, ∀ state, ∃ value later,
      runFrom (f item) state = (.ok value, later)) (state : S) :
    ∃ values later, runFrom (items.mapM f) state = (.ok values, later) := by
  induction items generalizing state with
  | nil => exact ⟨[], state, rfl⟩
  | cons item items ih =>
      obtain ⟨value, between, first⟩ := succeeds item List.mem_cons_self state
      obtain ⟨values, later, rest⟩ :=
        ih (fun other member => succeeds other (List.mem_cons_of_mem _ member)) between
      refine ⟨value :: values, later, ?_⟩
      rw [List.mapM_cons, runFrom_bind_of_ok first, runFrom_bind_of_ok rest, runFrom_pure]

/-! ## Uniform draws -/

section Uniform

variable {tables : NeighborTables} {graph : Graph} (covers : tables.Covers graph)
  (uniform : tables.kind = .uniform)

include covers uniform

/-- Uniform tables draw from every range of a context. -/
theorem NeighborTables.exists_drawBetween {node : NodeId} {context : Context} {first last : Nat}
    (there : graph.context? node = some context) (order : first < last)
    (inside : last ≤ context.length) (stream : WordStream) :
    ∃ drawn later, runFrom (tables.drawBetween node first last) stream = (.ok drawn, later) := by
  have range : ¬(last ≤ first ∨ context.length < last) := by omega
  unfold drawBetween
  rw [covers.context?, there]
  simp only [if_neg range, if_pos uniform]
  exact ⟨_, _, rfl⟩

variable (sorted : graph.Sorted)

include sorted

theorem Walker.exists_step (path : List NamespaceId) (hops : Nat) (node : NodeId)
    (stream : WordStream) :
    ∃ drawn later, runFrom (step tables path hops node) stream = (.ok drawn, later) := by
  unfold step
  split
  · exact ⟨_, _, rfl⟩
  · unfold stepInto
    rw [covers.context?]
    split
    · exact ⟨_, _, rfl⟩
    · next context there =>
      split
      · exact ⟨_, _, rfl⟩
      · next first last range =>
        obtain ⟨order, inside, _⟩ := namespaceRange_eq_some (sorted node context there) range
        exact NeighborTables.exists_drawBetween covers uniform there order inside stream

theorem Walker.exists_hopsFrom (path : List NamespaceId) (left taken : Nat) (node : NodeId)
    (stream : WordStream) :
    ∃ hops later, runFrom (hopsFrom tables path left taken node) stream = (.ok hops, later) := by
  induction left generalizing taken node stream with
  | zero => exact ⟨[], stream, rfl⟩
  | succ left ih =>
      obtain ⟨drawn, between, stepped⟩ := exists_step covers uniform sorted path taken node stream
      rw [hopsFrom, runFrom_bind_of_ok stepped]
      cases drawn with
      | none => exact ⟨[], between, rfl⟩
      | some next =>
          obtain ⟨rest, later, others⟩ := ih (taken + 1) next between
          exact ⟨next :: rest, later, runFrom_bind_of_ok others⟩

end Uniform

/-- A walker that draws uniformly from a graph, and follows namespaces or does not. -/
structure Walker.Uniform (walker : Walker) (graph : Graph) (follows : Bool) : Prop where
  covers : walker.tables.Covers graph
  sorted : graph.Sorted
  kind : walker.tables.kind = .uniform
  follows : walker.followsPaths = follows

namespace Walker

variable {walker : Walker} {graph : Graph} {follows : Bool} {starts : List NodeId}
  {lengths offsets : List Nat} {path : List NamespaceId}

/-- Namespaces that a walk has followed are followed by its walker. -/
theorem follows_of_traverse {stream later : WordStream} {lists : List (List NodeId)}
    (run : runFrom (walker.traverse starts lengths offsets path) stream = (.ok lists, later)) :
    path = [] ∨ walker.followsPaths = true := by
  unfold traverse at run
  by_cases sizes : starts.length ≠ lengths.length ∨ (offsets ≠ [] ∧ offsets.length ≠ starts.length)
  · rw [if_pos sizes] at run
    obtain ⟨_, _, failed, _⟩ := runFrom_bind_eq_ok run
    cases failed
  rw [if_neg sizes] at run
  dsimp only at run
  split at run
  · obtain ⟨_, _, failed, _⟩ := runFrom_bind_eq_ok run
    cases failed
  · next allowed =>
    by_cases free : path = []
    · exact .inl free
    · exact .inr (by simpa [free] using allowed)

/-- A uniform walker takes every walk whose namespaces it follows and whose hops have room. -/
theorem Uniform.exists_traverse (uniform : walker.Uniform graph follows)
    (counts : starts.length = lengths.length)
    (places : offsets = [] ∨ offsets.length = starts.length) (allowed : path = [] ∨ follows = true)
    (room : ∀ length ∈ lengths, length ≤ listLimit) (stream : WordStream) :
    ∃ lists later,
      runFrom (walker.traverse starts lengths offsets path) stream = (.ok lists, later) := by
  obtain ⟨covers, sorted, kind, same⟩ := uniform
  have sizes : ¬(starts.length ≠ lengths.length ∨
      (offsets ≠ [] ∧ offsets.length ≠ starts.length)) := by
    rintro (other | ⟨some, other⟩)
    · exact other counts
    · exact other (places.resolve_left some)
  have followed : ¬(path ≠ [] ∧ walker.followsPaths = false) := by
    rintro ⟨along, free⟩
    rw [← same] at allowed
    simpa [free] using allowed.resolve_left along
  unfold traverse
  rw [if_neg sizes]
  dsimp only
  rw [if_neg followed]
  refine exists_runFrom_mapM ?_ stream
  rintro ⟨⟨start, length⟩, index⟩ member state
  have among := (List.of_mem_zip (List.fst_mem_of_mem_zipIdx member)).2
  dsimp only
  rw [runFrom_walkFrom, if_neg (Nat.not_lt_of_le (room length among))]
  exact exists_hopsFrom covers kind sorted path length _ start state

end Walker

/-- A partition that draws neighbors uniformly from its graph has a uniform walker. -/
theorem Partition.uniform_of_build {namespaces : NamespaceTable} {insertions : List Insertion}
    {graph : Graph} (built : Graph.build namespaces insertions = .ok graph) {config : Config}
    (uniform : config.neighborKernel = .uniform) {stream : WordStream} {partition : Partition}
    (run : Partition.build graph config stream = .ok partition) :
    partition.walker.Uniform graph config.pathWalks := by
  have made := made_of_build run
  refine ⟨?_, Graph.sorted_of_build built, ?_, ?_⟩
  · rw [made.walker]
    exact NeighborTables.covers_of_build made.neighbors
  · rw [made.walker]
    exact (NeighborTables.source_of_build made.neighbors).2.trans uniform
  · rw [made.walker]

/-! ## Walkable starts -/

/-- There is one length for each start and a list has room for the hops, and from every start that
should be left some node may follow. -/
structure Graph.Walkable (graph : Graph) (path : List NamespaceId) (starts : List NodeId)
    (lengths : List UInt64) : Prop where
  counts : starts.length = lengths.length
  room : ∀ length ∈ lengths, length.toNat - 1 ≤ listLimit
  leaves : ∀ ends ∈ starts.zip lengths, 1 < ends.2.toNat →
    ∃ next, graph.MayFollow path 1 ends.1 next

section Walkable

variable {graph : Graph} {path : List NamespaceId} {starts : List NodeId} {lengths : List UInt64}

/-- A walk that leaves its start has found a node that may follow. -/
theorem Graph.IsWalk.exists_next {start : NodeId} {length : Nat} {nodes : List NodeId}
    (walk : graph.IsWalk path start length nodes) (long : 1 < length) :
    ∃ next, graph.MayFollow path 1 start next := by
  have moved := walk.moves long
  cases nodes with
  | nil => simp at moved
  | cons first rest =>
      cases rest with
      | nil => simp at moved
      | cons next rest =>
          have begins : first = start := by simpa using walk.begins
          exact ⟨next, walk.follows 0 start next (by simp [begins]) (by simp)⟩

/-- Starts that have walks are walkable. -/
theorem Graph.walkable_of_isWalk {paths : List (List NodeId)}
    (counts : starts.length = lengths.length)
    (room : ∀ length ∈ lengths, length.toNat - 1 ≤ listLimit)
    (walks : List.Forall₂ (fun ends nodes => graph.IsWalk path ends.1 ends.2.toNat nodes)
      (starts.zip lengths) paths) : graph.Walkable path starts lengths := by
  refine ⟨counts, room, ?_⟩
  intro ends member long
  obtain ⟨index, here⟩ := List.getElem?_of_mem member
  obtain ⟨nodes, _, walk⟩ := exists_getElem?_of_forall₂ walks here
  exact walk.exists_next long

/-- Where no start should be left, one length for each start is enough. -/
theorem Graph.walkable_of_short (counts : starts.length = lengths.length)
    (still : ∀ length ∈ lengths, length ≤ 1) : graph.Walkable path starts lengths := by
  have none : ∀ length ∈ lengths, length.toNat ≤ 1 := fun length member =>
    UInt64.le_iff_toNat_le.mp (still length member)
  refine ⟨counts, ?_, ?_⟩
  · intro length member
    rw [Nat.sub_eq_zero_of_le (none length member)]
    exact Nat.zero_le _
  · intro ends member long
    exact absurd long (Nat.not_lt_of_le (none ends.2 (List.of_mem_zip member).2))

end Walkable

/-! ## The whole graph -/

/-- A partition over a whole graph accepts the walks that leave no start without a way on, and
that are free or along namespaces that it follows. -/
theorem Partition.accepts_iff {namespaces : NamespaceTable} {insertions : List Insertion}
    {graph : Graph} (built : Graph.build namespaces insertions = .ok graph) {config : Config}
    (uniform : config.neighborKernel = .uniform) {chance : WordStream} {partition : Partition}
    (made : Partition.build graph config chance = .ok partition) (starts : List NodeId)
    (lengths : List UInt64) (path : List NamespaceId) (stream : WordStream) :
    (∃ paths, (runFrom (partition.paths starts lengths path) stream).1 = .ok paths) ↔
      graph.Walkable path starts lengths ∧ (path = [] ∨ config.pathWalks = true) := by
  have walks := uniform_of_build built uniform made
  have sorted := Graph.sorted_of_build built
  constructor
  · rintro ⟨paths, run⟩
    have run : runFrom (partition.paths starts lengths path) stream = (.ok paths, _) :=
      Prod.ext run rfl
    obtain ⟨counts, pairs⟩ := isWalk_of_paths sorted made run
    obtain ⟨lists, between, walked, _⟩ := traverse_of_paths run
    have room : ∀ length ∈ lengths, length.toNat - 1 ≤ listLimit := fun length member =>
      Walker.le_listLimit_of_traverse walked _ (List.mem_map_of_mem member)
    refine ⟨Graph.walkable_of_isWalk counts room pairs, ?_⟩
    rw [← walks.follows]
    exact Walker.follows_of_traverse walked
  · rintro ⟨walkable, allowed⟩
    have counts : starts.length = ((lengths.map hopsWanted).map UInt64.toNat).length := by
      simp [walkable.counts]
    have room : ∀ wanted ∈ (lengths.map hopsWanted).map UInt64.toNat, wanted ≤ listLimit := by
      simpa [toNat_hopsWanted] using walkable.room
    obtain ⟨lists, between, walked⟩ :=
      walks.exists_traverse counts (.inl rfl) allowed room stream
    have small : ∀ (index wanted : Nat),
        ((lengths.map hopsWanted).map UInt64.toNat)[index]? = some wanted →
          ([] : List Nat).getD index 0 + wanted < UInt64.size := by
      intro index wanted there
      rw [List.getElem?_map, Option.map_eq_some_iff] at there
      obtain ⟨word, _, rfl⟩ := there
      simpa using word.toNat_lt
    have each : ∀ entry ∈ (starts.zip (lengths.map hopsWanted)).zip lists, ∀ state : WordStream,
        ∃ nodes later, runFrom (liftM (pathFrom entry.1.1 entry.1.2 entry.2) :
          Attempt (List NodeId)) state = (.ok nodes, later) := by
      rintro ⟨⟨start, wanted⟩, hops⟩ member state
      obtain ⟨index, here⟩ := List.getElem?_of_mem member
      obtain ⟨both, third⟩ := List.getElem?_zip_eq_some.mp here
      obtain ⟨first, second⟩ := List.getElem?_zip_eq_some.mp both
      refine ⟨start :: hops, state, ?_⟩
      rw [runFrom_liftM, pathFrom, if_neg]
      rintro ⟨more, rfl⟩
      -- Without hops the start has no way on, although it should be left.
      have areHops := Walker.areHops_of_traverse walks.covers sorted small walked first
        (by rw [List.getElem?_map, second]; rfl) third
      rw [List.getElem?_map, Option.map_eq_some_iff] at second
      obtain ⟨length, second, rfl⟩ := second
      have long := UInt64.lt_iff_toNat_lt.mp more
      rw [toNat_hopsWanted] at long
      obtain ⟨next, may⟩ := walkable.leaves (start, length)
        (List.mem_of_getElem? (List.getElem?_zip_eq_some.mpr ⟨first, second⟩))
        (Nat.lt_of_sub_pos long)
      exact areHops.stuck (by simpa [toNat_hopsWanted] using long) next (by simpa using may)
    obtain ⟨paths, later, run⟩ := exists_runFrom_mapM each between
    refine ⟨paths, ?_⟩
    have both : runFrom (partition.paths starts lengths path) stream = (.ok paths, later) :=
      (runFrom_bind_of_ok walked).trans run
    rw [both]

/-! ## Rounds that succeed -/

namespace Trail

/-- A path takes all hops, and is content without any when it has left its start. -/
theorem exists_extend {trail : Trail} {hops : List NodeId}
    (moves : hops = [] → trail.hops ≠ []) : ∃ longer, trail.extend hops = .ok longer := by
  unfold extend
  split
  · next empty =>
    rw [if_neg (moves empty)]
    exact ⟨_, rfl⟩
  · dsimp only
    split
    · exact ⟨_, rfl⟩
    · exact ⟨_, rfl⟩

/-- Hops are taken at all positions when the path at each of them takes its own. -/
theorem exists_extendAll (shard : Nat) {positions : List Nat} {lists : List (List NodeId)}
    {trails : List Trail} (counts : lists.length = positions.length) (distinct : positions.Nodup)
    (takes : ∀ entry ∈ positions.zip lists, ∀ trail, trails[entry.1]? = some trail →
      ∃ longer, trail.extend entry.2 = .ok longer) :
    ∃ longer, extendAll shard positions lists trails = .ok longer := by
  have firsts := List.map_fst_zip (Nat.le_of_eq counts.symm)
  rw [← firsts] at distinct
  obtain ⟨longer, run, _⟩ := foldlM_reaches
    (fun (trails : List Trail) (entry : Nat × List NodeId) => extendAt trails entry.1 entry.2)
    (fun rest trails => (rest.map Prod.fst).Nodup ∧ ∀ entry ∈ rest, ∀ trail,
      trails[entry.1]? = some trail → ∃ longer, trail.extend entry.2 = .ok longer)
    (by
      rintro ⟨position, hops⟩ rest before ⟨distinct, takes⟩
      rw [List.map_cons, List.nodup_cons] at distinct
      have others : ∀ entry ∈ rest, ∀ trail, before[entry.1]? = some trail →
          ∃ longer, trail.extend entry.2 = .ok longer :=
        fun entry member => takes entry (List.mem_cons_of_mem _ member)
      cases here : before[position]? with
      | none =>
          refine ⟨before, ?_, distinct.2, others⟩
          simp only [extendAt, here]
      | some trail =>
          obtain ⟨longer, taken⟩ := takes (position, hops) List.mem_cons_self trail here
          refine ⟨before.set position longer, ?_, distinct.2, ?_⟩
          · simp only [extendAt, here, taken]
            rfl
          · intro entry member other there
            have different : position ≠ entry.1 := by
              rintro rfl
              exact distinct.1 (List.mem_map.mpr ⟨entry, member, rfl⟩)
            rw [List.getElem?_set_ne different] at there
            exact others entry member other there)
    trails ⟨distinct, takes⟩
  refine ⟨longer, ?_⟩
  rw [extendAll, if_pos counts]
  exact run

/-- At first, the paths that grow are those whose starts should be left. -/
theorem any_isGrowing_ofStart {starts : List NodeId} {lengths : List UInt64}
    (counts : starts.length = lengths.length) :
    (List.zipWith ofStart starts lengths).any isGrowing = true ↔
      ∃ length ∈ lengths, 1 < length.toNat := by
  rw [← List.map_uncurry_zip_eq_zipWith, List.any_map, List.any_eq_true]
  constructor
  · rintro ⟨⟨start, length⟩, member, grows⟩
    exact ⟨length, (List.of_mem_zip member).2, of_decide_eq_true grows⟩
  · rintro ⟨length, member, long⟩
    rw [← List.map_snd_zip (Nat.le_of_eq counts.symm)] at member
    obtain ⟨ends, among, rfl⟩ := List.mem_map.mp member
    exact ⟨ends, among, decide_eq_true long⟩

end Trail

namespace Link

/-- Every shard gives the hops of walks along some namespaces when there is room for them. -/
def GivesWalks {σ : Type} (link : Link σ) (path : List NamespaceId) : Prop :=
  ∀ shard < link.transport.shards, ∀ query : WalkQuery, query.Fits → query.path = path →
    query.starts.length = query.lengths.length → query.offsets.length = query.starts.length →
      (∀ length ∈ query.lengths, length.toNat ≤ listLimit) → ∀ state, ∃ lists,
        ((link.ask Reply.walks? shard (.walks query)).run state).1.value = .ok lists

section Rounds

variable {σ : Type} {link : Link σ} {namespaces : NamespaceTable} {insertions : List Insertion}
  {partitions : List Partition} {whole : Graph} {path : List NamespaceId} {starts : List NodeId}
  {lengths : List UInt64} {trails : List Trail}

/-- The hops that a shard sends for a position are sent for the growing path there. -/
theorem sends_of_sent {shard : Nat} {lists : List (List NodeId)} {state : σ}
    (sent : ((link.ask Reply.walks? shard (Trail.request path
      (trails.filter fun trail : Trail => trail.isGrowing &&
        trail.owner link.transport.shards == shard))).run state).1.value = .ok lists)
    {entry : Nat × List NodeId}
    (member : entry ∈ (((parcelsOf (Trail.owner link.transport.shards)
      (fun trail : Trail => trail.isGrowing && trail.owner link.transport.shards == shard)
      trails).map Parcel.position).zip lists)) :
    ∃ trail, trails[entry.1]? = some trail ∧ trail.isGrowing = true ∧
      trail.owner link.transport.shards = shard ∧ link.Sends path trails trail entry.2 := by
  obtain ⟨index, here⟩ := List.getElem?_of_mem member
  obtain ⟨asked, given⟩ := List.getElem?_zip_eq_some.mp here
  rw [List.getElem?_map, Option.map_eq_some_iff] at asked
  obtain ⟨parcel, asked, position⟩ := asked
  obtain ⟨there, mine, _⟩ := mem_parcelsOf.mp (List.mem_of_getElem? asked)
  have about := congrArg (Option.map Parcel.item) asked
  rw [← List.getElem?_map, Option.map_some, map_item_parcelsOf] at about
  obtain ⟨grows, owned⟩ := Bool.and_eq_true_iff.mp mine
  have owned := eq_of_beq owned
  refine ⟨parcel.item, position ▸ there, grows, owned, _, lists, state, List.filter_sublist, ?_,
    owned.symm ▸ sent, index, owned.symm ▸ about, given⟩
  intro other among
  simpa [owned] using (List.mem_filter.mp among).2

/-- A request about few paths, along few namespaces, can be sent. -/
theorem fits_request {part : List Trail} (small : part.length < UInt64.size)
    (short : path.length < UInt64.size) :
    WalkQuery.Fits {
      starts := part.map Trail.last
      lengths := part.map fun trail => UInt64.ofNat trail.missing
      offsets := part.map fun trail => UInt64.ofNat trail.hops.length
      path } :=
  ⟨by simpa using small, by simpa using small, by simpa using small, short⟩

/-- A shard sends one list of hops for each path that it is asked about. -/
theorem length_of_sent (draws : link.DrawsFrom partitions) {shard : Nat} {part : List Trail}
    (small : part.length < UInt64.size) (short : path.length < UInt64.size)
    {lists : List (List NodeId)} {state : σ}
    (sent : ((link.ask Reply.walks? shard (Trail.request path part)).run state).1.value =
      .ok lists) : lists.length = part.length := by
  obtain ⟨partition, stream, later, _, run⟩ :=
    draws.drawn shard _ state lists (fits_request small short) sent
  obtain ⟨_, length, _⟩ := Walker.hopsFrom_of_traverse run
  rwa [List.length_map] at length

variable (draws : link.DrawsFrom partitions) (shards : BuiltShards namespaces insertions partitions)
  (built : Graph.build namespaces insertions = .ok whole) (few : starts.length < UInt64.size)
  (short : path.length < UInt64.size) (walkable : whole.Walkable path starts lengths)
  (positive : 0 < link.transport.shards) (gives : link.GivesWalks path)

include draws shards built few short walkable

/-- A path takes whatever the owner of its last node sends for it. -/
theorem exists_extend_of_sends {trail : Trail} {hops : List NodeId}
    (on : Trail.AllOn starts lengths trails) (member : trail ∈ trails)
    (grows : trail.isGrowing = true) (sends : link.Sends path trails trail hops) :
    ∃ longer, trail.extend hops = .ok longer := by
  have onward := onward_of_sends draws shards built few short on grows sends
  apply Trail.exists_extend
  intro empty unmoved
  obtain ⟨ends, among, within⟩ := exists_of_forall₂_of_mem on member
  have room := within.growing grows
  rw [Trail.length_nodes, within.length] at room
  obtain ⟨next, may⟩ := walkable.leaves ends among (by omega)
  have stuck := onward.stuck empty next
  rw [Trail.last, unmoved, List.getLastD_nil, within.start] at stuck
  exact stuck may

include positive gives

/-- A round succeeds when every shard gives its hops. -/
theorem exists_growOnce (on : Trail.AllOn starts lengths trails) (world : World σ) :
    ∃ longer later, runFrom (link.growOnce path trails) world = (.ok longer, later) := by
  -- What a growing path misses was missing at its start, where there was room for it.
  have room : ∀ trail ∈ trails, trail.isGrowing = true →
      (UInt64.ofNat trail.missing).toNat ≤ listLimit := by
    intro trail member grows
    obtain ⟨ends, among, within⟩ := exists_of_forall₂_of_mem on member
    obtain ⟨_, sum, _⟩ := within.toNat_missing grows
    have wanted := walkable.room ends.2 (List.of_mem_zip among).2
    rw [Trail.length_nodes, within.length] at sum
    omega
  have small : ∀ shard, (trails.filter fun trail : Trail => trail.isGrowing &&
      trail.owner link.transport.shards == shard).length < UInt64.size := by
    intro shard
    have length := on.length_eq
    have fewer := List.length_filter_le (fun trail : Trail => trail.isGrowing &&
      trail.owner link.transport.shards == shard) trails
    rw [List.length_zip] at length
    omega
  obtain ⟨answers, between, fetched⟩ := link.exists_fanOut Reply.walks?
    (length_forOwners _ _ : (forOwners (Trail.owner link.transport.shards) Trail.isGrowing trails
      link.transport.shards fun _ => Trail.request path).length = link.transport.shards)
    (by
      intro shard request asked state
      obtain ⟨inside, _, rfl⟩ := getElem?_forOwners_eq_some.mp asked
      refine gives shard inside _ (fits_request (small shard) short) rfl (by simp) (by simp) ?_ state
      intro length asked
      obtain ⟨trail, member, rfl⟩ := List.mem_map.mp asked
      obtain ⟨among, mine⟩ := List.mem_filter.mp member
      exact room trail among (Bool.and_eq_true_iff.mp mine).1)
    world
  have joined := joined_of_fanOut fetched
  have counts : (Batch.mk link.transport.shards
      (parcelsOf (Trail.owner link.transport.shards) Trail.isGrowing
        trails)).positions.length = answers.length := by
    rw [joined.length, length_forOwners, positions_parcelsOf, List.length_map, List.length_range]
  obtain ⟨longer, run, _⟩ := eachAnswer_reaches Trail.extendAll (link.ExtendsBelow path trails)
    (by
      intro shard slice lists before there given below
      obtain ⟨state, sent⟩ := joined.sent given
      have slice_eq := there
      rw [positions_parcelsOf, List.getElem?_map, Option.map_eq_some_iff] at slice_eq
      obtain ⟨number, inside, rfl⟩ := slice_eq
      obtain ⟨_, rfl⟩ := List.getElem?_eq_some_iff.mp inside
      rw [List.getElem_range] at there ⊢
      obtain ⟨after, run⟩ := Trail.exists_extendAll shard
        (by rw [length_of_sent draws (small shard) short sent,
              ← map_item_parcelsOf (Trail.owner link.transport.shards), List.length_map,
              List.length_map])
        nodup_positions_parcelsOf
        (by
          intro entry member trail here
          obtain ⟨sender, place, grows, owned, sends⟩ := sends_of_sent sent member
          have still := below.still entry.1 sender place fun both => by omega
          cases still.symm.trans here
          exact exists_extend_of_sends draws shards built few short walkable on
            (List.mem_of_getElem? place) grows sends)
      exact ⟨after, run, below.step joined there given run⟩)
    (fun _ _ silent below => below.skip joined silent) counts trails
    (link.extendsBelow_zero path trails)
  refine ⟨longer, between, ?_⟩
  rw [link.runFrom_growOnce path positive, runFrom_bind_of_ok fetched, runFrom_liftM, run]

/-- All rounds succeed when every shard gives its hops. -/
theorem Rounds.exists_ok {world later : World σ} {asked : List (List Trail)}
    {result : Except Error (List Trail)}
    (rounds : link.Rounds path trails world asked result later)
    (on : Trail.AllOn starts lengths trails) : ∃ last, result = .ok last := by
  induction rounds with
  | finished still => exact ⟨_, rfl⟩
  | @failed trails world error later grows run =>
      obtain ⟨longer, later, done⟩ :=
        exists_growOnce draws shards built few short walkable positive gives on world
      rw [run] at done
      cases done
  | round grows run rest ih => exact ih (allOn_growOnce on grows run)

end Rounds

/-! ## The parts of a graph -/

end Link

/-- Shards as in `BuiltShards` whose configurations agree: neighbors are drawn uniformly, and walks
may follow namespaces or may not. -/
def UniformShards (namespaces : NamespaceTable) (insertions : List Insertion) (follows : Bool)
    (partitions : List Partition) : Prop :=
  ∀ (shard : Nat) partition, partitions[shard]? = some partition →
    ∃ graph config stream, config.neighborKernel = .uniform ∧ config.pathWalks = follows ∧
      Graph.build namespaces (Graph.ownedInsertions partitions.length shard insertions) =
        .ok graph ∧
      Partition.build graph config stream = .ok partition

section UniformShards

variable {namespaces : NamespaceTable} {insertions : List Insertion} {follows : Bool}
  {partitions : List Partition} (shards : UniformShards namespaces insertions follows partitions)

include shards

theorem UniformShards.builtShards : BuiltShards namespaces insertions partitions := by
  intro shard partition there
  obtain ⟨graph, config, stream, _, _, part, made⟩ := shards shard partition there
  exact ⟨graph, config, stream, part, made⟩

theorem UniformShards.walker {shard : Nat} {partition : Partition}
    (there : partitions[shard]? = some partition) :
    ∃ graph, partition.walker.Uniform graph follows := by
  obtain ⟨graph, config, stream, uniform, same, part, made⟩ := shards shard partition there
  exact ⟨graph, same ▸ Partition.uniform_of_build part uniform made⟩

namespace Link

open Transport

/-- Partitions in the same process give the hops of all walks that they may follow. -/
theorem givesWalks_toPartitions {path : List NamespaceId} (allowed : path = [] ∨ follows = true)
    (deadline : Option Nat) : (toPartitions partitions deadline).GivesWalks path := by
  intro shard inside query fits same counts places room stream
  have here : shard < partitions.length := Nat.lt_of_lt_of_eq inside (List.length_map _)
  have there := List.getElem?_eq_getElem here
  obtain ⟨graph, uniform⟩ := shards.walker there
  obtain ⟨lists, later, run⟩ : ∃ lists later,
      runFrom (partitions[shard].walks query) stream = (.ok lists, later) :=
    uniform.exists_traverse (by simpa using counts) (.inr (by simpa using places))
      (same ▸ allowed) (by simpa using room) stream
  have answered : runFrom (partitions[shard].answer (.walks query)) stream =
      (.ok (.walks lists), later) := runFrom_bind_of_ok run
  refine ⟨lists, ?_⟩
  rw [value_ask_inProcess (getElem?_services there),
    runFrom_serve _ _ (Wire.reads_request 4 Wire.walkQuery .walks (by decide) rfl (fun _ => rfl)
      (Wire.reads_walkQuery fits)), answered]
  dsimp only
  rw [throughWire_eq_ok (Partition.reads_walks fits run)]
  rfl

variable {σ : Type} {link : Link σ} {whole : Graph} {path : List NamespaceId}
  {starts : List NodeId} {trails : List Trail}

/-- Namespaces along which a shard has sent hops are followed, and there was room for the hops. -/
theorem follows_of_sends (draws : link.DrawsFrom partitions) (few : starts.length < UInt64.size)
    (short : path.length < UInt64.size) {lengths : List UInt64}
    (on : Trail.AllOn starts lengths trails) {trail : Trail} {hops : List NodeId}
    (sends : link.Sends path trails trail hops) :
    (path = [] ∨ follows = true) ∧ (UInt64.ofNat trail.missing).toNat ≤ listLimit := by
  obtain ⟨part, lists, state, sub, asked, heard, index, here, _⟩ := sends
  have small : part.length < UInt64.size := by
    have fewer := sub.length_le
    have all := on.length_eq
    rw [List.length_zip] at all
    omega
  obtain ⟨partition, stream, later, there, run⟩ :=
    draws.drawn _ _ state lists (fits_request small short) heard
  obtain ⟨graph, uniform⟩ := shards.walker there
  rw [← uniform.follows]
  refine ⟨Walker.follows_of_traverse run, Walker.le_listLimit_of_traverse run _ ?_⟩
  exact List.mem_map_of_mem (List.mem_map_of_mem (List.mem_of_getElem? here))

/-- Shards accept the walks that leave no start without a way on, and that are free, or along
namespaces that the shards follow, or leave no start at all. -/
theorem accepts_iff (draws : link.DrawsFrom partitions)
    (built : Graph.build namespaces insertions = .ok whole) (positive : 0 < link.transport.shards)
    (gives : path = [] ∨ follows = true → link.GivesWalks path) (lengths : List UInt64)
    (few : starts.length < UInt64.size) (short : path.length < UInt64.size) (world : World σ) :
    (∃ paths, (runFrom (link.walk starts lengths path) world).1 = .ok paths) ↔
      whole.Walkable path starts lengths ∧
        (path = [] ∨ follows = true ∨ ∀ length ∈ lengths, length ≤ 1) := by
  have parts := shards.builtShards
  have on := Trail.allOn_ofStart starts lengths
  obtain ⟨asked, result, later, rounds, limited⟩ := link.exists_rounds path on
    (fun trail member _ => Trail.missing_le_roundLimit member) world
  constructor
  · rintro ⟨paths, run⟩
    obtain ⟨counts, walks⟩ := isWalk_of_walk draws parts built few short (Prod.ext run rfl)
    -- A path that should leave its start has taken hops, which some shard has sent.
    have sent : ∀ length ∈ lengths, 1 < length.toNat →
        (path = [] ∨ follows = true) ∧ length.toNat - 1 ≤ listLimit := by
      intro length member long
      rw [link.runFrom_walk counts rounds limited] at run
      rw [← List.map_snd_zip (Nat.le_of_eq counts.symm)] at member
      obtain ⟨ends, among, rfl⟩ := List.mem_map.mp member
      obtain ⟨index, here⟩ := List.getElem?_of_mem among
      have begun : (List.zipWith Trail.ofStart starts lengths)[index]? =
          some (Trail.ofStart ends.1 ends.2) := by
        rw [← List.map_uncurry_zip_eq_zipWith, List.getElem?_map, here]
        rfl
      have growing : (Trail.ofStart ends.1 ends.2).isGrowing = true := decide_eq_true long
      have grows := List.any_eq_true.mpr ⟨_, List.mem_of_getElem? begun, growing⟩
      cases rounds with
      | finished still => exact absurd grows (Bool.eq_false_iff.mp still)
      | failed _ round => cases run
      | @round _ _ longer _ _ _ _ _ round rest =>
          obtain ⟨_, _, extended⟩ := exists_getElem?_of_forall₂ (growOnce_extends grows round) begun
          rw [Extends, if_pos growing] at extended
          obtain ⟨hops, sends, _⟩ := extended
          obtain ⟨follows, room⟩ := follows_of_sends shards draws few short on sends
          obtain ⟨_, sum, _⟩ := (Trail.on_ofStart ends.1 ends.2).toNat_missing growing
          exact ⟨follows, Nat.le_trans (Nat.sub_le_of_le_add (Nat.le_of_eq sum.symm)) room⟩
    refine ⟨Graph.walkable_of_isWalk counts ?_ walks, ?_⟩
    · intro length member
      by_cases long : 1 < length.toNat
      · exact (sent length member long).2
      · omega
    · rw [← or_assoc, or_iff_not_imp_right]
      intro long
      obtain ⟨length, member, more⟩ : ∃ length ∈ lengths, 1 < length.toNat := by
        simpa [UInt64.le_iff_toNat_le] using long
      exact (sent length member more).1
  · rintro ⟨walkable, allowed⟩
    obtain ⟨last, rfl⟩ : ∃ last, result = .ok last := by
      by_cases grows : (List.zipWith Trail.ofStart starts lengths).any Trail.isGrowing = true
      · obtain ⟨length, member, long⟩ := (Trail.any_isGrowing_ofStart walkable.counts).mp grows
        have follows : path = [] ∨ follows = true := by
          rcases allowed with free | follows | none
          · exact .inl free
          · exact .inr follows
          · exact absurd long (Nat.not_lt_of_le (UInt64.le_iff_toNat_le.mp (none length member)))
        exact rounds.exists_ok draws parts built few short walkable positive (gives follows) on
      · cases rounds with
        | finished still => exact ⟨_, rfl⟩
        | failed some => exact absurd some grows
        | round some => exact absurd some grows
    refine ⟨last.map Trail.nodes, ?_⟩
    rw [link.runFrom_walk walkable.counts rounds limited]
    rfl

end Link

/-! ## Two clients -/

namespace Client

/-- **Two clients refuse the same walks, but for one kind.** Let shards be built over the insertions
about the nodes that they own, and a client over the whole graph, all drawing neighbors uniformly
and agreeing on whether walks may follow namespaces. Then a client that has connected to the shards
refuses a walk exactly when the client over the whole graph refuses it, unless the walk is along
namespaces that nobody follows, has one length for each start, and leaves no start. Such a walk is
refused by the client over the whole graph and accepted by the client of the shards. No chance makes
a difference. The lists of starts and namespaces fit in memory. -/
theorem refuses_iff {config : Config} {client : Client WordStream} {before after : World WordStream}
    (connected : runFrom (ofTransport (.inProcess (partitions.map Partition.answer)) config)
      before = (.ok client, after))
    {settings : Config} (uniform : settings.neighborKernel = .uniform)
    (same : settings.pathWalks = follows) {stream : WordStream} {σ : Type} {reference : Client σ}
    (made : (do ofGraph (← Graph.build namespaces insertions) settings stream) = .ok reference)
    {starts : List NodeId} (lengths : List UInt64) {path : List NamespaceId}
    (few : starts.length < UInt64.size) (short : path.length < UInt64.size)
    (world : World WordStream) (other : World σ) :
    (∃ error, (runFrom (client.walk starts lengths path) world).1 = .error error) ↔
      (∃ error, (runFrom (reference.walk starts lengths path) other).1 = .error error) ∧
        ¬(path ≠ [] ∧ follows = false ∧ starts.length = lengths.length ∧
          ∀ length ∈ lengths, length ≤ 1) := by
  obtain ⟨cluster, _, connected, equal⟩ := runFrom_bind_eq_ok connected
  cases equal
  obtain ⟨positive, link, _⟩ := Cluster.spec_of_connect connected
  obtain ⟨graph, built, loaded⟩ := except_bind_eq_ok.mp made
  obtain ⟨partition, ready, rfl⟩ := except_map_eq_ok.mp loaded
  have ofShards := Link.accepts_iff shards
    (Link.drawsFrom_toPartitions partitions config.deadline?) built positive
    (fun allowed => Link.givesWalks_toPartitions shards allowed config.deadline?) lengths few short
    world
  have ofWhole := Partition.accepts_iff built uniform ready starts lengths path other.stream
  rw [same] at ofWhole
  change (∃ error, (runFrom (cluster.link.walk starts lengths path) world).1 = .error error) ↔
    (∃ error, (runFrom (partition.paths starts lengths path) other.stream).1 = .error error) ∧ _
  rw [link]
  rw [exists_error_iff, exists_error_iff, ofShards, ofWhole]
  constructor
  · intro refused
    refine ⟨?_, ?_⟩
    · rintro ⟨walkable, free | follows⟩
      · exact refused ⟨walkable, .inl free⟩
      · exact refused ⟨walkable, .inr (.inl follows)⟩
    · rintro ⟨_, _, counts, still⟩
      exact refused ⟨Graph.walkable_of_short counts still, .inr (.inr still)⟩
  · rintro ⟨refused, other⟩ ⟨walkable, free | follows | still⟩
    · exact refused ⟨walkable, .inl free⟩
    · exact refused ⟨walkable, .inr follows⟩
    · refine other ⟨fun free => refused ⟨walkable, .inl free⟩, ?_, walkable.counts, still⟩
      exact Bool.eq_false_iff.mpr fun follows => refused ⟨walkable, .inr follows⟩

end Client

end UniformShards

/-! ### Two shards -/

theorem uniformShards_mixed :
    UniformShards .single mixedInsertions false [evenPartition, oddPartition] := by
  intro shard partition there
  obtain ⟨graph, part, made⟩ := build_of_mixed there
  exact ⟨graph, uniformConfig, .cycle #[], rfl, rfl, part, made⟩

namespace Client

/-- The client over the graph of both shards. -/
def mixedWhole? : Except Error (Client Unit) := do
  ofGraph (← Graph.build .single mixedInsertions) uniformConfig (.cycle #[])

theorem walks_still_mixed : ∃ after, runFrom
    (ofTransport (.inProcess [evenPartition.answer, oddPartition.answer]) uniformConfig >>=
      fun client => client.walk [3] [1] [0]) ⟨.cycle #[], .cycle #[]⟩ = (.ok [[3]], after) :=
  exists_of_toOption_eq_some (by decide +kernel)

theorem refused_mixed : (mixedWhole?.toOption.map fun reference =>
    (runFrom (reference.walk [3] [1] [0]) ⟨(), .cycle #[]⟩).1) = some (.error .freeWalksOnly) := by
  decide +kernel

/-- From a node without neighbors both clients refuse two nodes or neither does, and the walk that
stays at its start is never refused by the client of the shards. -/
theorem refuses_iff_mixed :
    UniformShards .single mixedInsertions false [evenPartition, oddPartition] ∧
    uniformConfig.neighborKernel = .uniform ∧ uniformConfig.pathWalks = false ∧
    [(1 : NodeId)].length < UInt64.size ∧ [(0 : NamespaceId)].length < UInt64.size ∧
    ∃ client later reference,
      runFrom (ofTransport (.inProcess [evenPartition.answer, oddPartition.answer]) uniformConfig)
        ⟨.cycle #[], .cycle #[]⟩ = (.ok client, later) ∧
      mixedWhole? = .ok reference ∧
      ∀ (world : World WordStream) (other : World Unit),
        ((∃ error, (runFrom (client.walk [1] [2] []) world).1 = .error error) ↔
          ∃ error, (runFrom (reference.walk [1] [2] []) other).1 = .error error) ∧
        ¬∃ error, (runFrom (client.walk [3] [1] [0]) world).1 = .error error := by
  obtain ⟨_, both⟩ := walks_still_mixed
  obtain ⟨client, later, connected, _⟩ := runFrom_bind_eq_ok both
  obtain ⟨reference, made, _⟩ := Option.map_eq_some_iff.mp refused_mixed
  have made := except_toOption_eq_some.mp made
  refine ⟨uniformShards_mixed, rfl, rfl, by decide, by decide, client, later, reference, connected,
    made, ?_⟩
  intro world other
  constructor
  · rw [refuses_iff uniformShards_mixed connected rfl rfl made [2] (by decide) (by decide) world
      other]
    simp
  · rw [refuses_iff uniformShards_mixed connected rfl rfl made [1] (by decide) (by decide) world
      other]
    simp

/-- A walk along namespaces that should not leave its start: the client of the shards accepts it,
and the client over the whole graph refuses it. -/
theorem stays_mixed :
    UniformShards .single mixedInsertions false [evenPartition, oddPartition] ∧
    ∃ client later after reference,
      runFrom (ofTransport (.inProcess [evenPartition.answer, oddPartition.answer]) uniformConfig)
        ⟨.cycle #[], .cycle #[]⟩ = (.ok client, later) ∧
      runFrom (client.walk [3] [1] [0]) later = (.ok [[3]], after) ∧
      mixedWhole? = .ok reference ∧
      (runFrom (reference.walk [3] [1] [0]) ⟨(), .cycle #[]⟩).1 = .error .freeWalksOnly := by
  obtain ⟨after, both⟩ := walks_still_mixed
  obtain ⟨client, later, connected, accepted⟩ := runFrom_bind_eq_ok both
  obtain ⟨reference, made, error⟩ := Option.map_eq_some_iff.mp refused_mixed
  exact ⟨uniformShards_mixed, client, later, after, reference, connected, accepted,
    except_toOption_eq_some.mp made, error⟩

end Client

end ShardedGraph
