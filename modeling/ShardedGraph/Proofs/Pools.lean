import Mathlib.Algebra.Order.BigOperators.Group.List
import Mathlib.Algebra.Order.Group.Nat
import ShardedGraph.Proofs.Blame
import ShardedGraph.Proofs.Failures
import ShardedGraph.Proofs.Samples
import ShardedGraph.Proofs.Shares

/-!
# Pools of a cluster

A client of shards that is asked for shared samples draws, for every namespace that the query nodes
touch, how many nodes each shard should give, and joins what the shards give.

**Whatever the shards say**, a pool has the size that was asked for, or there is an error
(`Link.GivesPool.length`): the shares of a namespace add up to that size, a shard without a share
is not asked, and a shard that gives more or less than its share is refused.

**When the shards draw from their partitions**, each part of a pool holds different candidates of
the shard that gave it, and none that is excluded (`Partition.GivesPart`). Parts of two shards may
share nodes, because a node is a candidate wherever it is a neighbor. So a pool holds a node at most
as often as there are shards where it is a candidate (`count_flatten_le`).

**Rounds.** A round makes one call for each share, and nothing but its own draw decides which
(`Cluster.poolRound_recording`). Rounds follow the touched namespaces in order and stop early only
at a failure (`Cluster.forall₂_poolRounds`), so a result has one pool for each of them. When the
shards give their shares, a round fails only when no list has room for its pool
(`Cluster.exists_sharedNegatives_iff`).
-/

set_option autoImplicit false

namespace ShardedGraph

variable {σ : Type} {namespaces : NamespaceTable} {insertions : List Insertion}
  {partitions : List Partition}

/-! ## Parts of a pool -/

/-- A part of a pool as a partition may give it: different candidates, and none excluded. -/
structure Partition.GivesPart (partition : Partition) (ns : NamespaceId) (excluded : List NodeId)
    (part : List NodeId) : Prop where
  distinct : part.Nodup
  admissible : ∀ node ∈ part, node ∉ excluded
  candidate : ∀ node ∈ part, node ∈ partition.candidates ns

namespace Partition

variable {partition : Partition} {ns : NamespaceId} {excluded part : List NodeId}

/-- A shard that is not asked gives nothing. -/
theorem givesPart_nil (partition : Partition) (ns : NamespaceId) (excluded : List NodeId) :
    partition.GivesPart ns excluded [] := ⟨List.nodup_nil, by simp, by simp⟩

/-- A sample is a part. -/
theorem givesPart_of_isSample {count : Nat}
    (isSample : partition.negatives.IsSample ns count excluded part) :
    partition.GivesPart ns excluded part := by
  refine ⟨isSample.distinct, isSample.admissible, ?_⟩
  intro node member
  obtain ⟨candidates, listed, among⟩ := isSample.candidate node member
  simpa [Partition.candidates, listed, Except.toOption] using among

end Partition

/-- A node is in the parts of a pool at most as often as there are partitions of which it is a
candidate. -/
theorem count_flatten_le {ns : NamespaceId} {excluded : List NodeId} {parts : List (List NodeId)}
    (gives : List.Forall₂ (fun partition part => partition.GivesPart ns excluded part)
      partitions parts) (node : NodeId) :
    parts.flatten.count node ≤
      partitions.countP fun partition => (partition.candidates ns).contains node := by
  induction gives with
  | nil => simp
  | @cons partition part _ _ first _ ih =>
      rw [List.flatten_cons, List.count_append, List.countP_cons, Nat.add_comm]
      refine Nat.add_le_add ih ?_
      by_cases here : node ∈ part
      · rw [if_pos (List.contains_iff_mem.mpr (first.candidate node here))]
        exact List.nodup_iff_count_le_one.mp first.distinct node
      · rw [List.count_eq_zero_of_not_mem here]
        exact Nat.zero_le _

/-! ## Pools that shards give -/

/-- Shares of a pool: one for each shard, and together as many as are asked for. -/
structure IsSplit (shards count : Nat) (split : List Nat) : Prop where
  counts : split.length = shards
  total : split.sum = count

theorem IsSplit.share_le {shards count share : Nat} {split : List Nat}
    (isSplit : IsSplit shards count split) (member : share ∈ split) : share ≤ count :=
  isSplit.total ▸ List.le_sum_of_mem member

namespace Link

/-- A pool of a namespace as shards may give it for a node: those that have a share are heard to
answer, and all that they answer of the namespace is joined in a list with room for it. -/
def GivesPool (link : Link σ) (query : NegativeQuery) (entry : NamespaceId × NodeId)
    (pool : List NodeId) : Prop :=
  ∃ split answers, IsSplit link.transport.shards query.count.toNat split ∧
    link.Joined Reply.pools? (shareRequests split entry.2 query.excluded) answers ∧
    gatherShares entry.1 query.count.toNat split answers = .ok pool

variable {link : Link σ} {query : NegativeQuery} {entry : NamespaceId × NodeId}
  {pool : List NodeId}

/-- A shard without a share is silent, and a shard with a share was heard to answer for it. -/
theorem Joined.share {split : List Nat} {node : NodeId} {excluded : List NodeId}
    {answers : List (Option (List (List NodeId)))}
    (joined : link.Joined Reply.pools? (shareRequests split node excluded) answers) {shard : Nat}
    {answer : Option (List (List NodeId))} (given : answers[shard]? = some answer) :
    ∃ share, split[shard]? = some share ∧
      (share = 0 ∧ answer = none ∨
        ∃ lists state, answer = some lists ∧
          ((link.ask Reply.pools? shard
            (.sharedNegatives ⟨UInt64.ofNat share, [node], excluded⟩)).run state).1.value =
              .ok lists) := by
  obtain ⟨inside, _⟩ := List.getElem?_eq_some_iff.mp given
  rw [joined.length, length_shareRequests] at inside
  have request : (shareRequests split node excluded)[shard]? = _ := List.getElem?_map
  rw [List.getElem?_eq_getElem inside, Option.map_some] at request
  refine ⟨_, List.getElem?_eq_getElem inside, ?_⟩
  by_cases nothing : split[shard] = 0
  · rw [if_pos nothing] at request
    exact .inl ⟨nothing, Option.some.inj (given.symm.trans (joined.silent shard request))⟩
  · rw [if_neg nothing] at request
    obtain ⟨lists, state, there, heard⟩ := joined.asked shard _ request
    exact .inr ⟨lists, state, Option.some.inj (given.symm.trans there), heard⟩

/-- Whatever the shards say, a pool has the size that was asked for. -/
theorem GivesPool.length (gives : link.GivesPool query entry pool) :
    pool.length = query.count.toNat := by
  obtain ⟨split, answers, isSplit, joined, made⟩ := gives
  have counts : split.length = answers.length := by rw [joined.length, length_shareRequests]
  rw [length_joinShares counts ?_ (gatherShares_eq_ok_iff.mp made).2, isSplit.total]
  intro shard silent
  obtain ⟨share, there, ⟨rfl, _⟩ | ⟨lists, _, given, _⟩⟩ := joined.share silent
  · exact there
  · cases given

/-- Whatever the shards say, a list has room for a pool. -/
theorem GivesPool.room (gives : link.GivesPool query entry pool) :
    query.count.toNat ≤ listLimit := by
  obtain ⟨_, _, _, _, made⟩ := gives
  exact (gatherShares_eq_ok_iff.mp made).1

/-- Whatever state it finds, every shard gives any share of a pool that it is asked for. -/
def GivesShares (link : Link σ) (query : NegativeQuery) : Prop :=
  ∀ shard < link.transport.shards, ∀ node ∈ query.nodes, ∀ count ≤ query.count, ∀ state, ∃ lists,
    ((link.ask Reply.pools? shard
      (.sharedNegatives ⟨count, [node], query.excluded⟩)).run state).1.value = .ok lists ∧
    (partOf (namespaceOf node) (some lists)).length = count.toNat

/-- Shards that give their shares make a pool. -/
theorem exists_pool (gives : link.GivesShares query) {node : NodeId} (among : node ∈ query.nodes)
    {split : List Nat} (isSplit : IsSplit link.transport.shards query.count.toNat split)
    (world : World σ) :
    ∃ answers later pool, runFrom (link.fanOut Reply.pools?
        (shareRequests split node query.excluded)) world = (.ok answers, later) ∧
      joinShares (namespaceOf node) split answers = .ok pool := by
  have counts := (length_shareRequests split node query.excluded).trans isSplit.counts
  -- A share is at most what is asked for, so it is sent as the number that it is.
  have sent : ∀ {shard : Nat} {share}, split[shard]? = some share →
      shard < link.transport.shards ∧ UInt64.ofNat share ≤ query.count ∧
        (UInt64.ofNat share).toNat = share := by
    intro shard share there
    obtain ⟨inside, _⟩ := List.getElem?_eq_some_iff.mp there
    have small := isSplit.share_le (List.mem_of_getElem? there)
    have same : (UInt64.ofNat share).toNat = share :=
      UInt64.toNat_ofNat_of_lt (Nat.lt_of_le_of_lt small query.count.toNat_lt)
    exact ⟨isSplit.counts ▸ inside, UInt64.le_iff_toNat_le.mpr (same.symm ▸ small), same⟩
  obtain ⟨answers, later, heard⟩ := link.exists_fanOut Reply.pools? counts (by
    intro shard request there state
    rw [shareRequests, List.getElem?_map, Option.map_eq_some_iff] at there
    obtain ⟨share, there, asked⟩ := there
    split at asked
    · cases asked
    · cases asked
      obtain ⟨inside, few, _⟩ := sent there
      obtain ⟨lists, given, _⟩ := gives shard inside node among _ few state
      exact ⟨lists, given⟩) world
  have joined := joined_of_fanOut heard
  have made : ∃ pool, joinShares (namespaceOf node) split answers = .ok pool := by
    refine exists_joinShares ?_
    intro shard share pools there given
    obtain ⟨share', there', ⟨_, nothing⟩ | ⟨lists, state, same, said⟩⟩ := joined.share given
    · cases nothing
    · cases same
      cases there.symm.trans there'
      obtain ⟨inside, few, exactly⟩ := sent there
      obtain ⟨lists, given, fits⟩ := gives shard inside node among _ few state
      cases said.symm.trans given
      exact fits.trans exactly
  obtain ⟨pool, made⟩ := made
  exact ⟨answers, later, pool, heard, made⟩

section Drawn

variable (samples : link.SamplesFrom partitions)
  (shards : BuiltShards namespaces insertions partitions)
  (few : query.excluded.length < UInt64.size) (own : entry.1 = namespaceOf entry.2)
  (gives : link.GivesPool query entry pool)

include samples shards few own gives

/-- What shards give for a node when they draw from their partitions: a part from each. -/
theorem GivesPool.parts :
    ∃ parts, pool = parts.flatten ∧
      List.Forall₂ (fun partition part => partition.GivesPart entry.1 query.excluded part)
        partitions parts := by
  obtain ⟨split, answers, isSplit, joined, made⟩ := gives
  have counts : split.length = answers.length := by rw [joined.length, length_shareRequests]
  obtain ⟨rfl, _⟩ := joinShares_eq_ok counts (gatherShares_eq_ok_iff.mp made).2
  refine ⟨answers.map (partOf entry.1), rfl, forall₂_iff_getElem?.mpr ⟨?_, ?_⟩⟩
  · rw [List.length_map, ← counts, isSplit.counts, samples.shards]
  · intro shard partition part there given
    rw [List.getElem?_map, Option.map_eq_some_iff] at given
    obtain ⟨answer, given, rfl⟩ := given
    obtain ⟨share, _, ⟨_, rfl⟩ | ⟨lists, state, rfl, heard⟩⟩ := joined.share given
    · exact partition.givesPart_nil entry.1 query.excluded
    · obtain ⟨drawer, stream, later, here, drawn⟩ :=
        samples.drawn shard _ entry.2 query.excluded state lists few heard
      cases there.symm.trans here
      obtain ⟨graph, config, chance, _, ready⟩ := shards shard partition there
      obtain ⟨_, covers⟩ := Partition.negatives_of_build ready
      obtain ⟨sample, isSample, room, rfl⟩ := NegativePools.sampleShared_singleton covers drawn
      have same : partOf entry.1 (some ((List.replicate partition.negatives.source.slots []).set
          (namespaceOf entry.2).toNat sample)) = sample := by
        simp [partOf, own, List.getD_eq_getElem?_getD, room]
      rw [same, own]
      exact Partition.givesPart_of_isSample isSample

/-- A node of a pool that partitions have drawn belongs to its namespace, is not excluded, and is a
candidate at some shard. -/
theorem GivesPool.mem {node : NodeId} (member : node ∈ pool) :
    namespaceOf node = entry.1 ∧ node ∉ query.excluded ∧
      ∃ partition ∈ partitions, node ∈ partition.candidates (namespaceOf node) := by
  obtain ⟨parts, rfl, pairs⟩ := GivesPool.parts samples shards few own gives
  obtain ⟨part, among, member⟩ := List.mem_flatten.mp member
  obtain ⟨partition, there, gives⟩ := exists_of_forall₂_of_mem pairs among
  obtain ⟨shard, here⟩ := List.getElem?_of_mem there
  obtain ⟨graph, config, chance, built, made⟩ := shards shard partition here
  have candidate := gives.candidate node member
  have same := Partition.namespace_of_candidate built made candidate
  exact ⟨same, gives.admissible node member, partition, there, same.symm ▸ candidate⟩

/-- A pool that partitions have drawn holds a node at most as often as there are shards where it is
a candidate. -/
theorem GivesPool.count_le (node : NodeId) :
    pool.count node ≤ partitions.countP fun partition =>
      (partition.candidates (namespaceOf node)).contains node := by
  by_cases member : node ∈ pool
  · obtain ⟨same, _⟩ := GivesPool.mem samples shards few own gives member
    obtain ⟨parts, rfl, pairs⟩ := GivesPool.parts samples shards few own gives
    exact same ▸ count_flatten_le pairs node
  · rw [List.count_eq_zero_of_not_mem member]
    exact Nat.zero_le _

end Drawn

end Link

/-! ## Rounds -/

/-- The calls for the rounds of a query, each for a node with the shares of all shards. -/
def callsForRounds (query : NegativeQuery) (rounds : List (NodeId × List Nat)) :
    List (Nat × Request) :=
  rounds.flatMap fun round => shareCalls round.2 round.1 query.excluded

/-- Rounds of a query as a client makes them: for some of these nodes, with as many shares as nodes
are asked for. -/
structure MakesRounds (shards : Nat) (query : NegativeQuery) (nodes : List NodeId)
    (rounds : List (NodeId × List Nat)) : Prop where
  among : (rounds.map Prod.fst).Sublist nodes
  split : ∀ round ∈ rounds, IsSplit shards query.count.toNat round.2

/-- Rounds for a query: for different namespaces that query nodes have, each with shares that add
up to the nodes that are asked for. -/
structure SharesOut (shards : Nat) (query : NegativeQuery) (rounds : List (NodeId × List Nat)) :
    Prop where
  distinct : (rounds.map fun round => namespaceOf round.1).Nodup
  among : ∀ round ∈ rounds, round.1 ∈ query.nodes
  split : ∀ round ∈ rounds, IsSplit shards query.count.toNat round.2

/-- Rounds for touched namespaces are rounds for the query. -/
theorem MakesRounds.sharesOut {query : NegativeQuery} {shards slots : Nat}
    {touched : List (NamespaceId × NodeId)} {rounds : List (NodeId × List Nat)}
    (touches : Touches slots query.nodes touched)
    (made : MakesRounds shards query (touched.map Prod.snd) rounds) :
    SharesOut shards query rounds := by
  have own : (touched.map Prod.snd).map namespaceOf = touched.map Prod.fst := by
    rw [List.map_map]
    exact List.map_congr_left fun entry member => (touches.spec entry member).2.1.symm
  refine ⟨?_, ?_, made.split⟩
  · have among := made.among.map namespaceOf
    rw [own, List.map_map] at among
    exact touches.distinct.sublist among
  · intro round member
    obtain ⟨entry, known, same⟩ :=
      List.mem_map.mp (made.among.subset (List.mem_map_of_mem member))
    exact same ▸ (touches.spec entry known).1

namespace Cluster

variable {cluster : Cluster σ} {query : NegativeQuery}

/-- A client whose transport records every call. -/
def recording (cluster : Cluster σ) : Cluster (Rehearsal σ) :=
  ⟨cluster.link.recording, cluster.pageSize, cluster.slots, cluster.shares, cluster.cache⟩

/-- Whatever the tables of a client draw is a shard. -/
def DrawsShards (cluster : Cluster σ) : Prop :=
  ∀ slot table stream, cluster.shares.getD slot none = some table →
    (table.draw.run stream).1 < cluster.shards

/-- The shares of a pool that a table draws from a stream, and the stream that it leaves. -/
def drawSplit (cluster : Cluster σ) (query : NegativeQuery) (table : Kernel.AliasTable)
    (stream : WordStream) : List Nat × WordStream :=
  let drawn := StateT.run (Attempt.replicate query.count.toNat table.draw : Draw (List Nat)) stream
  (tally cluster.shards drawn.1, drawn.2)

/-- As many shares are drawn as nodes are asked for. -/
theorem isSplit_drawSplit (draws : cluster.DrawsShards) (query : NegativeQuery) {slot : Nat}
    {table : Kernel.AliasTable} (there : cluster.shares.getD slot none = some table)
    (stream : WordStream) :
    IsSplit cluster.shards query.count.toNat (cluster.drawSplit query table stream).1 := by
  have drawn := forall₂_run_mapM (fun _ => table.draw) (List.replicate query.count.toNat ()) stream
  refine ⟨length_tally _ _, (sum_tally ?_).trans ?_⟩
  · intro shard member
    obtain ⟨_, _, before, rfl⟩ := exists_of_forall₂_of_mem drawn member
    exact draws slot table before there
  · exact drawn.length_eq.symm.trans List.length_replicate

/-- Nobody is asked for nodes of a namespace that no shard has. -/
theorem run_poolRound_of_none (cluster : Cluster σ) (query : NegativeQuery) {ns : NamespaceId}
    (node : NodeId) (nobody : cluster.shares.getD ns.toNat none = none) (world : World σ) :
    (cluster.poolRound query ns node).run world = (⟨.error (.emptyNamespace ns), .now⟩, world) := by
  unfold poolRound
  rw [nobody]
  rfl

/-- What a round makes of its drawn shares and what it hears, and the world it leaves. -/
def joinHeard (ns : NamespaceId) (count : Nat) (drawn : List Nat × WordStream)
    (heard : Timed (Except Error (List (Option (List (List NodeId))))) × σ) :
    Timed (Except Error (List NodeId)) × World σ :=
  (⟨heard.1.value.bind (gatherShares ns count drawn.1), heard.1.time⟩, ⟨heard.2, drawn.2⟩)

/-- Shares are gathered without other failures than that there is no room for them and those of
joining them. -/
theorem failsWithin_gatherShares {expected : Error → Prop} {ns : NamespaceId} {count : Nat}
    {split : List Nat} {answers : List (Option (List (List NodeId)))}
    (stops : expected (.poolTooLong count))
    (joined : FailsWithin expected (joinShares ns split answers)) :
    FailsWithin expected (gatherShares ns count split answers) := by
  unfold gatherShares
  split
  · exact .error stops
  · exact .bind (.ok ()) fun _ _ => joined

/-- Shards are asked for the shares that are drawn. -/
theorem run_poolRound_of_some (cluster : Cluster σ) (query : NegativeQuery) {ns : NamespaceId}
    (node : NodeId) {table : Kernel.AliasTable}
    (there : cluster.shares.getD ns.toNat none = some table) (world : World σ) :
    (cluster.poolRound query ns node).run world =
      joinHeard ns query.count.toNat (cluster.drawSplit query table world.stream)
        ((cluster.link.fanOutTimed Reply.pools?
          (shareRequests (cluster.drawSplit query table world.stream).1 node query.excluded)).run
            world.network) := by
  unfold poolRound
  rw [there]
  rfl

/-- A round that gives a pool has it from the shards. -/
theorem givesPool_of_poolRound (draws : cluster.DrawsShards) {entry : NamespaceId × NodeId}
    {world : World σ} {pool : List NodeId}
    (run : ((cluster.poolRound query entry.1 entry.2).run world).1.value = .ok pool) :
    cluster.link.GivesPool query entry pool := by
  cases there : cluster.shares.getD entry.1.toNat none with
  | none =>
      rw [cluster.run_poolRound_of_none query entry.2 there world] at run
      cases run
  | some table =>
      rw [cluster.run_poolRound_of_some query entry.2 there world] at run
      obtain ⟨answers, heard, made⟩ := except_bind_eq_ok.mp run
      refine ⟨_, answers, isSplit_drawSplit draws query there world.stream, ?_, made⟩
      exact Link.joined_of_fanOut
        ((Link.runFrom_fanOut_eq_timed _ _ _ world).trans (Prod.ext heard rfl))

/-- A round for a namespace that is spread over the shards gives a pool when the shards give their
shares and a list has room for them. -/
theorem exists_poolRound (draws : cluster.DrawsShards) (gives : cluster.link.GivesShares query)
    (room : query.count.toNat ≤ listLimit) {entry : NamespaceId × NodeId}
    (among : entry.2 ∈ query.nodes) (own : entry.1 = namespaceOf entry.2) {table : Kernel.AliasTable}
    (there : cluster.shares.getD entry.1.toNat none = some table) (world : World σ) :
    ∃ pool, ((cluster.poolRound query entry.1 entry.2).run world).1.value = .ok pool := by
  have isSplit := isSplit_drawSplit draws query there world.stream
  obtain ⟨answers, later, pool, heard, made⟩ := Link.exists_pool gives among isSplit world
  rw [Link.runFrom_fanOut_eq_timed] at heard
  refine ⟨pool, ?_⟩
  rw [cluster.run_poolRound_of_some query entry.2 there world, own]
  exact except_bind_eq_ok.mpr
    ⟨answers, congrArg Prod.fst heard, gatherShares_eq_ok_iff.mpr ⟨room, made⟩⟩

/-- A round on the record gives the same, and has made the calls for its shares, if it has any. -/
theorem poolRound_recording (draws : cluster.DrawsShards) (ns : NamespaceId) (node : NodeId)
    (world : World σ) :
    ∃ rounds, MakesRounds cluster.shards query [node] rounds ∧
      ∀ calls, (cluster.recording.poolRound query ns node).run (world.recorded calls) =
        (((cluster.poolRound query ns node).run world).1,
          ((cluster.poolRound query ns node).run world).2.recorded
            ((callsForRounds query rounds).reverse ++ calls)) := by
  cases there : cluster.shares.getD ns.toNat none with
  | none =>
      refine ⟨[], ⟨by simp, by simp⟩, ?_⟩
      intro calls
      rw [cluster.run_poolRound_of_none query node there world]
      exact cluster.recording.run_poolRound_of_none query node there (world.recorded calls)
  | some table =>
      have isSplit := isSplit_drawSplit draws query there world.stream
      refine ⟨[(node, (cluster.drawSplit query table world.stream).1)], ⟨by simp, by simpa⟩, ?_⟩
      intro calls
      have counts := (length_shareRequests _ node query.excluded).trans isSplit.counts
      have heard := cluster.link.fanOutTimed_recording Reply.pools? counts world.network calls
      rw [callsOf_shareRequests] at heard
      rw [cluster.run_poolRound_of_some query node there world, callsForRounds,
        List.flatMap_singleton]
      have opened := cluster.recording.run_poolRound_of_some query node there (world.recorded calls)
      refine opened.trans ?_
      exact congrArg (joinHeard ns query.count.toNat
        (cluster.drawSplit query table world.stream)) heard

/-! ## All rounds -/

/-- The first round decides whether and from when on there are others. -/
theorem run_poolRounds_cons (cluster : Cluster σ) (query : NegativeQuery) (inOrder : Bool)
    (known : Moment) (entry : NamespaceId × NodeId) (touched : List (NamespaceId × NodeId))
    (world : World σ) :
    (cluster.poolRounds query inOrder known (entry :: touched)).run world =
      let first := (cluster.poolRound query entry.1 entry.2).run world
      let round := first.1.delayedTill known
      if round.failsAtOnce then ([round], first.2)
      else
        let rest := (cluster.poolRounds query inOrder (if inOrder then round.time else known)
          touched).run first.2
        (round :: rest.1, rest.2) := by
  rw [poolRounds, StateT.run_bind]
  rcases (cluster.poolRound query entry.1 entry.2).run world with ⟨round, later⟩
  change StateT.run (if (round.delayedTill known).failsAtOnce then _ else _ : StateM (World σ) _)
    later = _
  dsimp only
  split
  · rfl
  · rfl

/-- Rounds that all give a pool are as many as the entries: they stop early only at a failure. -/
theorem forall₂_poolRounds (draws : cluster.DrawsShards) (inOrder : Bool) {known : Moment}
    {touched : List (NamespaceId × NodeId)} {world : World σ} {pools : List (List NodeId)}
    (given : List.Forall₂ (fun round pool => round.value = .ok pool)
      ((cluster.poolRounds query inOrder known touched).run world).1 pools) :
    List.Forall₂ (cluster.link.GivesPool query) touched pools := by
  induction touched generalizing known world pools with
  | nil =>
      cases given
      exact .nil
  | cons entry touched ih =>
      rw [run_poolRounds_cons] at given
      dsimp only at given
      split at given
      · next fails =>
        cases given with
        | cons made _ =>
            rw [Timed.failsAtOnce, made] at fails
            cases fails
      · cases given with
        | cons made rest => exact .cons (givesPool_of_poolRound draws made) (ih rest)

/-- What holds of every round in every world holds of all rounds that are made. -/
theorem forall_poolRounds {fine : Except Error (List NodeId) → Prop}
    {touched : List (NamespaceId × NodeId)}
    (each : ∀ entry ∈ touched, ∀ world,
      fine ((cluster.poolRound query entry.1 entry.2).run world).1.value)
    (inOrder : Bool) (known : Moment) (world : World σ) :
    ∀ round ∈ ((cluster.poolRounds query inOrder known touched).run world).1, fine round.value := by
  induction touched generalizing known world with
  | nil => exact fun round member => nomatch member
  | cons entry touched ih =>
      obtain ⟨here, others⟩ := List.forall_mem_cons.mp each
      rw [run_poolRounds_cons]
      dsimp only
      intro round member
      split at member
      · rw [List.mem_singleton.mp member]
        exact here world
      · rcases List.mem_cons.mp member with rfl | later
        · exact here world
        · exact ih others _ _ round later

/-- When every round gives a pool, all rounds are made. -/
theorem exists_poolRounds (inOrder : Bool) (known : Moment)
    {touched : List (NamespaceId × NodeId)}
    (gives : ∀ entry ∈ touched, ∀ world,
      ∃ pool, ((cluster.poolRound query entry.1 entry.2).run world).1.value = .ok pool)
    (world : World σ) :
    ∃ pools, List.Forall₂ (fun round pool => round.value = .ok pool)
      ((cluster.poolRounds query inOrder known touched).run world).1 pools := by
  induction touched generalizing known world with
  | nil => exact ⟨[], .nil⟩
  | cons entry touched ih =>
      obtain ⟨pool, made⟩ := gives entry (.head _) world
      have going : (((cluster.poolRound query entry.1 entry.2).run world).1.delayedTill
          known).failsAtOnce = false := by rw [Timed.failsAtOnce, Timed.delayedTill, made]
      rw [run_poolRounds_cons]
      dsimp only
      rw [going, if_neg Bool.false_ne_true]
      obtain ⟨pools, rest⟩ := ih _ (fun other member => gives other (.tail _ member)) _
      exact ⟨pool :: pools, .cons made rest⟩

/-- Rounds on the record give the same, and have made the calls for the shares of each. -/
theorem poolRounds_recording (draws : cluster.DrawsShards) (inOrder : Bool) (known : Moment)
    (touched : List (NamespaceId × NodeId)) (world : World σ) :
    ∃ rounds, MakesRounds cluster.shards query (touched.map Prod.snd) rounds ∧
      ∀ calls, (cluster.recording.poolRounds query inOrder known touched).run
          (world.recorded calls) =
        (((cluster.poolRounds query inOrder known touched).run world).1,
          ((cluster.poolRounds query inOrder known touched).run world).2.recorded
            ((callsForRounds query rounds).reverse ++ calls)) := by
  induction touched generalizing known world with
  | nil => exact ⟨[], ⟨by simp, by simp⟩, fun _ => rfl⟩
  | cons entry touched ih =>
      obtain ⟨rounds, made, first⟩ := poolRound_recording draws entry.1 entry.2 world
      rw [cluster.run_poolRounds_cons]
      by_cases fails :
          (((cluster.poolRound query entry.1 entry.2).run world).1.delayedTill known).failsAtOnce
      · refine ⟨rounds, ⟨made.among.trans (by simp), made.split⟩, ?_⟩
        intro calls
        rw [cluster.recording.run_poolRounds_cons, first calls]
        dsimp only
        rw [if_pos fails, if_pos fails]
      · obtain ⟨others, made', rest⟩ := ih
          (if inOrder then
            (((cluster.poolRound query entry.1 entry.2).run world).1.delayedTill known).time
          else known) ((cluster.poolRound query entry.1 entry.2).run world).2
        refine ⟨rounds ++ others, ⟨?_, ?_⟩, ?_⟩
        · rw [List.map_append, List.map_cons]
          exact made.among.append made'.among
        · intro round member
          exact (List.mem_append.mp member).elim (made.split round) (made'.split round)
        · intro calls
          -- The record has the last call first, so the calls of later rounds stand before.
          have order : (callsForRounds query (rounds ++ others)).reverse ++ calls =
              (callsForRounds query others).reverse ++
                ((callsForRounds query rounds).reverse ++ calls) := by simp [callsForRounds]
          rw [order, cluster.recording.run_poolRounds_cons, first calls]
          dsimp only
          rw [if_neg fails, if_neg fails, rest]

/-! ## Results -/

/-- Pools in the slots of their namespaces; other slots are empty. -/
def placed (slots : Nat) (entries : List ((NamespaceId × NodeId) × List NodeId)) :
    List (List NodeId) :=
  entries.foldl (fun out entry => out.set entry.1.1.toNat entry.2) (List.replicate slots [])

theorem placed_concat (slots : Nat) (entries : List ((NamespaceId × NodeId) × List NodeId))
    (last : (NamespaceId × NodeId) × List NodeId) :
    placed slots (entries ++ [last]) = (placed slots entries).set last.1.1.toNat last.2 := by
  rw [placed, List.foldl_append]
  rfl

theorem length_placed (slots : Nat) (entries : List ((NamespaceId × NodeId) × List NodeId)) :
    (placed slots entries).length = slots := by
  induction entries using List.reverseRecOn with
  | nil => exact List.length_replicate
  | append_singleton entries last ih => rw [placed_concat, List.length_set, ih]

/-- A slot holds a pool of its namespace, or there is none and it is empty. -/
theorem getElem?_placed (slots : Nat) (entries : List ((NamespaceId × NodeId) × List NodeId))
    {slot : Nat} {pool : List NodeId} (there : (placed slots entries)[slot]? = some pool) :
    (∃ entry ∈ entries, entry.1.1.toNat = slot ∧ entry.2 = pool) ∨
      ((∀ entry ∈ entries, entry.1.1.toNat ≠ slot) ∧ pool = []) := by
  induction entries using List.reverseRecOn with
  | nil =>
      rw [placed, List.foldl_nil, List.getElem?_replicate] at there
      split at there
      · exact .inr ⟨by simp, (Option.some.inj there).symm⟩
      · cases there
  | append_singleton entries last ih =>
      rw [placed_concat, List.getElem?_set] at there
      split at there
      · next here =>
        split at there
        · exact .inl ⟨last, by simp, here, Option.some.inj there⟩
        · cases there
      · next apart =>
        rcases ih there with ⟨entry, among, placed⟩ | ⟨none, empty⟩
        · exact .inl ⟨entry, List.mem_append_left _ among, placed⟩
        · refine .inr ⟨?_, empty⟩
          intro entry member
          rcases List.mem_append.mp member with before | now
          · exact none entry before
          · rwa [List.mem_singleton.mp now]

/-- No failure counts among rounds that have given a pool each. -/
theorem firstFailure_eq_none {α : Type} {rounds : List (Timed (Except Error α))}
    (succeed : ∀ round ∈ rounds, ∃ value, round.value = .ok value) :
    firstFailure rounds = none := by
  induction rounds using List.reverseRecOn with
  | nil => rfl
  | append_singleton rounds last ih =>
      have before := ih fun round member => succeed round (List.mem_append_left _ member)
      obtain ⟨value, given⟩ := succeed last (by simp)
      unfold firstFailure at before ⊢
      rw [List.foldl_append, before, List.foldl_cons, List.foldl_nil, given]

/-- A failure that counts is one of a round. -/
theorem exists_of_firstFailure {α : Type} {rounds : List (Timed (Except Error α))}
    {failure : Timed Error} (failed : firstFailure rounds = some failure) :
    ∃ round ∈ rounds, round.value = .error failure.value := by
  induction rounds using List.reverseRecOn generalizing failure with
  | nil => cases failed
  | append_singleton rounds last ih =>
      have before : ∀ {failure}, firstFailure rounds = some failure →
          ∃ round ∈ rounds ++ [last], round.value = .error failure.value := by
        intro failure found
        obtain ⟨round, member, same⟩ := ih found
        exact ⟨round, List.mem_append_left _ member, same⟩
      have final : last ∈ rounds ++ [last] := List.mem_append_right _ List.mem_cons_self
      rw [firstFailure, List.foldl_append, List.foldl_cons, List.foldl_nil] at failed
      split at failed
      · exact before failed
      · next same _ =>
        cases failed
        exact ⟨last, final, same⟩
      · next same found =>
        split at failed
        · cases failed
          exact ⟨last, final, same⟩
        · exact before failed

/-- What comes of rounds: the failure that counts, or the pools in the slots of their namespaces. -/
def joinRounds (slots : Nat) (touched : List (NamespaceId × NodeId))
    (rounds : List (Timed (Except Error (List NodeId)))) : Except Error (List (List NodeId)) :=
  (firstFailure rounds).elim
    ((fun pools => placed slots (touched.zip pools)) <$> rounds.mapM fun round => round.value)
    fun failure => .error failure.value

/-- Rounds join exactly when each has given a pool. -/
theorem joinRounds_eq_ok_iff {slots : Nat} {touched : List (NamespaceId × NodeId)}
    {rounds : List (Timed (Except Error (List NodeId)))} {pools : List (List NodeId)} :
    joinRounds slots touched rounds = .ok pools ↔
      ∃ given, List.Forall₂ (fun round pool => round.value = .ok pool) rounds given ∧
        pools = placed slots (touched.zip given) := by
  rw [joinRounds]
  constructor
  · intro run
    cases failed : firstFailure rounds with
    | some failure =>
        rw [failed] at run
        cases run
    | none =>
        rw [failed] at run
        obtain ⟨given, listed, rfl⟩ := except_map_eq_ok.mp run
        exact ⟨given, mapM_eq_ok_iff.mp listed, rfl⟩
  · rintro ⟨given, values, rfl⟩
    rw [firstFailure_eq_none, Option.elim_none, mapM_eq_ok_iff.mpr values]
    · rfl
    · intro round member
      obtain ⟨value, _, made⟩ := exists_of_forall₂_of_mem values.flip member
      exact ⟨value, made⟩

/-- Rounds join without other failures than their own. -/
theorem failsWithin_joinRounds {expected : Error → Prop} {slots : Nat}
    {touched : List (NamespaceId × NodeId)} {rounds : List (Timed (Except Error (List NodeId)))}
    (each : ∀ round ∈ rounds, FailsWithin expected round.value) :
    FailsWithin expected (joinRounds slots touched rounds) := by
  rw [joinRounds]
  cases failed : firstFailure rounds with
  | none => exact (FailsWithin.mapM each).map _
  | some failure =>
      obtain ⟨round, member, same⟩ := exists_of_firstFailure failed
      exact .error (each round member _ same)

/-- A shared sample joins the rounds of all namespaces that are touched. -/
theorem runFrom_sharedNegatives (cluster : Cluster σ) {touched : List (NamespaceId × NodeId)}
    (found : touchedNamespaces cluster.slots query.nodes = .ok touched) (world : World σ) :
    runFrom (cluster.sharedNegatives query) world =
      let asked := (cluster.poolRounds query (decide (roundsTogether < touched.length)) .now
        touched).run world
      (joinRounds cluster.slots touched asked.1, asked.2) := by
  rw [sharedNegatives, found, runFrom_bind_of_ok (runFrom_liftM _ world),
    runFrom_bind_of_ok (runFrom_lift _ world)]
  generalize (cluster.poolRounds query (decide (roundsTogether < touched.length)) .now
    touched).run world = asked
  obtain ⟨rounds, between⟩ := asked
  dsimp only
  rw [joinRounds]
  cases firstFailure rounds with
  | some failure => rfl
  | none =>
      dsimp only [Option.elim]
      rw [runFrom_bind, runFrom_mapM_liftM]
      cases rounds.mapM fun round => round.value with
      | error error => rfl
      | ok pools => rfl

variable {pools : List (List NodeId)} {world later : World σ}

/-- Pools of a result: one for each slot, given by the shards where a query node has the namespace
of the slot, and empty elsewhere. -/
theorem spec_of_sharedNegatives (draws : cluster.DrawsShards)
    (run : runFrom (cluster.sharedNegatives query) world = (.ok pools, later)) :
    pools.length = cluster.slots ∧ ∀ (slot : Nat) pool, pools[slot]? = some pool →
      (∃ entry : NamespaceId × NodeId, entry.2 ∈ query.nodes ∧ entry.1 = namespaceOf entry.2 ∧
        entry.1.toNat = slot ∧ cluster.link.GivesPool query entry pool) ∨
      ((∀ node ∈ query.nodes, (namespaceOf node).toNat ≠ slot) ∧ pool = []) := by
  cases found : touchedNamespaces cluster.slots query.nodes with
  | error error =>
      rw [sharedNegatives, found, runFrom_bind_of_error (runFrom_liftM _ world)] at run
      cases run
  | ok touched =>
    have touches := firstSeen_of_touchedNamespaces found
    rw [cluster.runFrom_sharedNegatives found] at run
    obtain ⟨joined, _⟩ := Prod.mk.inj run
    obtain ⟨given, values, rfl⟩ := joinRounds_eq_ok_iff.mp joined
    obtain ⟨length, gives⟩ := List.forall₂_iff_zip.mp (forall₂_poolRounds draws _ values)
    refine ⟨length_placed _ _, ?_⟩
    intro slot pool there
    rcases getElem?_placed _ _ there with ⟨entry, member, here, rfl⟩ | ⟨none, empty⟩
    · obtain ⟨among, own, _⟩ := touches.spec entry.1 (List.of_mem_zip member).1
      exact .inl ⟨entry.1, among, own, here, gives member⟩
    · refine .inr ⟨?_, empty⟩
      intro node member here
      -- The slot exists, so its namespace has been found, and a pool was given for it.
      obtain ⟨inside, _⟩ := List.getElem?_eq_some_iff.mp there
      rw [length_placed, ← here] at inside
      obtain ⟨entry, known, same⟩ := List.mem_map.mp (touches.complete node member inside)
      have firsts : (touched.zip given).map Prod.fst = touched :=
        List.map_fst_zip (Nat.le_of_eq length)
      obtain ⟨placed, among, rfl⟩ := List.mem_map.mp (firsts.symm ▸ known)
      exact none placed among (by rw [same, here])

/-- When the shards give their shares, a query whose namespaces are spread over the shards gets its
pools exactly when a list has room for each of them. -/
theorem exists_sharedNegatives_iff (draws : cluster.DrawsShards)
    (gives : cluster.link.GivesShares query)
    (spread : ∀ node ∈ query.nodes, (namespaceOf node).toNat < cluster.slots ∧
      ∃ table, cluster.shares.getD (namespaceOf node).toNat none = some table) (world : World σ) :
    (∃ pools, (runFrom (cluster.sharedNegatives query) world).1 = .ok pools) ↔
      query.nodes = [] ∨ query.count.toNat ≤ listLimit := by
  constructor
  · rintro ⟨pools, run⟩
    by_cases nothing : query.nodes = []
    · exact .inl nothing
    obtain ⟨node, among⟩ := List.exists_mem_of_ne_nil _ nothing
    obtain ⟨length, spec⟩ := spec_of_sharedNegatives draws (Prod.ext run rfl)
    have there := List.getElem?_eq_getElem (Nat.lt_of_lt_of_eq (spread node among).1 length.symm)
    rcases spec _ _ there with ⟨_, _, _, _, given⟩ | ⟨none, _⟩
    · exact .inr given.room
    · exact absurd rfl (none node among)
  · intro room
    obtain ⟨touched, found⟩ := exists_touchedNamespaces fun node member => (spread node member).1
    have touches := firstSeen_of_touchedNamespaces found
    have rounds : ∀ entry ∈ touched, ∀ world,
        ∃ pool, ((cluster.poolRound query entry.1 entry.2).run world).1.value = .ok pool := by
      intro entry member world
      obtain ⟨among, own, _⟩ := touches.spec entry member
      obtain ⟨_, table, there⟩ := spread entry.2 among
      rw [← own] at there
      have room := room.resolve_left (List.ne_nil_of_mem among)
      exact exists_poolRound draws gives room among own there world
    obtain ⟨given, values⟩ := exists_poolRounds (decide (roundsTogether < touched.length)) .now
      rounds world
    rw [cluster.runFrom_sharedNegatives found]
    exact ⟨_, joinRounds_eq_ok_iff.mpr ⟨given, values, rfl⟩⟩

/-- A shared sample on the record gives the same, and has made the calls for the shares of its
rounds. -/
theorem sharedNegatives_recording (draws : cluster.DrawsShards) (query : NegativeQuery)
    (world : World σ) :
    ∃ rounds, SharesOut cluster.shards query rounds ∧
      ∀ calls, runFrom (cluster.recording.sharedNegatives query) (world.recorded calls) =
        ((runFrom (cluster.sharedNegatives query) world).1,
          (runFrom (cluster.sharedNegatives query) world).2.recorded
            ((callsForRounds query rounds).reverse ++ calls)) := by
  cases found : touchedNamespaces cluster.slots query.nodes with
  | error error =>
      refine ⟨[], ⟨by simp, by simp, by simp⟩, ?_⟩
      intro calls
      rw [sharedNegatives, sharedNegatives, found, runFrom_bind_of_error (runFrom_liftM _ world)]
      exact runFrom_bind_of_error (congrArg (·, world.recorded calls) found)
  | ok touched =>
      obtain ⟨rounds, made, recorded⟩ := poolRounds_recording draws
        (decide (roundsTogether < touched.length)) .now touched world
      refine ⟨rounds, made.sharesOut (firstSeen_of_touchedNamespaces found).toTouches, ?_⟩
      intro calls
      refine (cluster.recording.runFrom_sharedNegatives found (world.recorded calls)).trans ?_
      rw [cluster.runFrom_sharedNegatives found, recorded calls]
      rfl

/-! ## Pools of a client that has connected -/

section Connected

variable {transport : Transport σ} {config : Config} {before after : World σ}

/-- The tables of a client that has connected draw shards. -/
theorem drawsShards_of_connect
    (connected : runFrom (connect transport config) before = (.ok cluster, after)) :
    cluster.DrawsShards := by
  intro slot table stream there
  obtain ⟨_, link, _⟩ := spec_of_connect connected
  rw [shards, link]
  exact (spread_of_connect connected there).2 stream

/-- **Shared samples are exactly what was asked for, or an error.** Let a client be connected to
shards over any transport, which may answer whatever it likes, and let it be asked for shared
samples, with any chance. It makes rounds for different namespaces of the query nodes; in each, the
shares of the shards add up to the number of nodes that are asked for, and there is one call for
each share that is not none, and no other. When the namespaces are spread over the shards, and every
shard gives its shares, there are pools exactly when a list has room for each of them. Whenever there
are pools, there is one for each slot, of the size that is asked for where a query node has the
namespace of the slot, and empty elsewhere. If what the client heard was drawn by the partitions of
the shards, the nodes of a pool belong to the namespace of its slot, none is excluded, and each is a
candidate at some shard. The excluded nodes fit in memory. -/
theorem sharedNegatives_exact
    (connected : runFrom (connect transport config) before = (.ok cluster, after))
    (query : NegativeQuery) (world : World σ) :
    (∃ rounds, SharesOut transport.shards query rounds ∧
      ∀ calls, runFrom (cluster.recording.sharedNegatives query) (world.recorded calls) =
        ((runFrom (cluster.sharedNegatives query) world).1,
          (runFrom (cluster.sharedNegatives query) world).2.recorded
            ((callsForRounds query rounds).reverse ++ calls))) ∧
    (cluster.link.GivesShares query →
      (∀ node ∈ query.nodes, ∃ table,
        cluster.shares.getD (namespaceOf node).toNat none = some table) →
      ((∃ pools, (runFrom (cluster.sharedNegatives query) world).1 = .ok pools) ↔
        query.nodes = [] ∨ query.count.toNat ≤ listLimit)) ∧
    ∀ pools later, runFrom (cluster.sharedNegatives query) world = (.ok pools, later) →
      pools.length = cluster.slots ∧
      ∀ (slot : Nat) pool, pools[slot]? = some pool →
        (pool.length = if slot ∈ query.nodes.map (fun node => (namespaceOf node).toNat)
          then query.count.toNat else 0) ∧
        ∀ namespaces insertions partitions, BuiltShards namespaces insertions partitions →
          cluster.link.SamplesFrom partitions → query.excluded.length < UInt64.size →
            ∀ node ∈ pool, (namespaceOf node).toNat = slot ∧ node ∉ query.excluded ∧
              ∃ partition ∈ partitions, node ∈ partition.candidates (namespaceOf node) := by
  have draws := drawsShards_of_connect connected
  obtain ⟨_, link, _⟩ := spec_of_connect connected
  have counts : cluster.shards = transport.shards := by rw [shards, link]
  refine ⟨counts ▸ sharedNegatives_recording draws query world, ?_, ?_⟩
  · intro gives spread
    refine exists_sharedNegatives_iff draws gives (fun node member => ?_) world
    obtain ⟨table, there⟩ := spread node member
    exact ⟨(spread_of_connect connected there).1, table, there⟩
  intro pools later run
  obtain ⟨length, spec⟩ := spec_of_sharedNegatives draws run
  refine ⟨length, ?_⟩
  intro slot pool there
  rcases spec slot pool there with ⟨entry, among, own, here, gives⟩ | ⟨none, rfl⟩
  · have touched : slot ∈ query.nodes.map fun node => (namespaceOf node).toNat :=
      List.mem_map.mpr ⟨entry.2, among, by rw [← own, here]⟩
    rw [if_pos touched]
    refine ⟨gives.length, ?_⟩
    intro namespaces insertions partitions shards samples few node member
    obtain ⟨same, rest⟩ := Link.GivesPool.mem samples shards few own gives member
    exact ⟨by rw [same, here], rest⟩
  · have untouched : slot ∉ query.nodes.map fun node => (namespaceOf node).toNat := by
      simpa using none
    rw [if_neg untouched]
    exact ⟨rfl, by simp⟩

/-- **A pool repeats only what several shards can give.** Let a client be connected to shards that
draw from their partitions. A pool of a shared sample that it gives holds every node at most as
often as there are shards where the node is a candidate; so no node is there twice unless some node
of the pool is a candidate at two shards. The excluded nodes fit in memory. -/
theorem sharedNegatives_repeats
    (connected : runFrom (connect transport config) before = (.ok cluster, after))
    (shards : BuiltShards namespaces insertions partitions)
    (samples : cluster.link.SamplesFrom partitions) {query : NegativeQuery}
    (few : query.excluded.length < UInt64.size) {world later : World σ}
    {pools : List (List NodeId)}
    (run : runFrom (cluster.sharedNegatives query) world = (.ok pools, later)) :
    ∀ pool ∈ pools,
      (∀ node, pool.count node ≤ partitions.countP fun partition =>
        (partition.candidates (namespaceOf node)).contains node) ∧
      ((∀ node ∈ pool, (partitions.countP fun partition =>
        (partition.candidates (namespaceOf node)).contains node) ≤ 1) → pool.Nodup) := by
  intro pool member
  obtain ⟨slot, there⟩ := List.getElem?_of_mem member
  obtain ⟨_, spec⟩ := spec_of_sharedNegatives (drawsShards_of_connect connected) run
  rcases spec slot pool there with ⟨entry, among, own, here, gives⟩ | ⟨none, rfl⟩
  · have bound := Link.GivesPool.count_le samples shards few own gives
    refine ⟨bound, ?_⟩
    intro apart
    refine List.nodup_iff_count_le_one.mpr fun node => ?_
    by_cases inside : node ∈ pool
    · exact (bound node).trans (apart node inside)
    · rw [List.count_eq_zero_of_not_mem inside]
      exact Nat.zero_le 1
  · exact ⟨by simp, by simp⟩

end Connected

/-! ### Two shards -/

/-- A client that is connected to partitions in the same process hears what they draw. -/
theorem samplesFrom_of_connect (shards : BuiltShards namespaces insertions partitions)
    {config : Config} {cluster : Cluster WordStream} {before after : World WordStream}
    (connected : runFrom (connect (.inProcess (partitions.map Partition.answer)) config) before =
      (.ok cluster, after)) : cluster.link.SamplesFrom partitions := by
  obtain ⟨_, link, _⟩ := spec_of_connect connected
  rw [link]
  exact Link.samplesFrom_toPartitions shards config.deadline?

/-- Chance that spreads two nodes over two shards, and lets a shard draw both of its candidates. -/
def spreadingWorld : World WordStream :=
  ⟨.cycle #[0, 0x80000000], .cycle #[0, 0, 0x80000000, 0]⟩

/-- Two nodes of the namespace of a node, from the shards of even and odd nodes, where the node
itself is a candidate at both. -/
theorem pools_mixed : ∃ after, runFrom
    (connect (.inProcess [evenPartition.answer, oddPartition.answer]) uniformConfig >>=
      fun cluster => cluster.sharedNegatives ⟨2, [2], [3]⟩) spreadingWorld =
        (.ok [[1, 2]], after) := exists_of_toOption_eq_some (by decide +kernel)

/-- Two shards that give one node as often as they are asked for nodes. -/
def generous : Transport Unit where
  shards := 2
  call := fun _ request => return .now (.ok (match request with
    | .metaValue key => .metaValue (if key = pageSizeKey then "5" else "1")
    | .sharedNegatives query => .negatives [List.replicate query.count.toNat 7]
    | _ => .hotNodes []))

theorem connects_generous : ∃ cluster later,
    runFrom (connect generous uniformConfig) ⟨(), .cycle #[]⟩ = (.ok cluster, later) ∧
      ∃ table, cluster.shares.getD 0 none = some table := by
  have spread : (runFrom (connect generous uniformConfig) ⟨(), .cycle #[]⟩).1.toOption.any
      (fun cluster => (cluster.shares.getD 0 none).isSome) = true := by decide +kernel
  obtain ⟨cluster, found, there⟩ := Option.any_eq_true _ _ |>.mp spread
  obtain ⟨later, connected⟩ := exists_of_toOption_eq_some found
  exact ⟨cluster, later, connected, Option.isSome_iff_exists.mp there⟩

/-- Both nodes are candidates that are not excluded, and each shard has given its share. -/
theorem sharedNegatives_exact_mixed :
    BuiltShards .single mixedInsertions [evenPartition, oddPartition] ∧
    [(3 : NodeId)].length < UInt64.size ∧
    ∃ cluster later after,
      runFrom (connect (.inProcess [evenPartition.answer, oddPartition.answer]) uniformConfig)
        spreadingWorld = (.ok cluster, later) ∧
      runFrom (cluster.sharedNegatives ⟨2, [2], [3]⟩) later = (.ok [[1, 2]], after) ∧
      cluster.link.SamplesFrom [evenPartition, oddPartition] ∧
      (∃ rounds, SharesOut 2 ⟨2, [2], [3]⟩ rounds ∧
        runFrom (cluster.recording.sharedNegatives ⟨2, [2], [3]⟩) (later.recorded []) =
          (.ok [[1, 2]], after.recorded (callsForRounds ⟨2, [2], [3]⟩ rounds).reverse)) ∧
      [[(1 : NodeId), 2]].length = cluster.slots ∧
      (∀ node ∈ [(1 : NodeId), 2], namespaceOf node = 0 ∧ node ∉ [(3 : NodeId)] ∧
        ∃ partition ∈ [evenPartition, oddPartition], node ∈ partition.candidates 0) ∧
      ∃ (rich : Cluster Unit) (richer : World Unit) (pools : List (List NodeId)),
        runFrom (connect generous uniformConfig) ⟨(), .cycle #[]⟩ = (.ok rich, richer) ∧
        rich.link.GivesShares ⟨2, [2], [3]⟩ ∧
        (runFrom (rich.sharedNegatives ⟨2, [2], [3]⟩) richer).1 = .ok pools := by
  obtain ⟨after, both⟩ := pools_mixed
  obtain ⟨cluster, later, connected, run⟩ := runFrom_bind_eq_ok both
  have samples := samplesFrom_of_connect builtShards_mixed connected
  obtain ⟨⟨rounds, sharesOut, recorded⟩, _, exactly⟩ :=
    sharedNegatives_exact connected ⟨2, [2], [3]⟩ later
  obtain ⟨length, spec⟩ := exactly [[1, 2]] after run
  obtain ⟨_, drawn⟩ := spec 0 [1, 2] rfl
  refine ⟨builtShards_mixed, by decide, cluster, later, after, connected, run, samples,
    ⟨rounds, sharesOut, ?_⟩, length, ?_, ?_⟩
  · rw [recorded [], run, List.append_nil]
  · intro node member
    obtain ⟨same, rest⟩ := drawn _ _ _ builtShards_mixed samples (by decide) node member
    have same : namespaceOf node = 0 := UInt16.toNat_inj.mp same
    exact ⟨same, same ▸ rest⟩
  · obtain ⟨rich, richer, connected, spread⟩ := connects_generous
    have gives : rich.link.GivesShares ⟨2, [2], [3]⟩ := by
      rw [(spec_of_connect connected).2.1]
      intro shard _ node among count _ state
      rw [List.mem_singleton.mp among]
      exact ⟨_, rfl, List.length_replicate⟩
    obtain ⟨_, progress, _⟩ := sharedNegatives_exact connected ⟨2, [2], [3]⟩ richer
    obtain ⟨pools, run⟩ := (progress gives (by
      intro node among
      rw [List.mem_singleton.mp among]
      exact spread)).mpr (.inr (by decide))
    exact ⟨rich, richer, pools, connected, gives, run⟩

/-- The same with only one candidate left for both shards. -/
theorem repeated_mixed : ∃ after, runFrom
    (connect (.inProcess [evenPartition.answer, oddPartition.answer]) uniformConfig >>=
      fun cluster => cluster.sharedNegatives ⟨2, [2], [1, 3]⟩) spreadingWorld =
        (.ok [[2, 2]], after) := exists_of_toOption_eq_some (by decide +kernel)

/-- A node that is there twice is a candidate at two shards. -/
theorem sharedNegatives_repeats_mixed :
    BuiltShards .single mixedInsertions [evenPartition, oddPartition] ∧
    [(1 : NodeId), 3].length < UInt64.size ∧
    ∃ cluster later after,
      runFrom (connect (.inProcess [evenPartition.answer, oddPartition.answer]) uniformConfig)
        spreadingWorld = (.ok cluster, later) ∧
      cluster.link.SamplesFrom [evenPartition, oddPartition] ∧
      runFrom (cluster.sharedNegatives ⟨2, [2], [1, 3]⟩) later = (.ok [[2, 2]], after) ∧
      2 ≤ [evenPartition, oddPartition].countP fun partition =>
        (partition.candidates 0).contains 2 := by
  obtain ⟨after, both⟩ := repeated_mixed
  obtain ⟨cluster, later, connected, run⟩ := runFrom_bind_eq_ok both
  have samples := samplesFrom_of_connect builtShards_mixed connected
  obtain ⟨bound, _⟩ := sharedNegatives_repeats connected builtShards_mixed samples (by decide) run
    [2, 2] (List.mem_singleton.mpr rfl)
  exact ⟨builtShards_mixed, by decide, cluster, later, after, connected, samples, run, bound 2⟩

/-- Both shards give the node that is left, and the pool holds it twice. -/
theorem repeats_candidate_mixed :
    BuiltShards .single mixedInsertions [evenPartition, oddPartition] ∧
    ∃ cluster later after,
      runFrom (connect (.inProcess [evenPartition.answer, oddPartition.answer]) uniformConfig)
        spreadingWorld = (.ok cluster, later) ∧
      runFrom (cluster.sharedNegatives ⟨2, [2], [1, 3]⟩) later = (.ok [[2, 2]], after) ∧
      ¬[(2 : NodeId), 2].Nodup := by
  obtain ⟨after, both⟩ := repeated_mixed
  obtain ⟨cluster, later, connected, run⟩ := runFrom_bind_eq_ok both
  exact ⟨builtShards_mixed, cluster, later, after, connected, run, by decide⟩

end Cluster

end ShardedGraph
