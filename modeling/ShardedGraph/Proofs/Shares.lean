import Mathlib.Algebra.BigOperators.Group.Finset.Basic
import Mathlib.Algebra.GroupWithZero.Nat
import ShardedGraph.Cluster.Pools
import ShardedGraph.Proofs.Caches
import ShardedGraph.Proofs.Draws
import ShardedGraph.Proofs.FirstSeen

/-!
# Shares of a pool

A pool of a namespace is split among the shards by drawing a shard for each node that is asked for.
So the shares add up to the number of nodes, whatever is drawn, provided that every draw is a shard
(`sum_tally`); for a client that has connected this is so, because the table of a namespace has one
weight for each shard (`Cluster.spread_of_connect`).

**Joining.** When the answers join, the pool is what the shards gave, one part after the other, and
each part has the size of its share (`joinShares_eq_ok`). Places without a request have no share, so
the pool has the size that was asked for (`length_joinShares`). Pools for which no list has room are
not joined (`gatherShares_eq_ok_iff`).
-/

set_option autoImplicit false

namespace ShardedGraph

/-! ## Shares -/

/-- Drawn shards, one for each node of a pool, make shares that add up to the pool. -/
theorem sum_tally {shards : Nat} {drawn : List Nat} (inside : ∀ shard ∈ drawn, shard < shards) :
    (tally shards drawn).sum = drawn.length := by
  have among : ∀ shard ∈ (drawn : Multiset Nat), shard ∈ Finset.range shards := by
    simpa using inside
  have counted := Multiset.sum_count_eq_card among
  simp only [Multiset.coe_count, Multiset.coe_card] at counted
  exact counted

theorem length_tally (shards : Nat) (drawn : List Nat) : (tally shards drawn).length = shards := by
  rw [tally, List.length_map, List.length_range]

/-- The calls for the shares of a pool: one to each shard that has a share, for its share. -/
def shareCalls (split : List Nat) (node : NodeId) (excluded : List NodeId) : List (Nat × Request) :=
  split.zipIdx.filterMap fun (share, shard) =>
    if share = 0 then none
    else some (shard, .sharedNegatives ⟨UInt64.ofNat share, [node], excluded⟩)

theorem callsOf_shareRequests (split : List Nat) (node : NodeId) (excluded : List NodeId) :
    callsOf (shareRequests split node excluded) = shareCalls split node excluded := by
  rw [callsOf, shareRequests, List.zipIdx_map, List.filterMap_map, shareCalls]
  refine List.filterMap_congr fun entry _ => ?_
  by_cases none : entry.1 = 0
  · simp [none]
  · simp [none]

theorem length_shareRequests (split : List Nat) (node : NodeId) (excluded : List NodeId) :
    (shareRequests split node excluded).length = split.length := by
  rw [shareRequests, List.length_map]

/-- What an answer holds of a namespace. -/
def partOf (ns : NamespaceId) (answer : Option (List (List NodeId))) : List NodeId :=
  (answer.getD []).getD ns.toNat []

section Join

variable {ns : NamespaceId} {split : List Nat} {answers : List (Option (List (List NodeId)))}
  {pool : List NodeId}

/-- A pool that shares make is what the shards gave, and each shard gave its share. -/
theorem joinShares_eq_ok (counts : split.length = answers.length)
    (run : joinShares ns split answers = .ok pool) :
    pool = answers.flatMap (partOf ns) ∧
      ∀ (shard : Nat) share pools, split[shard]? = some share →
        answers[shard]? = some (some pools) → (partOf ns (some pools)).length = share := by
  have final := foldlM_keeps
    (fun rest (value : List NodeId) => ∃ done : List ((Nat × Option (List (List NodeId))) × Nat),
      done ++ rest = (split.zip answers).zipIdx ∧
      value = done.flatMap (fun entry => partOf ns entry.1.2) ∧
      ∀ entry ∈ done, ∀ pools, entry.1.2 = some pools → (partOf ns (some pools)).length = entry.1.1)
    (by
      rintro ⟨⟨share, answer⟩, shard⟩ rest before after ⟨done, all, same, fits⟩ step
      refine ⟨done ++ [((share, answer), shard)], by rw [← all, List.append_assoc]; rfl, ?_⟩
      cases answer with
      | none =>
          cases step
          refine ⟨by simp [same, partOf], fun entry member pools given => ?_⟩
          rcases List.mem_append.mp member with old | new
          · exact fits entry old pools given
          · rw [List.mem_singleton.mp new] at given
            cases given
      | some pools =>
          dsimp only at step
          split at step
          · next length =>
            cases step
            refine ⟨by simp [same, partOf], fun entry member pools' given => ?_⟩
            rcases List.mem_append.mp member with old | new
            · exact fits entry old pools' given
            · rw [List.mem_singleton.mp new] at given ⊢
              cases given
              exact length
          · cases step)
    ⟨[], rfl, rfl, by simp⟩ run
  obtain ⟨done, all, rfl, fits⟩ := final
  rw [List.append_nil] at all
  subst all
  have second := congrArg (List.map Prod.snd) (List.zipIdx_map_fst 0 (split.zip answers))
  rw [List.map_map, List.map_snd_zip (Nat.le_of_eq counts.symm)] at second
  refine ⟨?_, fun shard share pools first given => ?_⟩
  · conv_rhs => rw [← second, List.flatMap_map]
    rfl
  · refine fits ((share, some pools), shard) (List.mk_mem_zipIdx_iff_getElem?.mpr ?_) pools rfl
    exact List.getElem?_zip_eq_some.mpr ⟨first, given⟩

/-- Shares make a pool when each shard that answers gave its share. -/
theorem exists_joinShares
    (fits : ∀ (shard : Nat) share pools, split[shard]? = some share →
      answers[shard]? = some (some pools) → (partOf ns (some pools)).length = share) :
    ∃ pool, joinShares ns split answers = .ok pool := by
  obtain ⟨pool, run, _⟩ : ∃ pool, joinShares ns split answers = .ok pool ∧ _ := foldlM_reaches _
    (fun (rest : List ((Nat × Option (List (List NodeId))) × Nat)) _ =>
      ∀ entry ∈ rest, ∀ pools, entry.1.2 = some pools →
        (partOf ns (some pools)).length = entry.1.1)
    (by
      rintro ⟨⟨share, answer⟩, shard⟩ rest before fits
      have others : ∀ entry ∈ rest, ∀ pools, entry.1.2 = some pools →
          (partOf ns (some pools)).length = entry.1.1 :=
        fun entry member => fits entry (.tail _ member)
      cases answer with
      | none => exact ⟨before, rfl, others⟩
      | some pools =>
          refine ⟨before ++ partOf ns (some pools), ?_, others⟩
          exact if_pos (fits _ (.head _) pools rfl))
    [] (by
      rintro ⟨⟨share, answer⟩, shard⟩ member pools rfl
      have place := List.mk_mem_zipIdx_iff_getElem?.mp member
      obtain ⟨first, given⟩ := List.getElem?_zip_eq_some.mp place
      exact fits shard share pools first given)
  exact ⟨pool, run⟩

/-- A pool has the size that its shares add up to, when only shards without a share are silent. -/
theorem length_joinShares (counts : split.length = answers.length)
    (silent : ∀ shard : Nat, answers[shard]? = some none → split[shard]? = some 0)
    (run : joinShares ns split answers = .ok pool) : pool.length = split.sum := by
  obtain ⟨rfl, fits⟩ := joinShares_eq_ok counts run
  have sizes : answers.map (fun answer => (partOf ns answer).length) = split := by
    refine List.ext_getElem (by simp [counts]) fun shard inside inside' => ?_
    have share := List.getElem?_eq_getElem inside'
    rw [List.length_map] at inside
    have place := List.getElem?_eq_getElem inside
    rw [List.getElem_map]
    cases given : answers[shard] with
    | none =>
        rw [given] at place
        rw [silent shard place] at share
        exact Option.some.inj share
    | some pools => exact fits shard _ pools share (place.trans (congrArg some given))
  rw [List.length_flatMap, sizes]

/-- Shares are gathered exactly when a list has room for all nodes and the shares join. -/
theorem gatherShares_eq_ok_iff {count : Nat} :
    gatherShares ns count split answers = .ok pool ↔
      count ≤ listLimit ∧ joinShares ns split answers = .ok pool := by
  unfold gatherShares
  by_cases many : listLimit < count
  · rw [if_pos many]
    exact iff_of_false nofun fun both => Nat.not_lt_of_le both.1 many
  · rw [if_neg many]
    exact (and_iff_right (Nat.le_of_not_lt many)).symm

end Join

/-! ## Spread of a namespace -/

section Connect

variable {σ α : Type}

/-- A broadcast that succeeds has one value from each shard. -/
theorem Link.length_of_broadcast {link : Link σ} {take : Reply → Option α} {request : Request}
    {world later : World σ} {values : List α}
    (run : runFrom (link.broadcast take request) world = (.ok values, later)) :
    values.length = link.transport.shards := by
  obtain ⟨answers, between, fetched, rest⟩ := runFrom_bind_eq_ok run
  have joined := joined_of_fanOut fetched
  have length := (forall₂_of_runFrom_mapM rest).length_eq
  rw [List.length_zipIdx, joined.length, joined.counts] at length
  exact length.symm

/-- The tables of a client that has connected are those of its slots, and each has one weight for
each shard, so it draws shards. -/
theorem Cluster.spread_of_connect {transport : Transport σ} {config : Config} {cluster : Cluster σ}
    {world later : World σ} (run : runFrom (connect transport config) world = (.ok cluster, later))
    {slot : Nat} {table : Kernel.AliasTable} (there : cluster.shares.getD slot none = some table) :
    slot < cluster.slots ∧ ∀ stream, (table.draw.run stream).1 < transport.shards := by
  unfold connect at run
  split at run
  · obtain ⟨_, _, failed, _⟩ := runFrom_bind_eq_ok run
    cases failed
  · obtain ⟨_, _, _, run⟩ := runFrom_bind_eq_ok run
    obtain ⟨_, _, _, run⟩ := runFrom_bind_eq_ok run
    obtain ⟨texts, _, asked, run⟩ := runFrom_bind_eq_ok run
    obtain ⟨reports, _, read, run⟩ := runFrom_bind_eq_ok run
    obtain ⟨slots, _, _, run⟩ := runFrom_bind_eq_ok run
    obtain ⟨shares, _, spread, run⟩ := runFrom_bind_eq_ok run
    obtain ⟨cache, _, _, run⟩ := runFrom_bind_eq_ok run
    cases run
    have counts : reports.length = transport.shards := by
      have length := (mapM_eq_ok_iff.mp (congrArg Prod.fst read)).length_eq
      rw [List.length_zipIdx, Link.length_of_broadcast asked] at length
      exact length.symm
    obtain ⟨length, built⟩ :=
      forall₂_iff_getElem?.mp (mapM_eq_ok_iff.mp (congrArg Prod.fst spread))
    have here : shares[slot]? = some (some table) := by
      rw [List.getD_eq_getElem?_getD] at there
      cases found : shares[slot]? with
      | none => simp [found] at there
      | some share =>
          rw [found] at there
          exact congrArg some there
    obtain ⟨inside, _⟩ := List.getElem?_eq_some_iff.mp here
    rw [← length, List.length_range] at inside
    refine ⟨inside, ?_⟩
    intro stream
    have made := built slot slot _ (List.getElem?_range inside) here
    unfold shareOf at made
    dsimp only at made
    split at made
    · obtain ⟨_, weighed, same⟩ := except_map_eq_ok.mp made
      cases same
      have drawn := Kernel.AliasTable.draw_lt weighed stream
      rwa [List.length_map, counts] at drawn
    · cases made

end Connect

end ShardedGraph
