import ShardedGraph.Cluster.Paths
import ShardedGraph.Proofs.FanOut

/-!
# Rounds of a walk across shards

A walk asks in rounds for as long as some path grows. Which shards answer, and what, is open:
the transport is any transport, so a reply may hold any hops.

**One path.** Taking hops ends a path, or adds a node to it while it stays shorter than its
length (`Trail.extend_eq_ok`, `Trail.On.extend`). So the missing hops of a path that grows on
have become fewer.

**One round.** Every growing path takes the hops that the owner of its last node has sent for
it, and the other paths stay as they are (`Link.growOnce_extends`).

**All rounds.** `Link.Rounds` is the loop of rounds without a bound on their number. From
paths that are not longer than they should be it ends after at most as many rounds as the
longest of them has hops missing (`Link.exists_rounds`), and every bound that is not smaller
gives the same (`Link.growRounds_of_rounds`).
-/

set_option autoImplicit false

namespace ShardedGraph

/-! ## One path -/

namespace Trail

/-- A path from a start that should have a length, has not outgrown it, and grows only while
it is shorter. -/
structure On (start : NodeId) (length : UInt64) (trail : Trail) : Prop where
  start : trail.start = start
  length : trail.length = length.toNat
  growing : trail.isGrowing = true → trail.nodes.length < trail.length
  bounded : trail.nodes.length ≤ max 1 trail.length

/-- The shard that is asked for the next hops of a path. -/
abbrev owner (shards : Nat) (trail : Trail) : Nat := ownerOf shards trail.last

theorem length_nodes (trail : Trail) : trail.nodes.length = trail.hops.length + 1 := rfl

theorem on_ofStart (start : NodeId) (length : UInt64) : (ofStart start length).On start length where
  start := rfl
  length := rfl
  growing := fun grows => of_decide_eq_true grows
  bounded := Nat.le_max_left _ _

/-- Without hops a path ends, unless it is at its start; with hops it grows on or, when these
are enough, ends with its length. -/
theorem extend_eq_ok {trail longer : Trail} {hops : List NodeId}
    (run : trail.extend hops = .ok longer) :
    (hops = [] ∧ trail.hops ≠ [] ∧ longer = { trail with isGrowing := false }) ∨
    (hops ≠ [] ∧ trail.length ≤ (trail.hops ++ hops).length + 1 ∧
      longer = { trail with
        hops := (trail.hops ++ hops).take (trail.length - 1), isGrowing := false }) ∨
    (hops ≠ [] ∧ (trail.hops ++ hops).length + 1 < trail.length ∧
      longer = { trail with hops := trail.hops ++ hops }) := by
  unfold extend at run
  split at run
  · next empty =>
    split at run
    · cases run
    · next moved =>
      cases run
      exact .inl ⟨empty, moved, rfl⟩
  · next some =>
    dsimp only at run
    split at run
    · next enough =>
      cases run
      exact .inr (.inl ⟨some, enough, rfl⟩)
    · next short =>
      cases run
      exact .inr (.inr ⟨some, Nat.lt_of_not_le short, rfl⟩)

variable {start : NodeId} {length : UInt64} {trail longer : Trail} {hops : List NodeId}

/-- Whatever hops a growing path takes, it keeps within its length. -/
theorem On.extend (on : trail.On start length) (grows : trail.isGrowing = true)
    (run : trail.extend hops = .ok longer) : longer.On start length := by
  have room := on.growing grows
  rw [length_nodes] at room
  rcases extend_eq_ok run with ⟨_, _, rfl⟩ | ⟨_, _, rfl⟩ | ⟨_, short, rfl⟩
  · exact ⟨on.start, on.length, fun ended => (Bool.false_ne_true ended).elim, on.bounded⟩
  · refine ⟨on.start, on.length, fun ended => (Bool.false_ne_true ended).elim, ?_⟩
    rw [length_nodes, List.length_take]
    dsimp only
    omega
  · refine ⟨on.start, on.length, fun _ => short, ?_⟩
    rw [length_nodes]
    dsimp only
    omega

/-- A path that grows on misses fewer hops than before. -/
theorem missing_lt_of_extend (run : trail.extend hops = .ok longer)
    (grows : longer.isGrowing = true) : longer.missing < trail.missing := by
  rcases extend_eq_ok run with ⟨_, _, rfl⟩ | ⟨_, _, rfl⟩ | ⟨some, short, rfl⟩
  · cases grows
  · cases grows
  · have added := List.length_pos_iff.mpr some
    rw [List.length_append] at short
    simp only [missing, length_nodes, List.length_append]
    omega

/-- The hops that a growing path is still to take, and those that it has taken, fit a word. -/
theorem On.toNat_missing (on : trail.On start length) (grows : trail.isGrowing = true) :
    0 < (UInt64.ofNat trail.missing).toNat ∧
      (UInt64.ofNat trail.missing).toNat + trail.nodes.length = trail.length ∧
      (UInt64.ofNat trail.hops.length).toNat = trail.hops.length := by
  have room := on.growing grows
  have bound : trail.length < UInt64.size := on.length ▸ length.toNat_lt
  have taken := trail.length_nodes
  have exact : ∀ count, count ≤ trail.length → (UInt64.ofNat count).toNat = count :=
    fun count small => UInt64.toNat_ofNat_of_lt (by omega)
  rw [missing, exact _ (Nat.sub_le _ _), exact _ (by omega)]
  omega

end Trail

/-! ## Several paths -/

namespace Trail

/-- One path from every start, within the length that belongs to the start. -/
abbrev AllOn (starts : List NodeId) (lengths : List UInt64) (trails : List Trail) : Prop :=
  List.Forall₂ (fun ends trail => trail.On ends.1 ends.2) (starts.zip lengths) trails

theorem allOn_ofStart (starts : List NodeId) (lengths : List UInt64) :
    AllOn starts lengths (List.zipWith ofStart starts lengths) := by
  rw [AllOn, ← List.map_uncurry_zip_eq_zipWith, List.forall₂_map_right_iff, List.forall₂_same]
  exact fun ends _ => on_ofStart ends.1 ends.2

/-- Positions that take hops lie each in its own place: the path there takes the hops that
stand beside the position, and the other paths stay. -/
theorem extendAt_foldlM {entries : List (Nat × List NodeId)} {before after : List Trail}
    (distinct : (entries.map Prod.fst).Nodup)
    (run : entries.foldlM (fun trails (position, hops) => extendAt trails position hops) before =
      .ok after) :
    after.length = before.length ∧
      (∀ position, position ∉ entries.map Prod.fst → after[position]? = before[position]?) ∧
      ∀ entry ∈ entries, ∀ trail, before[entry.1]? = some trail →
        ∃ longer, trail.extend entry.2 = .ok longer ∧ after[entry.1]? = some longer := by
  induction entries generalizing before with
  | nil =>
      cases run
      exact ⟨rfl, fun _ _ => rfl, fun _ member => (List.not_mem_nil member).elim⟩
  | cons entry entries ih =>
      rw [List.foldlM_cons] at run
      rw [List.map_cons, List.nodup_cons] at distinct
      obtain ⟨between, head, rest⟩ := except_bind_eq_ok.mp run
      obtain ⟨length, others, taken⟩ := ih distinct.2 rest
      have first : between.length = before.length ∧
          (∀ position, position ≠ entry.1 → between[position]? = before[position]?) ∧
          ∀ trail, before[entry.1]? = some trail →
            ∃ longer, trail.extend entry.2 = .ok longer ∧ between[entry.1]? = some longer := by
        dsimp only [extendAt] at head
        split at head
        · next trail there =>
          obtain ⟨longer, extended, rfl⟩ := except_map_eq_ok.mp head
          obtain ⟨inside, _⟩ := List.getElem?_eq_some_iff.mp there
          refine ⟨List.length_set, fun position other => List.getElem?_set_ne other.symm, ?_⟩
          intro found here
          cases there.symm.trans here
          exact ⟨longer, extended, List.getElem?_set_self inside⟩
        · next outside =>
          cases head
          refine ⟨rfl, fun _ _ => rfl, fun trail there => ?_⟩
          rw [outside] at there
          cases there
      refine ⟨length.trans first.1, fun position elsewhere => ?_, fun taker member trail there => ?_⟩
      · rw [List.map_cons, List.mem_cons, not_or] at elsewhere
        rw [others position elsewhere.2, first.2.1 position elsewhere.1]
      · rcases List.mem_cons.mp member with rfl | later
        · obtain ⟨longer, extended, there'⟩ := first.2.2 trail there
          exact ⟨longer, extended, (others _ distinct.1).trans there'⟩
        · have different : taker.1 ≠ entry.1 := fun same =>
            distinct.1 (same ▸ List.mem_map_of_mem later)
          exact taken taker later trail ((first.2.1 _ different).trans there)

/-- The growing paths go to the owners of their last nodes. -/
theorem growing_of_pos {shards : Nat} (positive : 0 < shards) (trails : List Trail) :
    growing shards trails =
      .ok ⟨shards, parcelsOf (owner shards) isGrowing trails⟩ := by
  simp only [growing, shardOf_of_pos positive]
  exact congrArg (· >>= fun parcels => Except.ok (Batch.mk shards parcels)) (List.mapM_pure)

/-- Without shards no path can grow. -/
theorem growing_zero {trails : List Trail} (grows : trails.any isGrowing = true) :
    growing 0 trails = .error .noShards := by
  obtain ⟨trail, member, grows⟩ := List.any_eq_true.mp grows
  obtain ⟨position, there⟩ := List.getElem?_of_mem member
  have kept : (trail, position) ∈ trails.zipIdx.filter fun entry => entry.1.isGrowing :=
    List.mem_filter.mpr ⟨List.mk_mem_zipIdx_iff_getElem?.mpr there, grows⟩
  obtain ⟨entry, entries, first⟩ := List.exists_cons_of_ne_nil (List.ne_nil_of_mem kept)
  simp only [growing, first, List.mapM_cons]
  rfl

/-- The calls of a round: one to every shard that owns last nodes of growing paths, for the
missing hops of these paths and with the numbers of hops that they have taken. -/
abbrev calls (path : List NamespaceId) (shards : Nat) (trails : List Trail) :
    List (Nat × Request) :=
  callsTo (owner shards) isGrowing (request path) shards trails

end Trail

namespace Link

variable {σ : Type}

/-- Hops that the owner of the last node of a path may have sent for it, when it was asked
about this path among other paths of a list. -/
def Sends (link : Link σ) (path : List NamespaceId) (trails : List Trail) (trail : Trail)
    (hops : List NodeId) : Prop :=
  ∃ part lists state, part.Sublist trails ∧
    (∀ other ∈ part, other.isGrowing = true ∧
      other.owner link.transport.shards = trail.owner link.transport.shards) ∧
    ((link.ask Reply.walks? (trail.owner link.transport.shards)
      (Trail.request path part)).run state).1.value = .ok lists ∧
    ∃ index : Nat, part[index]? = some trail ∧ lists[index]? = some hops

/-- A path after a round: one that grows has taken hops, any other one is as before. -/
def Extends (link : Link σ) (path : List NamespaceId) (trails : List Trail) (trail longer : Trail) :
    Prop :=
  if trail.isGrowing = true then
    ∃ hops, link.Sends path trails trail hops ∧ trail.extend hops = .ok longer
  else longer = trail

/-- A round is a fan-out to the owners of the last nodes, whose hops are then taken. -/
theorem runFrom_growOnce (link : Link σ) (path : List NamespaceId)
    (positive : 0 < link.transport.shards) (trails : List Trail) (world : World σ) :
    runFrom (link.growOnce path trails) world =
      runFrom (do
        let answers ← link.fanOut Reply.walks?
          (forOwners (Trail.owner link.transport.shards) Trail.isGrowing trails
            link.transport.shards fun _ => Trail.request path)
        liftM (eachAnswer (Batch.mk link.transport.shards
          (parcelsOf (Trail.owner link.transport.shards) Trail.isGrowing
            trails)).positions answers trails Trail.extendAll)) world := by
  rw [growOnce, Trail.growing_of_pos positive, runFrom_bind_of_ok (runFrom_liftM _ world),
    requests_parcelsOf]

theorem runFrom_growOnce_zero (link : Link σ) (path : List NamespaceId)
    (none : link.transport.shards = 0) {trails : List Trail}
    (grows : trails.any Trail.isGrowing = true) (world : World σ) :
    runFrom (link.growOnce path trails) world = (.error .noShards, world) := by
  rw [growOnce, none, Trail.growing_zero grows]
  exact runFrom_bind_of_error (runFrom_liftM _ world)

/-- The hops of a shard are taken by the paths that it was asked about, in order. -/
theorem extends_of_extendAll (link : Link σ) {path : List NamespaceId} {shard : Nat}
    {trails before after : List Trail} {lists : List (List NodeId)} {state : σ}
    (sent : ((link.ask Reply.walks? shard (Trail.request path
      (trails.filter fun trail : Trail => trail.isGrowing &&
        trail.owner link.transport.shards == shard))).run state).1.value = .ok lists)
    (run : Trail.extendAll shard
      ((parcelsOf (Trail.owner link.transport.shards)
        (fun trail : Trail => trail.isGrowing && trail.owner link.transport.shards == shard)
        trails).map Parcel.position) lists before = .ok after)
    (still : ∀ (position : Nat) trail, trails[position]? = some trail → trail.isGrowing = true →
      trail.owner link.transport.shards = shard → before[position]? = some trail) :
    after.length = before.length ∧ ∀ (position : Nat) trail, trails[position]? = some trail →
      if trail.isGrowing = true ∧ trail.owner link.transport.shards = shard then
        ∃ longer, link.Extends path trails trail longer ∧ after[position]? = some longer
      else after[position]? = before[position]? := by
  unfold Trail.extendAll at run
  split at run
  · next counts =>
    have firsts := List.map_fst_zip (Nat.le_of_eq counts.symm)
    obtain ⟨length, others, taken⟩ := Trail.extendAt_foldlM
      (firsts.symm ▸ nodup_positions_parcelsOf) run
    rw [firsts] at others
    refine ⟨length, fun position trail there => ?_⟩
    split
    · next mine =>
      have parcel : (⟨trail.owner link.transport.shards, position, trail⟩ : Parcel Trail) ∈
          parcelsOf (Trail.owner link.transport.shards)
            (fun trail : Trail => trail.isGrowing && trail.owner link.transport.shards == shard)
            trails := mem_parcelsOf.mpr ⟨there, by simp [mine.1, mine.2], rfl⟩
      obtain ⟨index, here⟩ := List.getElem?_of_mem parcel
      have asked := congrArg (Option.map Parcel.position) here
      have about := congrArg (Option.map Parcel.item) here
      rw [← List.getElem?_map, Option.map_some] at asked about
      rw [map_item_parcelsOf] at about
      obtain ⟨inside, _⟩ := List.getElem?_eq_some_iff.mp asked
      obtain ⟨hops, given⟩ : ∃ hops, lists[index]? = some hops :=
        ⟨_, List.getElem?_eq_getElem (by omega)⟩
      have entry : (position, hops) ∈ (((parcelsOf _ _ trails).map Parcel.position).zip lists) :=
        List.mem_of_getElem? (List.getElem?_zip_eq_some.mpr ⟨asked, given⟩)
      obtain ⟨longer, extended, there'⟩ :=
        taken _ entry trail (still position trail there mine.1 mine.2)
      refine ⟨longer, ?_, there'⟩
      rw [Extends, if_pos mine.1]
      refine ⟨hops, ⟨_, lists, state, List.filter_sublist, fun other member => ?_,
        mine.2 ▸ sent, index, mine.2 ▸ about, given⟩, extended⟩
      simpa [mine.2] using (List.mem_filter.mp member).2
    · next other =>
      refine others position fun member => other ?_
      obtain ⟨parcel, among, rfl⟩ := List.mem_map.mp member
      obtain ⟨there', kept, _⟩ := mem_parcelsOf.mp among
      cases there.symm.trans there'
      simpa using kept
  · cases run

/-- Paths when the shards below a number have sent their hops: the growing paths whose last nodes
these shards own have taken theirs, and the other paths are still as they were. -/
structure ExtendsBelow (link : Link σ) (path : List NamespaceId) (trails : List Trail) (shard : Nat)
    (value : List Trail) : Prop where
  length : value.length = trails.length
  taken : ∀ (position : Nat) trail, trails[position]? = some trail → trail.isGrowing = true →
    trail.owner link.transport.shards < shard →
      ∃ longer, link.Extends path trails trail longer ∧ value[position]? = some longer
  still : ∀ (position : Nat) trail, trails[position]? = some trail →
    ¬(trail.isGrowing = true ∧ trail.owner link.transport.shards < shard) →
      value[position]? = some trail

section ExtendsBelow

variable {link : Link σ} {path : List NamespaceId} {trails before after : List Trail} {shard : Nat}

/-- A shard extends the paths whose last nodes it owns and leaves the others alone. -/
theorem ExtendsBelow.succ (below : link.ExtendsBelow path trails shard before)
    (length : after.length = before.length)
    (moved : ∀ (position : Nat) trail, trails[position]? = some trail →
      if trail.isGrowing = true ∧ trail.owner link.transport.shards = shard then
        ∃ longer, link.Extends path trails trail longer ∧ after[position]? = some longer
      else after[position]? = before[position]?) :
    link.ExtendsBelow path trails (shard + 1) after := by
  refine ⟨length.trans below.length, ?_, ?_⟩
  · intro position trail there grows small
    have move := moved position trail there
    by_cases mine : trail.owner link.transport.shards = shard
    · rwa [if_pos ⟨grows, mine⟩] at move
    · rw [if_neg fun both => mine both.2] at move
      rw [move]
      exact below.taken position trail there grows (by omega)
  · intro position trail there other
    have move := moved position trail there
    rw [if_neg fun both => other ⟨both.1, by omega⟩] at move
    rw [move]
    exact below.still position trail there fun both => other ⟨both.1, by omega⟩

/-- When all shards have sent their hops, all growing paths have taken theirs. -/
theorem ExtendsBelow.forall₂
    (below : link.ExtendsBelow path trails link.transport.shards after)
    (positive : 0 < link.transport.shards) :
    List.Forall₂ (link.Extends path trails) trails after := by
  refine forall₂_iff_getElem?.mpr ⟨below.length.symm, ?_⟩
  intro position trail new there there'
  by_cases grows : trail.isGrowing = true
  · obtain ⟨longer, extended, here⟩ :=
      below.taken position trail there grows (ownerOf_lt positive _)
    cases here.symm.trans there'
    exact extended
  · have here := below.still position trail there fun both => grows both.1
    cases here.symm.trans there'
    rw [Extends, if_neg grows]

variable {answers : List (Option (List (List NodeId)))}
  (joined : link.Joined Reply.walks?
    (forOwners (Trail.owner link.transport.shards) Trail.isGrowing trails link.transport.shards
      fun _ => Trail.request path) answers)

include joined

/-- The hops that a shard has sent extend the growing paths that it was asked about. -/
theorem ExtendsBelow.step (below : link.ExtendsBelow path trails shard before) {slice : List Nat}
    (there : (Batch.mk link.transport.shards
      (parcelsOf (Trail.owner link.transport.shards) Trail.isGrowing trails)).positions[shard]? =
        some slice)
    {lists : List (List NodeId)} (given : answers[shard]? = some (some lists))
    (run : Trail.extendAll shard slice lists before = .ok after) :
    link.ExtendsBelow path trails (shard + 1) after := by
  rw [positions_parcelsOf, List.getElem?_map, Option.map_eq_some_iff] at there
  obtain ⟨number, there, rfl⟩ := there
  obtain ⟨_, rfl⟩ := List.getElem?_eq_some_iff.mp there
  rw [List.getElem_range] at run
  obtain ⟨state, sent⟩ := joined.sent given
  obtain ⟨length, moved⟩ := link.extends_of_extendAll sent run
    fun position trail there _ mine => below.still position trail there fun both => by omega
  exact below.succ length moved

/-- A shard that was not asked owns no last node of a growing path. -/
theorem ExtendsBelow.skip (below : link.ExtendsBelow path trails shard before)
    (silent : answers[shard]? = some none) :
    link.ExtendsBelow path trails (shard + 1) before := by
  refine below.succ rfl fun position trail there => ?_
  rw [if_neg]
  rintro ⟨grows, mine⟩
  exact List.filter_eq_nil_iff.mp (joined.nothing silent) trail (List.mem_of_getElem? there)
    (by simp [grows, mine])

end ExtendsBelow

/-- Before the first shard, no path has been extended. -/
theorem extendsBelow_zero (link : Link σ) (path : List NamespaceId) (trails : List Trail) :
    link.ExtendsBelow path trails 0 trails :=
  ⟨rfl, fun _ _ _ _ small => absurd small (Nat.not_lt_zero _), fun _ _ there _ => there⟩

/-- In a round that succeeds, every growing path takes hops that the owner of its last node
has sent for it, and every other path stays. -/
theorem growOnce_extends {link : Link σ} {path : List NamespaceId} {trails longer : List Trail}
    {world later : World σ} (grows : trails.any Trail.isGrowing = true)
    (run : runFrom (link.growOnce path trails) world = (.ok longer, later)) :
    List.Forall₂ (link.Extends path trails) trails longer := by
  rcases Nat.eq_zero_or_pos link.transport.shards with none | positive
  · rw [link.runFrom_growOnce_zero path none grows] at run
    cases run
  rw [link.runFrom_growOnce path positive] at run
  obtain ⟨answers, between, fetched, rest⟩ := runFrom_bind_eq_ok run
  rw [runFrom_liftM] at rest
  have joined := joined_of_fanOut fetched
  have size : (Batch.mk link.transport.shards
      (parcelsOf (Trail.owner link.transport.shards) Trail.isGrowing
        trails)).positions.length = link.transport.shards := by
    rw [positions_parcelsOf, List.length_map, List.length_range]
  have counts := size.trans ((length_forOwners _ _).symm.trans joined.length.symm)
  have final := eachAnswer_keeps (link.ExtendsBelow path trails)
    (fun _ _ _ _ _ there given below run => below.step joined there given run)
    (fun _ _ silent below => below.skip joined silent) counts (link.extendsBelow_zero path trails)
    (congrArg Prod.fst rest)
  rw [size] at final
  exact final.forall₂ positive

/-- A round calls each shard that owns last nodes of growing paths once, for these paths, and
calls nobody else, whatever the shards answer. -/
theorem growOnce_recording (link : Link σ) (path : List NamespaceId) {trails : List Trail}
    (grows : trails.any Trail.isGrowing = true) (world : World σ) (calls : List (Nat × Request)) :
    runFrom (link.recording.growOnce path trails) (world.recorded calls) =
      ((runFrom (link.growOnce path trails) world).1,
        (runFrom (link.growOnce path trails) world).2.recorded
          ((Trail.calls path link.transport.shards trails).reverse ++ calls)) := by
  rcases Nat.eq_zero_or_pos link.transport.shards with none | positive
  · rw [link.runFrom_growOnce_zero path none grows, none]
    exact link.recording.runFrom_growOnce_zero path none grows _
  · rw [link.runFrom_growOnce path positive]
    refine (link.recording.runFrom_growOnce path positive trails _).trans ?_
    rw [Trail.calls, ← callsOf_forOwners]
    exact link.fanOut_bind_recording Reply.walks? (length_forOwners _ _) _ world calls

/-! ## All rounds -/

/-- The loop of rounds: from paths and a world, with the paths before each round, to a result
and the world after it. Another round begins exactly while some path grows. -/
inductive Rounds (link : Link σ) (path : List NamespaceId) :
    List Trail → World σ → List (List Trail) → Except Error (List Trail) → World σ → Prop
  | finished {trails world} (still : trails.any Trail.isGrowing = false) :
      Rounds link path trails world [] (.ok trails) world
  | failed {trails world error later} (grows : trails.any Trail.isGrowing = true)
      (run : runFrom (link.growOnce path trails) world = (.error error, later)) :
      Rounds link path trails world [trails] (.error error) later
  | round {trails world longer between asked result later}
      (grows : trails.any Trail.isGrowing = true)
      (run : runFrom (link.growOnce path trails) world = (.ok longer, between))
      (rest : Rounds link path longer between asked result later) :
      Rounds link path trails world (trails :: asked) result later

section Rounds

variable {link : Link σ} {path : List NamespaceId} {trails : List Trail} {world later : World σ}
  {asked : List (List Trail)} {result : Except Error (List Trail)}

/-- A bound on the number of rounds that they do not reach changes nothing. -/
theorem growRounds_of_rounds (rounds : link.Rounds path trails world asked result later)
    {limit : Nat} (bound : asked.length ≤ limit) :
    runFrom (link.growRounds path limit trails) world = (result, later) := by
  induction rounds generalizing limit with
  | @finished trails world still =>
      cases limit with
      | zero => rfl
      | succ limit =>
          rw [growRounds, if_neg (Bool.eq_false_iff.mp still)]
          rfl
  | failed grows run =>
      cases limit with
      | zero => cases bound
      | succ limit =>
          rw [growRounds, if_pos grows]
          exact runFrom_bind_of_error run
  | round grows run rest ih =>
      cases limit with
      | zero => cases bound
      | succ limit =>
          rw [growRounds, if_pos grows, runFrom_bind_of_ok run]
          exact ih (Nat.le_of_succ_le_succ bound)

/-- The rounds of a client whose transport records its calls are the same, and every round
has made its calls. -/
theorem Rounds.recording (rounds : link.Rounds path trails world asked result later)
    (calls : List (Nat × Request)) :
    link.recording.Rounds path trails (world.recorded calls) asked result
      (later.recorded
        ((asked.flatMap (Trail.calls path link.transport.shards)).reverse ++ calls)) := by
  induction rounds generalizing calls with
  | finished still => exact .finished still
  | failed grows run =>
      refine .failed grows ?_
      rw [growOnce_recording link path grows, run, List.flatMap_singleton]
  | round grows run rest ih =>
      refine .round grows ?_ (by
        rw [List.flatMap_cons, List.reverse_append, List.append_assoc]
        exact ih _)
      rw [growOnce_recording link path grows, run]

/-- A round keeps every path within its length. -/
theorem allOn_growOnce {starts : List NodeId} {lengths : List UInt64} {longer : List Trail}
    (on : Trail.AllOn starts lengths trails) (grows : trails.any Trail.isGrowing = true)
    (run : runFrom (link.growOnce path trails) world = (.ok longer, later)) :
    Trail.AllOn starts lengths longer := by
  obtain ⟨length, places⟩ := forall₂_iff_getElem?.mp on
  obtain ⟨length', moves⟩ := forall₂_iff_getElem?.mp (growOnce_extends grows run)
  refine forall₂_iff_getElem?.mpr ⟨length.trans length', fun position ends new here there => ?_⟩
  obtain ⟨inside, _⟩ := List.getElem?_eq_some_iff.mp here
  obtain ⟨trail, before⟩ : ∃ trail, trails[position]? = some trail :=
    ⟨_, List.getElem?_eq_getElem (by omega)⟩
  have move := moves position trail new before there
  have place := places position ends trail here before
  unfold Extends at move
  split at move
  · next growing =>
    obtain ⟨hops, _, extended⟩ := move
    exact place.extend growing extended
  · rwa [move]

/-- A path that grows after a round has fewer hops missing than some path that grew before. -/
theorem missing_lt_of_growOnce {longer : List Trail} (grows : trails.any Trail.isGrowing = true)
    (run : runFrom (link.growOnce path trails) world = (.ok longer, later)) :
    ∀ new ∈ longer, new.isGrowing = true →
      ∃ trail ∈ trails, trail.isGrowing = true ∧ new.missing < trail.missing := by
  intro new member growing
  obtain ⟨trail, before, move⟩ := exists_of_forall₂_of_mem (growOnce_extends grows run) member
  unfold Extends at move
  split at move
  · next grew =>
    obtain ⟨hops, _, extended⟩ := move
    exact ⟨trail, before, grew, Trail.missing_lt_of_extend extended growing⟩
  · next stopped =>
    rw [move] at growing
    exact absurd growing stopped

/-- From paths within their lengths, the loop ends after at most as many rounds as a growing
path has hops missing. -/
theorem exists_rounds (link : Link σ) (path : List NamespaceId) {starts : List NodeId}
    {lengths : List UInt64} {limit : Nat} {trails : List Trail}
    (on : Trail.AllOn starts lengths trails)
    (bound : ∀ trail ∈ trails, trail.isGrowing = true → trail.missing ≤ limit) (world : World σ) :
    ∃ asked result later,
      link.Rounds path trails world asked result later ∧ asked.length ≤ limit := by
  induction limit generalizing trails world with
  | zero =>
      refine ⟨[], _, _, .finished (Bool.eq_false_iff.mpr fun grows => ?_), Nat.le_refl _⟩
      obtain ⟨trail, member, growing⟩ := List.any_eq_true.mp grows
      obtain ⟨ends, _, within⟩ := exists_of_forall₂_of_mem on member
      have room := within.growing growing
      have none := bound trail member growing
      rw [Trail.missing] at none
      omega
  | succ limit ih =>
      cases grows : trails.any Trail.isGrowing with
      | false => exact ⟨[], _, _, .finished grows, Nat.zero_le _⟩
      | true =>
          rcases run : runFrom (link.growOnce path trails) world with ⟨result, between⟩
          cases result with
          | error error => exact ⟨[trails], _, _, .failed grows run, by simp⟩
          | ok longer =>
              obtain ⟨asked, result, later, rest, few⟩ := ih (allOn_growOnce on grows run)
                (by
                  intro new member growing
                  obtain ⟨trail, before, grew, less⟩ :=
                    missing_lt_of_growOnce grows run new member growing
                  have most := bound trail before grew
                  omega)
                between
              exact ⟨trails :: asked, result, later, .round grows run rest, Nat.succ_le_succ few⟩

/-- All through the rounds, the paths keep within their lengths; in the end none grows. -/
theorem Rounds.allOn {starts : List NodeId} {lengths : List UInt64}
    (rounds : link.Rounds path trails world asked result later)
    (on : Trail.AllOn starts lengths trails) :
    (∀ before ∈ asked, Trail.AllOn starts lengths before) ∧
      ∀ last, result = .ok last → Trail.AllOn starts lengths last ∧
        last.any Trail.isGrowing = false := by
  induction rounds with
  | finished still =>
      refine ⟨fun before member => (List.not_mem_nil member).elim, fun last equal => ?_⟩
      cases equal
      exact ⟨on, still⟩
  | failed grows run =>
      refine ⟨fun before member => ?_, fun last equal => by cases equal⟩
      rwa [List.mem_singleton.mp member]
  | round grows run rest ih =>
      obtain ⟨before, final⟩ := ih (allOn_growOnce on grows run)
      refine ⟨fun trails member => ?_, final⟩
      rcases List.mem_cons.mp member with rfl | later
      · exact on
      · exact before trails later

end Rounds

end Link

/-! ## Walks -/

namespace Trail

/-- No path has more hops missing than the round limit says. -/
theorem missing_le_roundLimit {trails : List Trail} {trail : Trail} (member : trail ∈ trails) :
    trail.missing ≤ roundLimit trails := by
  have among : trail.missing ∈ trails.map missing := List.mem_map_of_mem member
  rw [roundLimit, List.foldl_max_eq_max (List.ne_nil_of_mem among)]
  exact Nat.le_trans (List.le_max_of_mem among) (Nat.le_max_right _ _)

/-- At first, a path has all hops missing. -/
theorem roundLimit_ofStart {starts : List NodeId} {lengths : List UInt64}
    (counts : starts.length = lengths.length) :
    roundLimit (List.zipWith ofStart starts lengths) =
      (lengths.map fun length => length.toNat - 1).foldl max 0 := by
  have hops : (List.zipWith ofStart starts lengths).map missing =
      lengths.map fun length => length.toNat - 1 := by
    conv_rhs => rw [← List.map_snd_zip (Nat.le_of_eq counts.symm)]
    rw [← List.map_uncurry_zip_eq_zipWith, List.map_map, List.map_map]
    rfl
  rw [roundLimit, hops]

end Trail

namespace Link

variable {σ : Type}

theorem runFrom_walk (link : Link σ) {starts : List NodeId} {lengths : List UInt64}
    {path : List NamespaceId} (counts : starts.length = lengths.length) {world later : World σ}
    {asked : List (List Trail)} {result : Except Error (List Trail)}
    (rounds : link.Rounds path (List.zipWith Trail.ofStart starts lengths) world asked result later)
    (few : asked.length ≤ Trail.roundLimit (List.zipWith Trail.ofStart starts lengths)) :
    runFrom (link.walk starts lengths path) world =
      (result.map (List.map Trail.nodes), later) := by
  rw [walk, if_pos counts]
  have run := growRounds_of_rounds rounds few
  cases result with
  | error error => exact runFrom_bind_of_error run
  | ok grown => exact runFrom_bind_of_ok run

/-- **A walk ends and keeps within its lengths, whatever the shards answer.** The loop of
rounds ends after at most as many rounds as the longest path has hops, and its result is that
of the walk. Before every round, each path that still grows is shorter than it should be; the
hops it misses, of which there is at least one, and the hops it has taken are what the request
for it says. On the record, the calls are those of the rounds: one to every shard that owns
last nodes of growing paths, about exactly these paths. If there are paths in the end, each one
begins at its start and has at most its length, or is its start alone. -/
theorem walk_ends (link : Link σ) (starts : List NodeId) (lengths : List UInt64)
    (path : List NamespaceId) (counts : starts.length = lengths.length) (world : World σ)
    (calls : List (Nat × Request)) :
    ∃ asked result later,
      link.Rounds path (List.zipWith Trail.ofStart starts lengths) world asked result later ∧
      runFrom (link.walk starts lengths path) world =
        (result.map (List.map Trail.nodes), later) ∧
      asked.length ≤ (lengths.map fun length => length.toNat - 1).foldl max 0 ∧
      (∀ trails ∈ asked, List.Forall₂
        (fun ends trail => trail.start = ends.1 ∧ trail.length = ends.2.toNat ∧
          (trail.isGrowing = true → trail.nodes.length < ends.2.toNat ∧
            0 < (UInt64.ofNat trail.missing).toNat ∧
            (UInt64.ofNat trail.missing).toNat + trail.nodes.length = ends.2.toNat ∧
            (UInt64.ofNat trail.hops.length).toNat = trail.hops.length))
        (starts.zip lengths) trails) ∧
      runFrom (link.recording.walk starts lengths path) (world.recorded calls) =
        (result.map (List.map Trail.nodes), later.recorded
          ((asked.flatMap (Trail.calls path link.transport.shards)).reverse ++ calls)) ∧
      ∀ grown, result = .ok grown → List.Forall₂
        (fun ends nodes => nodes.head? = some ends.1 ∧ nodes.length ≤ max 1 ends.2.toNat)
        (starts.zip lengths) (grown.map Trail.nodes) := by
  have on := Trail.allOn_ofStart starts lengths
  obtain ⟨asked, result, later, rounds, few⟩ := link.exists_rounds path on
    (fun trail member _ => Trail.missing_le_roundLimit member) world
  obtain ⟨before, final⟩ := rounds.allOn on
  refine ⟨asked, result, later, rounds, link.runFrom_walk counts rounds few,
    Trail.roundLimit_ofStart counts ▸ few, fun trails member => ?_,
    link.recording.runFrom_walk counts (rounds.recording calls) few, fun grown ok => ?_⟩
  · refine (before trails member).imp fun ends trail within =>
      ⟨within.start, within.length, fun grows => ?_⟩
    rw [← within.length]
    exact ⟨within.growing grows, within.toNat_missing grows⟩
  · rw [List.forall₂_map_right_iff]
    refine (final grown ok).1.imp fun ends trail within => ⟨?_, ?_⟩
    · exact congrArg some within.start
    · rw [← within.length]
      exact within.bounded

/-- Two shards, each of which answers every walk with more hops than it is asked for, none of
which is a neighbor of anything. -/
def inventing : Link Unit where
  transport := {
    shards := 2
    call := fun _ request => return .now (match request with
      | .walks walks => .ok (.walks (walks.starts.map fun start => [start + 1, 0, 0, 0, 0]))
      | _ => .error (.unhandled request.operation)) }
  deadline := none

theorem walk_ends_inventing :
    [4, 9].length = [(3 : UInt64), 0].length ∧
    ∃ asked result later,
      inventing.Rounds [] [⟨4, [], 3, true⟩, ⟨9, [], 0, false⟩] ⟨(), .cycle #[]⟩ asked result later ∧
      runFrom (inventing.walk [4, 9] [3, 0] []) ⟨(), .cycle #[]⟩ =
        (result.map (List.map Trail.nodes), later) ∧
      asked.length ≤ 2 := by
  obtain ⟨asked, result, later, rounds, run, few, _⟩ :=
    walk_ends inventing [4, 9] [3, 0] [] rfl ⟨(), .cycle #[]⟩ []
  exact ⟨rfl, asked, result, later, rounds, run, few⟩

end Link

end ShardedGraph
