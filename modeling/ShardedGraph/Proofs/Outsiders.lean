import ShardedGraph.Proofs.Faults
import ShardedGraph.Proofs.Pools

/-!
# Nodes of unknown namespaces

A shared sample is refused because of a node whose namespace has no slot exactly when the search for
namespaces refuses this node (`RefusedAt`). Nothing has been drawn and nobody has been asked then,
and whatever a sample finds wrong later is something else: the errors of samples and of rounds are
of other forms, and a transport reports the errors of shards as those of shards, or stops with them
(`Transport.KeepsBlame`).

**Order.** Nodes that leave a slot open are searched to the end. Among them one of an unknown
namespace is found wherever it stands (`exists_refusedAt_iff`). When every slot has been seen the
search ends, and the nodes that follow are not looked at. So in general the order of the nodes
decides whether a sample is refused (`outsiders_overlooked_mixed`).
-/

set_option autoImplicit false

namespace ShardedGraph

variable {σ : Type}

/-! ## What is refused -/

/-- Nodes some of which have no slot are refused unless those before the first of them have seen
every slot. -/
theorem exists_refusedAt_iff {slots : Nat} {nodes : List NodeId} :
    (∃ node, RefusedAt slots nodes node) ↔
      (∃ node ∈ nodes, hasSlot slots node = false) ∧
        LeavesOpen slots (nodes.takeWhile (hasSlot slots)) := by
  constructor
  · rintro ⟨node, refused⟩
    refine ⟨⟨node, List.mem_of_find?_eq_some refused.first, ?_⟩, refused.reached⟩
    simpa using List.find?_some refused.first
  · rintro ⟨⟨node, member, outside⟩, reached⟩
    cases first : nodes.find? fun other => !hasSlot slots other with
    | none =>
        have inside := List.find?_eq_none.mp first node member
        rw [outside] at inside
        exact absurd rfl inside
    | some other => exact ⟨other, first, reached⟩

/-- Nodes that leave a slot open do so however many of them are looked at. -/
theorem LeavesOpen.of_sublist {slots : Nat} {nodes part : List NodeId}
    (leavesOpen : LeavesOpen slots nodes) (among : part.Sublist nodes) : LeavesOpen slots part := by
  rcases leavesOpen with rfl | ⟨slot, small, apart⟩
  · exact .inl (List.sublist_nil.mp among)
  · exact .inr ⟨slot, small, fun node member => apart node (among.subset member)⟩

/-! ## Errors of other forms -/

/-- Whether an error says that the namespace of a query node has no slot. -/
def Error.isOutside : Error → Bool
  | namespaceOutside _ _ => true
  | _ => false

/-- An error that is not about the namespace of a query node. -/
abbrev IsInside (error : Error) : Prop := error.isOutside = false

theorem isInside_of_isSampleFault (error : Error) (fault : IsSampleFault error) :
    IsInside error := by
  cases error with
  | namespaceOutside node slots => cases fault
  | _ => rfl

/-- A transport that never says of itself that a namespace has no slot; what goes wrong at a shard
is reported as an error of that shard. -/
def Transport.KeepsBlame (transport : Transport σ) : Prop :=
  ∀ (shard : Nat) request state,
    FailsWithin IsInside ((transport.call shard request).run state).1.answer

/-- Messages that cannot be read are not about namespaces. -/
theorem Transport.throughWire_isInside {α : Type} (codec : Wire.Codec α) (message : α) :
    FailsWithin IsInside (throughWire codec message) := by
  unfold throughWire Wire.read
  split
  · exact .ok _
  · exact .error rfl

theorem isInside_ofShard (shard : Nat) (error : Error) : IsInside (.ofShard shard error) := by
  rcases Error.ofShard_splits shard error with ⟨stops, same⟩ | same
  · rw [IsInside, same]
    cases error with
    | namespaceOutside node slots => cases stops
    | _ => rfl
  · rw [IsInside, same]
    rfl

/-- Services in the same process are blamed for what goes wrong there, or stop their client. -/
theorem Transport.keepsBlame_inProcess (services : List Service) :
    (inProcess services).KeepsBlame := by
  intro shard request state
  dsimp only [inProcess]
  cases services[shard]? with
  | none => exact .error rfl
  | some service =>
      have served : ActsWithin IsInside (serve service shard request) := by
        refine (ActsWithin.liftM (throughWire_isInside _ _)).bind fun _ received _ _ => ?_
        refine ActsWithin.bind (fun stream => ?_) fun _ answer _ _ =>
          .liftM (throughWire_isInside _ _)
        rw [runFrom_adapt]
        cases (runFrom (service received) stream).1 with
        | ok answer => exact .ok _
        | error error => exact .error (isInside_ofShard shard error)
      exact served state

/-- A fan-out over a transport that keeps blame never says that a namespace has no slot. -/
theorem Link.fanOut_isInside {α : Type} {link : Link σ} (keepsBlame : link.transport.KeepsBlame)
    (take : Reply → Option α) (requests : List (Option Request)) :
    ActsWithin IsInside (link.fanOut take requests) := by
  intro world error failed
  by_cases counts : requests.length = link.transport.shards
  · obtain ⟨shard, request, state, _, heard⟩ :=
      exists_of_fanOut_eq_error counts (Prod.ext failed rfl)
    cases hear_eq_error_iff.mp heard with
    | late _ => rfl
    | refused _ refused => exact keepsBlame shard request state error refused
    | mismatched _ _ _ => rfl
  · rw [runFrom_fanOut_of_ne link take counts] at failed
    cases failed
    rfl

/-! ## Samples -/

/-- Work for nodes that is refused because of a namespace exactly when a search for the namespaces
of the nodes is, and before it has done anything. -/
structure RefusesOutsiders {S α : Type} (slots : Nat) (nodes : List NodeId)
    (act : ExceptT Error (StateM S) α) : Prop where
  refused : ∀ node, RefusedAt slots nodes node → ∀ state,
    runFrom act state = (.error (.namespaceOutside node slots), state)
  only : ∀ node number state, (runFrom act state).1 = .error (.namespaceOutside node number) →
    RefusedAt slots nodes node ∧ number = slots

/-- Work that starts with the search and fails for other reasons afterwards. -/
theorem refusesOutsiders_of_search {S α : Type} {slots : Nat} {nodes : List NodeId}
    {next : List (NamespaceId × NodeId) → ExceptT Error (StateM S) α}
    (inside : ∀ touched, touchedNamespaces slots nodes = .ok touched →
      ActsWithin IsInside (next touched)) :
    RefusesOutsiders slots nodes (liftM (touchedNamespaces slots nodes) >>= next) where
  refused node refused state := by
    have failed := touchedNamespaces_eq_error_iff.mpr ⟨node, refused, rfl⟩
    rw [failed]
    exact runFrom_bind_of_error (runFrom_liftM _ state)
  only node number state failed := by
    cases found : touchedNamespaces slots nodes with
    | error error =>
        obtain ⟨other, refused, rfl⟩ := touchedNamespaces_eq_error_iff.mp found
        rw [found, runFrom_bind_of_error (runFrom_liftM _ state)] at failed
        cases failed
        exact ⟨refused, rfl⟩
    | ok touched =>
        rw [found, runFrom_bind_of_ok (runFrom_liftM _ state)] at failed
        cases inside touched found state _ failed

theorem NegativePools.refusesOutsiders (pools : NegativePools) (count : Nat)
    (nodes excluded : List NodeId) :
    RefusesOutsiders pools.source.slots nodes (pools.sampleShared count nodes excluded) :=
  refusesOutsiders_of_search fun touched _ =>
    (pools.sampleTouched_within count excluded touched).mono isInside_of_isSampleFault

namespace Cluster

variable {cluster : Cluster σ} {query : NegativeQuery}

/-- A round of a pool fails for other reasons. -/
theorem poolRound_isInside (keepsBlame : cluster.link.transport.KeepsBlame) (ns : NamespaceId)
    (node : NodeId) (world : World σ) :
    FailsWithin IsInside ((cluster.poolRound query ns node).run world).1.value := by
  cases there : cluster.shares.getD ns.toNat none with
  | none =>
      rw [cluster.run_poolRound_of_none query node there world]
      exact .error rfl
  | some table =>
      rw [cluster.run_poolRound_of_some query node there world]
      generalize cluster.drawSplit query table world.stream = drawn
      have asked := Link.fanOut_isInside keepsBlame Reply.pools?
        (shareRequests drawn.1 node query.excluded) world
      rw [Link.runFrom_fanOut_eq_timed] at asked
      refine FailsWithin.bind asked fun answers _ => failsWithin_gatherShares rfl (.foldlM ?_ _)
      rintro ⟨⟨share, answer⟩, shard⟩ _ pool
      cases answer with
      | none => exact .ok _
      | some lists =>
          dsimp only
          split
          · exact .ok _
          · exact .error rfl

theorem refusesOutsiders (keepsBlame : cluster.link.transport.KeepsBlame) (query : NegativeQuery) :
    RefusesOutsiders cluster.slots query.nodes (cluster.sharedNegatives query) := by
  refine refusesOutsiders_of_search fun touched found world => ?_
  have joined := cluster.runFrom_sharedNegatives found world
  rw [sharedNegatives, found, runFrom_bind_of_ok (runFrom_liftM _ world)] at joined
  rw [joined]
  exact failsWithin_joinRounds
    (forall_poolRounds (fun entry _ => poolRound_isInside keepsBlame entry.1 entry.2) _ _ world)

/-- **Which namespaces a shared sample touches, and which node it refuses.** Among any nodes, for
any number of slots, the search for namespaces fails exactly at the first node whose namespace has
no slot, if the nodes before it leave a slot open. Otherwise it finds every namespace of the nodes
that has a slot, once, in the order in which they are first seen and with the first node that has
it. In particular nodes that leave a slot open are refused exactly when there is one of an unknown
namespace among them, in whatever order they stand. A shared sample of a partition and one of a
cluster are refused because of a namespace exactly when the search is, whatever is drawn and
whatever the shards do. -/
theorem unknownNamespaces_refused (keepsBlame : cluster.link.transport.KeepsBlame) :
    (∀ (slots : Nat) (nodes : List NodeId),
      (∀ error, touchedNamespaces slots nodes = .error error ↔
        ∃ node, RefusedAt slots nodes node ∧ error = .namespaceOutside node slots) ∧
      ((∀ node, ¬RefusedAt slots nodes node) →
        ∃ touched, touchedNamespaces slots nodes = .ok touched ∧ FirstSeen slots nodes touched) ∧
      ((∃ slot < slots, ∀ node ∈ nodes, (namespaceOf node).toNat ≠ slot) →
        ((∃ error, touchedNamespaces slots nodes = .error error) ↔
          ∃ node ∈ nodes, slots ≤ (namespaceOf node).toNat))) ∧
    (∀ (pools : NegativePools) (count : Nat) (nodes excluded : List NodeId),
      RefusesOutsiders pools.source.slots nodes (pools.sampleShared count nodes excluded)) ∧
    ∀ query : NegativeQuery,
      RefusesOutsiders cluster.slots query.nodes (cluster.sharedNegatives query) := by
  refine ⟨fun slots nodes => ⟨fun error => touchedNamespaces_eq_error_iff, fun fine => ?_,
    fun leaves => ?_⟩, NegativePools.refusesOutsiders, refusesOutsiders keepsBlame⟩
  · cases found : touchedNamespaces slots nodes with
    | ok touched => exact ⟨touched, rfl, firstSeen_of_touchedNamespaces found⟩
    | error error =>
        obtain ⟨node, refused, _⟩ := touchedNamespaces_eq_error_iff.mp found
        exact absurd refused (fine node)
  · have leavesOpen : LeavesOpen slots nodes := .inr leaves
    calc (∃ error, touchedNamespaces slots nodes = .error error)
        ↔ ∃ node, RefusedAt slots nodes node := by
          constructor
          · rintro ⟨error, failed⟩
            obtain ⟨node, refused, _⟩ := touchedNamespaces_eq_error_iff.mp failed
            exact ⟨node, refused⟩
          · rintro ⟨node, refused⟩
            exact ⟨_, touchedNamespaces_eq_error_iff.mpr ⟨node, refused, rfl⟩⟩
      _ ↔ ∃ node ∈ nodes, hasSlot slots node = false := by
          rw [exists_refusedAt_iff]
          exact and_iff_left (leavesOpen.of_sublist (List.takeWhile_sublist _))
      _ ↔ ∃ node ∈ nodes, slots ≤ (namespaceOf node).toNat := by
          simp [hasSlot]

/-! ### Two shards -/

/-- The client of two shards has one slot. -/
theorem connects_one_slot : ∃ cluster later,
    runFrom (connect (.inProcess [evenPartition.answer, oddPartition.answer]) uniformConfig)
      ⟨.cycle #[], .cycle #[]⟩ = (.ok cluster, later) ∧ cluster.slots = 1 := by
  have slots : (runFrom (connect (.inProcess [evenPartition.answer, oddPartition.answer])
      uniformConfig) ⟨.cycle #[], .cycle #[]⟩).1.toOption.map Cluster.slots = some 1 := by
    decide +kernel
  generalize runFrom (connect (.inProcess [evenPartition.answer, oddPartition.answer])
    uniformConfig) ⟨.cycle #[], .cycle #[]⟩ = run at slots ⊢
  obtain ⟨cluster, ok, one⟩ := Option.map_eq_some_iff.mp slots
  exact ⟨cluster, run.2, Prod.ext (except_toOption_eq_some.mp ok) rfl, one⟩

/-- A node of namespace 1 in the first place is refused by the client of two shards, and nobody is
asked. -/
theorem unknownNamespaces_refused_mixed :
    ∃ cluster later,
      runFrom (connect (.inProcess [evenPartition.answer, oddPartition.answer]) uniformConfig)
        ⟨.cycle #[], .cycle #[]⟩ = (.ok cluster, later) ∧
      cluster.link.transport.KeepsBlame ∧
      runFrom (cluster.sharedNegatives ⟨1, [0x10000000000000, 2], []⟩) later =
        (.error (.namespaceOutside 0x10000000000000 1), later) := by
  obtain ⟨cluster, later, connected, one⟩ := connects_one_slot
  have keepsBlame : cluster.link.transport.KeepsBlame := by
    rw [(spec_of_connect connected).2.1]
    exact Transport.keepsBlame_inProcess _
  obtain ⟨_, _, refuses⟩ := unknownNamespaces_refused keepsBlame
  have refused : RefusedAt cluster.slots [0x10000000000000, 2] 0x10000000000000 := by
    rw [one]
    exact ⟨by decide, .inl (by decide)⟩
  have run := (refuses ⟨1, [0x10000000000000, 2], []⟩).refused _ refused later
  rw [one] at run
  exact ⟨cluster, later, connected, keepsBlame, run⟩

/-- The same nodes in another order are not refused, by a partition or by a cluster: the only slot
has been seen before the node of namespace 1. -/
theorem outsiders_overlooked_mixed :
    (namespaceOf 0x10000000000000).toNat = 1 ∧
    touchedNamespaces 1 [2, 0x10000000000000] = .ok [(0, 2)] ∧
    touchedNamespaces 1 [0x10000000000000, 2] = .error (.namespaceOutside 0x10000000000000 1) ∧
    evenPartition.negatives.source.slots = 1 ∧
    (∃ pools after, runFrom (evenPartition.negatives.sampleShared 1 [2, 0x10000000000000] [])
      (.cycle #[]) = (.ok pools, after)) ∧
    ∃ cluster later pools after,
      runFrom (connect (.inProcess [evenPartition.answer, oddPartition.answer]) uniformConfig)
        ⟨.cycle #[], .cycle #[]⟩ = (.ok cluster, later) ∧
      runFrom (cluster.sharedNegatives ⟨1, [2, 0x10000000000000], []⟩) later =
        (.ok pools, after) := by
  obtain ⟨pools, after, both⟩ : ∃ pools after, runFrom
      (connect (.inProcess [evenPartition.answer, oddPartition.answer]) uniformConfig >>=
        fun cluster => cluster.sharedNegatives ⟨1, [2, 0x10000000000000], []⟩)
      ⟨.cycle #[], .cycle #[]⟩ = (.ok pools, after) := exists_of_isOk (by decide +kernel)
  obtain ⟨cluster, later, connected, run⟩ := runFrom_bind_eq_ok both
  exact ⟨by decide, rfl, rfl, by decide +kernel, exists_of_isOk (by decide +kernel), cluster, later,
    pools, after, connected, run⟩

end Cluster

end ShardedGraph
