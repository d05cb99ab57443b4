import ShardedGraph.Proofs.Blame

/-!
# Entries of lookups

What a shard answers may depend on its chance, and then the same node is answered differently at
different places. What can be said of a lookup is said of every place on its own: if whatever the
owner of a node may answer for it is right, then so is the entry at the place of the node.

**Writing back.** The positions of a slice are different, so after a slice has been written every
position of it holds its own value, and the other positions are as before (`gather_forall₂`).
Slices have no position in common, so the entries of all shards are there in the end
(`Link.forall₂_of_lookup`).

**Progress.** When every shard that is asked gives one entry for each node, whatever state it
finds, a lookup succeeds (`Link.exists_lookup`).
-/

set_option autoImplicit false

namespace ShardedGraph

variable {σ α : Type}

/-! ## Writing back -/

/-- Values written to different positions are there afterwards, and nothing else has changed. -/
theorem writeAll_forall₂ {shard : Nat} {positions : List Nat} {values out after : List α}
    (counts : positions.length = values.length) (distinct : positions.Nodup)
    (run : writeAll shard out (positions.zip values) = (.ok (), after)) :
    after.length = out.length ∧
      (∀ position, position ∉ positions → after[position]? = out[position]?) ∧
      List.Forall₂ (fun position value => after[position]? = some value) positions values := by
  induction positions generalizing values out with
  | nil =>
      cases List.length_eq_zero_iff.mp counts.symm
      cases run
      exact ⟨rfl, fun _ _ => rfl, .nil⟩
  | cons position positions ih =>
      obtain ⟨value, values, rfl⟩ := List.exists_cons_of_length_eq_add_one counts.symm
      rw [List.nodup_cons] at distinct
      rw [List.zip_cons_cons, writeAll] at run
      split at run
      · next inside =>
        obtain ⟨length, others, written⟩ := ih (Nat.succ.inj counts) distinct.2 run
        refine ⟨length.trans List.length_set, ?_, .cons ?_ written⟩
        · intro other elsewhere
          rw [List.mem_cons, not_or] at elsewhere
          rw [others other elsewhere.2, List.getElem?_set_ne (Ne.symm elsewhere.1)]
        · rw [others position distinct.1, List.getElem?_set_self inside]
      · cases run

/-- A slice that is written back has one value for each position. -/
theorem gather_forall₂ {shard : Nat} {positions : List Nat} {values out after : List α}
    (distinct : positions.Nodup) (run : gather shard positions values out = (.ok (), after)) :
    after.length = out.length ∧
      (∀ position, position ∉ positions → after[position]? = out[position]?) ∧
      List.Forall₂ (fun position value => after[position]? = some value) positions values := by
  rw [gather] at run
  split at run
  · next counts => exact writeAll_forall₂ counts distinct run
  · cases run

namespace Link

/-! ## Places -/

/-- At the places of the nodes of the first shards stand right entries. -/
def FilledTo (shards : Nat) (right : Nat → NodeId → α → Prop) (nodes : List NodeId) (shard : Nat)
    (out : List α) : Prop :=
  out.length = nodes.length ∧
    ∀ (position : Nat) node, nodes[position]? = some node → ownerOf shards node < shard →
      ∃ entry, out[position]? = some entry ∧ right (ownerOf shards node) node entry

/-- The answer of the next shard fills the places of its nodes and leaves those of the shards
before. -/
theorem FilledTo.gather {shards shard : Nat} {right : Nat → NodeId → α → Prop}
    {keep : NodeId → Bool} {nodes : List NodeId} {values out after : List α}
    (all : ∀ node ∈ nodes, keep node = true)
    (filled : FilledTo shards right nodes shard out)
    (answered : List.Forall₂ (right shard)
      (nodes.filter fun node => keep node && ownerOf shards node == shard) values)
    (run : gather shard ((parcelsOf (ownerOf shards)
      (fun node => keep node && ownerOf shards node == shard) nodes).map Parcel.position)
        values out = (.ok (), after)) :
    FilledTo shards right nodes (shard + 1) after := by
  obtain ⟨length, others, written⟩ := gather_forall₂ nodup_positions_parcelsOf run
  refine ⟨length.trans filled.1, ?_⟩
  intro position node there below
  rcases Nat.lt_succ_iff_lt_or_eq.mp below with before | own
  · obtain ⟨entry, here, fine⟩ := filled.2 position node there before
    refine ⟨entry, ?_, fine⟩
    rw [others position ?_, here]
    intro among
    obtain ⟨parcel, member, rfl⟩ := List.mem_map.mp among
    obtain ⟨there', mine, -⟩ := mem_parcelsOf.mp member
    cases there.symm.trans there'
    exact absurd (eq_of_beq (Bool.and_eq_true_iff.mp mine).2) (Nat.ne_of_lt before)
  · have mine : (keep node && ownerOf shards node == shard) = true :=
      Bool.and_eq_true_iff.mpr ⟨all node (List.mem_of_getElem? there), beq_iff_eq.mpr own⟩
    have member : Parcel.mk (ownerOf shards node) position node ∈ parcelsOf (ownerOf shards)
        (fun node => keep node && ownerOf shards node == shard) nodes :=
      mem_parcelsOf.mpr ⟨there, mine, rfl⟩
    obtain ⟨index, here⟩ := List.getElem?_of_mem member
    rw [← map_item_parcelsOf (ownerOf shards), List.forall₂_map_left_iff] at answered
    rw [List.forall₂_map_left_iff] at written
    obtain ⟨value, given, fine⟩ := exists_getElem?_of_forall₂ answered here
    obtain ⟨value', given', placed⟩ := exists_getElem?_of_forall₂ written here
    cases given.symm.trans given'
    exact ⟨value, placed, own ▸ fine⟩

/-- When the answers of all shards are right for the nodes that they own, so are the entries that
are written back. -/
theorem forall₂_of_gatherAll {shards : Nat} (positive : 0 < shards)
    {right : Nat → NodeId → α → Prop} {keep : NodeId → Bool} {nodes : List NodeId}
    (all : ∀ node ∈ nodes, keep node = true) {answers : List (Option (List α))}
    (counts : answers.length = shards)
    (answered : ∀ (shard : Nat) values, answers[shard]? = some (some values) →
      List.Forall₂ (right shard)
        (nodes.filter fun node => keep node && ownerOf shards node == shard) values)
    (silent : ∀ shard : Nat, answers[shard]? = some none →
      (nodes.filter fun node => keep node && ownerOf shards node == shard) = [])
    {first entries : List α} (length : first.length = nodes.length)
    (run : gatherAll (Batch.mk shards (parcelsOf (ownerOf shards) keep nodes)).positions answers
      first = .ok entries) :
    List.Forall₂ (fun node entry => right (ownerOf shards node) node entry) nodes entries := by
  have slices : (Batch.mk shards (parcelsOf (ownerOf shards) keep nodes)).positions.length =
      shards := by
    rw [positions_parcelsOf, List.length_map, List.length_range]
  obtain ⟨length', filled⟩ := eachAnswer_keeps (FilledTo shards right nodes)
    (by
      intro shard slice values before after there given filled step
      rw [positions_parcelsOf, List.getElem?_map, Option.map_eq_some_iff] at there
      obtain ⟨number, here, rfl⟩ := there
      obtain ⟨inside, rfl⟩ := List.getElem?_eq_some_iff.mp here
      rw [List.getElem_range] at step
      obtain ⟨done, written, rfl⟩ := except_map_eq_ok.mp step
      exact filled.gather all (answered shard values given) (Prod.ext written rfl))
    (by
      intro shard out there filled
      refine ⟨filled.1, fun position node here below => ?_⟩
      rcases Nat.lt_succ_iff_lt_or_eq.mp below with before | own
      · exact filled.2 position node here before
      · have member := List.mem_of_getElem? here
        have mine := List.filter_eq_nil_iff.mp (silent shard there) node member
        rw [all node member, own, beq_self_eq_true] at mine
        exact absurd rfl mine)
    (slices.trans counts.symm)
    ⟨length, fun _ _ _ below => absurd below (Nat.not_lt_zero _)⟩ run
  rw [slices] at filled
  refine forall₂_iff_getElem?.mpr ⟨length'.symm, fun position node entry there here => ?_⟩
  obtain ⟨entry', here', fine⟩ := filled position node there (ownerOf_lt positive node)
  cases here.symm.trans here'
  exact fine

/-! ## Lookups of unknown nodes -/

section Unknown

variable {link : Link σ} {make : List NodeId → Request}
  {take : Reply → Option (List α)} {nodes : List NodeId}

/-- When right entries are all that is heard from the shards, those of a lookup are right. -/
theorem forall₂_of_lookup [Inhabited α] (positive : 0 < link.transport.shards)
    (right : Nat → NodeId → α → Prop)
    (heard : ∀ shard < link.transport.shards, ∀ part : List NodeId, part.Sublist nodes →
      (∀ node ∈ part, ownerOf link.transport.shards node = shard) → ∀ state values,
        ((link.ask take shard (make part)).run state).1.value = .ok values →
          List.Forall₂ (right shard) part values)
    {world later : World σ} {entries : List α}
    (run : runFrom (link.lookup (fun _ => none) make take nodes) world = (.ok entries, later)) :
    List.Forall₂ (fun node entry => right (ownerOf link.transport.shards node) node entry)
      nodes entries := by
  by_cases nothing : nodes = []
  · subst nothing
    rw [link.runFrom_lookup_of_known positive rfl] at run
    cases run
    exact .nil
  have misses : (nodes.filter fun _ => (none : Option α).isNone) ≠ [] := by simpa using nothing
  rw [link.runFrom_lookup_of_unknown positive misses] at run
  obtain ⟨answers, between, fetched, gathered⟩ := runFrom_bind_eq_ok run
  have joined := joined_of_fanOut fetched
  have counts : answers.length = link.transport.shards := joined.length.trans joined.counts
  rw [runFrom_liftM] at gathered
  refine forall₂_of_gatherAll positive (fun _ _ => rfl) counts ?_ (fun _ => joined.nothing) ?_
    (Prod.mk.inj gathered).1
  · intro shard values there
    obtain ⟨inside, -⟩ := List.getElem?_eq_some_iff.mp there
    obtain ⟨state, sent⟩ := joined.sent there
    refine heard shard (counts ▸ inside) _ List.filter_sublist ?_ state values sent
    intro node member
    exact eq_of_beq (Bool.and_eq_true_iff.mp (List.mem_filter.mp member).2).2
  · rw [knownEntries, List.length_map]

/-- Every shard that is asked gives one entry for each node, whatever state it finds. -/
def GivesEntries (link : Link σ) (make : List NodeId → Request) (take : Reply → Option (List α))
    (nodes : List NodeId) : Prop :=
  ∀ shard < link.transport.shards, ∀ part : List NodeId, part.Sublist nodes →
    (∀ node ∈ part, ownerOf link.transport.shards node = shard) → ∀ state, ∃ values,
      ((link.ask take shard (make part)).run state).1.value = .ok values ∧
        values.length = part.length

/-- Shards that give an entry for each node give what a lookup asks for. -/
theorem GivesEntries.allGive (gives : link.GivesEntries make take nodes) (keep : NodeId → Bool)
    (state : σ) :
    link.AllGive take (fun values => [values.length]) (askedOf link.transport.shards keep nodes)
      (requestsFor link.transport.shards keep make nodes)
      ((link.issue (requestsFor link.transport.shards keep make nodes)).run state).1 := by
  intro shard request asked
  have entry : (requestsFor link.transport.shards keep make nodes).zipIdx[shard]? =
      some (some request, shard) := by
    rw [List.getElem?_zipIdx, asked, Option.map_some, Nat.zero_add]
  obtain ⟨heard, there, before, rfl⟩ := exists_getElem?_of_forall₂
    (link.forall₂_askEach take _ state) entry
  rw [run_askEach] at there
  obtain ⟨inside, -, rfl⟩ := getElem?_forOwners_eq_some.mp asked
  obtain ⟨values, fine, enough⟩ := gives shard inside _ List.filter_sublist
    (fun node member => eq_of_beq (Bool.and_eq_true_iff.mp (List.mem_filter.mp member).2).2) before
  refine ⟨values, (givesAt_iff state).mpr ⟨_, there, fine⟩, ?_⟩
  simpa using enough

/-- A lookup succeeds when every shard that is asked gives one entry for each node. -/
theorem exists_lookup [Inhabited α] (positive : 0 < link.transport.shards)
    (gives : link.GivesEntries make take nodes) (world : World σ) :
    ∃ entries later,
      runFrom (link.lookup (fun _ => none) make take nodes) world = (.ok entries, later) := by
  obtain ⟨entries, given⟩ := (allOrNothing_lookup positive (fun _ => none) make take).succeeds.mpr
    (gives.allGive _ world.network)
  exact ⟨entries, _, Prod.ext given rfl⟩

end Unknown

end Link

end ShardedGraph
