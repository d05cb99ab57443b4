import ShardedGraph.Cluster.Lookup
import ShardedGraph.Proofs.Running

/-!
# Splitting batches and writing answers back

A batch of the kept items of a list sends every kept item, with its position, to its owner
(`parcelsOf`). The slice of a shard is then the batch of the kept items that the shard owns,
so its items stand in the order of the list (`slice_parcelsOf`, `map_item_parcelsOf`), no
position occurs twice (`nodup_positions_parcelsOf`), and each kept item is in the slice of its
owner and in no other one (`mem_parcelsOf`).

**Writing back.** Fix the list that should come out in the end. A position is settled when a
list already holds there what the final list does. Writing the final values of some positions
settles these positions and unsettles none (`writeAll_settles`, `gather_settles`), whatever
the order, so after all slices the list is the final one.

**All answers.** The answers of all shards are worked in one after the other. What holds of
the first shards is kept from one shard to the next, both for work that is known to succeed
(`eachAnswer_reaches`) and for work that has succeeded (`eachAnswer_keeps`). Work that may fail
fails at the lowest shard with a bad answer (`eachAnswer_splits`).
-/

set_option autoImplicit false

namespace ShardedGraph

variable {α β : Type}

/-! ## Owners -/

theorem ownerOf_lt {shards : Nat} (positive : 0 < shards) (node : NodeId) :
    ownerOf shards node < shards :=
  Nat.mod_lt _ positive

theorem shardOf_of_pos {shards : Nat} (positive : 0 < shards) (node : NodeId) :
    shardOf shards node = .ok (ownerOf shards node) :=
  if_neg (Nat.ne_of_gt positive)

/-! ## Parcels of a list -/

/-- The parcels of the kept items of a list, each for its owner and from its position. -/
def parcelsOf (owner : α → Nat) (keep : α → Bool) (items : List α) : List (Parcel α) :=
  (items.zipIdx.filter fun entry => keep entry.1).map fun entry =>
    ⟨owner entry.1, entry.2, entry.1⟩

/-- One entry for every shard that owns kept items, made of these items in order. -/
def forOwners (owner : α → Nat) (keep : α → Bool) (items : List α) (shards : Nat)
    (make : Nat → List α → β) : List (Option β) :=
  (List.range shards).map fun shard =>
    let mine := items.filter fun item => keep item && owner item == shard
    if mine.isEmpty then none else some (make shard mine)

section Parcels

variable {owner : α → Nat} {keep : α → Bool} {items : List α}

/-- A parcel holds the kept item at its position and goes to the owner of that item. -/
theorem mem_parcelsOf {parcel : Parcel α} :
    parcel ∈ parcelsOf owner keep items ↔
      items[parcel.position]? = some parcel.item ∧ keep parcel.item = true ∧
        parcel.shard = owner parcel.item := by
  rcases parcel with ⟨shard, position, item⟩
  simp only [parcelsOf, List.mem_map, List.mem_filter, Prod.exists, List.mk_mem_zipIdx_iff_getElem?,
    Parcel.mk.injEq]
  constructor
  · rintro ⟨found, index, ⟨there, kept⟩, rfl, rfl, rfl⟩
    exact ⟨there, kept, rfl⟩
  · rintro ⟨there, kept, rfl⟩
    exact ⟨item, position, ⟨there, kept⟩, rfl, rfl, rfl⟩

theorem nodup_positions_parcelsOf :
    ((parcelsOf owner keep items).map Parcel.position).Nodup := by
  have positions : (parcelsOf owner keep items).map Parcel.position =
      (items.zipIdx.filter fun entry => keep entry.1).map Prod.snd := by
    simp only [parcelsOf, List.map_map]
    rfl
  rw [positions]
  refine List.Nodup.sublist (List.filter_sublist.map Prod.snd) ?_
  rw [List.zipIdx_map_snd]
  exact List.nodup_range'

/-- Parcels hold the kept items in the order of the list. -/
theorem map_item_parcelsOf (owner : α → Nat) (keep : α → Bool) (items : List α) :
    (parcelsOf owner keep items).map Parcel.item = items.filter keep := by
  have kept : (items.zipIdx.filter fun entry => keep entry.1).map Prod.fst =
      (items.zipIdx.map Prod.fst).filter keep := by
    rw [List.filter_map]
    rfl
  rw [List.zipIdx_map_fst] at kept
  rw [← kept, parcelsOf, List.map_map]
  rfl

/-- A slice is the batch of the kept items that its shard owns. -/
theorem slice_parcelsOf (shards shard : Nat) :
    (Batch.mk shards (parcelsOf owner keep items)).slice shard =
      parcelsOf owner (fun item => keep item && owner item == shard) items := by
  simp only [Batch.slice, parcelsOf, List.filter_map, List.filter_filter]
  congr 1
  refine List.filter_congr fun entry _ => ?_
  exact Bool.and_comm _ _

theorem positions_parcelsOf (shards : Nat) :
    (Batch.mk shards (parcelsOf owner keep items)).positions =
      (List.range shards).map fun shard =>
        (parcelsOf owner (fun item => keep item && owner item == shard) items).map
          Parcel.position := by
  simp only [Batch.positions, Batch.slices, slice_parcelsOf, List.map_map, Function.comp_def]

/-- A shard is asked about the kept items that it owns, if there are any. -/
theorem requests_parcelsOf (shards : Nat) (make : List α → β) :
    (Batch.mk shards (parcelsOf owner keep items)).requests make =
      forOwners owner keep items shards fun _ => make := by
  simp only [Batch.requests, Batch.slices, List.map_map, forOwners]
  refine List.map_congr_left fun shard _ => ?_
  rw [Function.comp_apply, slice_parcelsOf, ← map_item_parcelsOf owner,
    List.isEmpty_map]

/-- A batch without parcels comes from a list of which nothing is kept. -/
theorem isEmpty_parcelsOf (shards : Nat) :
    (Batch.mk shards (parcelsOf owner keep items)).isEmpty = (items.filter keep).isEmpty := by
  rw [← map_item_parcelsOf owner, List.isEmpty_map]
  rfl

theorem length_forOwners (shards : Nat) (make : Nat → List α → β) :
    (forOwners owner keep items shards make).length = shards := by
  rw [forOwners, List.length_map, List.length_range]

/-- A shard with an entry owns kept items, and the entry is made of these. -/
theorem getElem?_forOwners_eq_some {shards shard : Nat} {make : Nat → List α → β} {entry : β} :
    (forOwners owner keep items shards make)[shard]? = some (some entry) ↔
      shard < shards ∧ (items.filter fun item => keep item && owner item == shard) ≠ [] ∧
        make shard (items.filter fun item => keep item && owner item == shard) = entry := by
  rw [forOwners, List.getElem?_map, Option.map_eq_some_iff]
  constructor
  · rintro ⟨number, there, entry⟩
    obtain ⟨inside, rfl⟩ := List.getElem?_eq_some_iff.mp there
    rw [List.getElem_range] at entry
    rw [List.length_range] at inside
    dsimp only at entry
    split at entry
    · cases entry
    · next occupied => exact ⟨inside, fun empty => occupied (by rw [empty]; rfl), by
        cases entry
        rfl⟩
  · rintro ⟨inside, occupied, rfl⟩
    refine ⟨shard, List.getElem?_range inside, ?_⟩
    rw [if_neg (by rwa [List.isEmpty_iff])]

/-- A shard without an entry owns no kept item. -/
theorem getElem?_forOwners_eq_none {shards shard : Nat} {make : Nat → List α → β} :
    (forOwners owner keep items shards make)[shard]? = some none ↔
      shard < shards ∧ (items.filter fun item => keep item && owner item == shard) = [] := by
  rw [forOwners, List.getElem?_map, Option.map_eq_some_iff]
  constructor
  · rintro ⟨number, there, entry⟩
    obtain ⟨inside, rfl⟩ := List.getElem?_eq_some_iff.mp there
    rw [List.getElem_range] at entry
    rw [List.length_range] at inside
    dsimp only at entry
    split at entry
    · next empty => exact ⟨inside, List.isEmpty_iff.mp empty⟩
    · cases entry
  · rintro ⟨inside, empty⟩
    refine ⟨shard, List.getElem?_range inside, ?_⟩
    rw [if_pos (by rw [empty]; rfl)]

end Parcels

/-- The unknown nodes of a list are on their way to their owners. -/
theorem unknownNodes_eq (known : NodeId → Option α) {shards : Nat} (positive : 0 < shards)
    (nodes : List NodeId) :
    unknownNodes known shards nodes =
      .ok ⟨shards, parcelsOf (ownerOf shards) (fun node => (known node).isNone) nodes⟩ := by
  simp only [unknownNodes, shardOf_of_pos positive]
  exact congrArg (· >>= fun parcels => Except.ok (Batch.mk shards parcels)) (List.mapM_pure)

/-! ## Writing back -/

section WritingBack

variable {final : List α}

/-- A list holds at a position what the final list does. -/
def Settled (final out : List α) (position : Nat) : Prop := out[position]? = final[position]?

theorem eq_of_settled {out : List α} (settled : ∀ position, Settled final out position) :
    out = final :=
  List.ext_getElem? settled

/-- Writing a final value settles its position and unsettles none. -/
theorem Settled.set {out : List α} {position other : Nat} {value : α}
    (right : final[position]? = some value) (length : out.length = final.length)
    (before : Settled final out other ∨ other = position) :
    Settled final (out.set position value) other := by
  unfold Settled at before ⊢
  by_cases same : position = other
  · subst same
    obtain ⟨inside, _⟩ := List.getElem?_eq_some_iff.mp right
    rw [List.getElem?_set_self (by omega), right]
  · rw [List.getElem?_set_ne same]
    exact before.resolve_right fun equal => same equal.symm

theorem writeAll_settles (shard : Nat) {entries : List (Nat × α)} {out : List α}
    (length : out.length = final.length)
    (right : ∀ entry ∈ entries, final[entry.1]? = some entry.2) :
    ∃ written, writeAll shard out entries = (.ok (), written) ∧
      written.length = final.length ∧
      ∀ position, Settled final out position ∨ position ∈ entries.map Prod.fst →
        Settled final written position := by
  induction entries generalizing out with
  | nil =>
      refine ⟨out, rfl, length, fun position settled => ?_⟩
      exact settled.resolve_right (List.not_mem_nil)
  | cons entry entries ih =>
      rcases entry with ⟨position, value⟩
      have here : final[position]? = some value := right _ (List.mem_cons_self)
      obtain ⟨inside, _⟩ := List.getElem?_eq_some_iff.mp here
      obtain ⟨written, run, same, settles⟩ :=
        ih (show (out.set position value).length = final.length by rw [List.length_set, length])
          fun entry member => right entry (List.mem_cons_of_mem _ member)
      refine ⟨written, ?_, same, fun other settled => settles other ?_⟩
      · rw [writeAll, if_pos (by omega), run]
      · rw [List.map_cons, List.mem_cons] at settled
        rcases settled with before | now | later
        · exact .inl (.set here length (.inl before))
        · exact .inl (.set here length (.inr now))
        · exact .inr later

/-- Writing one final value for each position of a slice settles the slice. -/
theorem gather_settles (shard : Nat) {positions : List Nat} {values out : List α}
    (length : out.length = final.length)
    (right : List.Forall₂ (fun position value => final[position]? = some value) positions values) :
    ∃ written, gather shard positions values out = (.ok (), written) ∧
      written.length = final.length ∧
      ∀ position, Settled final out position ∨ position ∈ positions →
        Settled final written position := by
  have counts : positions.length = values.length := right.length_eq
  have entries : ∀ entry ∈ positions.zip values, final[entry.1]? = some entry.2 :=
    fun entry member => List.forall₂_zip right member
  obtain ⟨written, run, same, settles⟩ := writeAll_settles shard length entries
  refine ⟨written, ?_, same, fun position settled => settles position ?_⟩
  · rw [gather, if_pos counts, run]
  · rwa [List.map_fst_zip (Nat.le_of_eq counts)]

end WritingBack

/-! ## All answers -/

section Answers

variable {positions : List (List Nat)} {answers : List (Option α)}
  {write : Nat → List Nat → α → β → Except Error β}

/-- What is still to be worked in begins with the entry of the next shard. -/
theorem entries_drop_eq_cons {shard : Nat} {entry : (List Nat × Option α) × Nat}
    {entries : List ((List Nat × Option α) × Nat)}
    (rest : (positions.zip answers).zipIdx.drop shard = entry :: entries) :
    positions[shard]? = some entry.1.1 ∧ answers[shard]? = some entry.1.2 ∧ entry.2 = shard ∧
      (positions.zip answers).zipIdx.drop (shard + 1) = entries := by
  have first : (positions.zip answers).zipIdx[shard]? = some entry := by
    rw [← List.head?_drop, rest, List.head?_cons]
  rw [List.getElem?_zipIdx, Option.map_eq_some_iff] at first
  obtain ⟨pair, there, rfl⟩ := first
  obtain ⟨slice, answer⟩ := List.getElem?_zip_eq_some.mp there
  refine ⟨slice, answer, Nat.zero_add shard, ?_⟩
  rw [← List.tail_drop, rest, List.tail_cons]

/-- Each step of the work is about one shard, with its slice and its answer. -/
theorem eachAnswer_eq_foldlM (first : β) :
    eachAnswer positions answers first write =
      (positions.zip answers).zipIdx.foldlM
        (fun out entry => entry.1.2.elim (.ok out) fun answer => write entry.2 entry.1.1 answer out)
        first := by
  unfold eachAnswer
  congr 1
  funext out ⟨⟨slice, answer⟩, shard⟩
  cases answer with
  | none => rfl
  | some answer => rfl

/-- Working the answers in, once it has succeeded, has kept what every shard keeps. -/
theorem eachAnswer_keeps (keeps : Nat → β → Prop)
    (moves : ∀ shard slice answer before after, positions[shard]? = some slice →
      answers[shard]? = some (some answer) → keeps shard before →
      write shard slice answer before = .ok after → keeps (shard + 1) after)
    (skips : ∀ shard value, answers[shard]? = some none → keeps shard value →
      keeps (shard + 1) value)
    (counts : positions.length = answers.length) {first last : β} (initially : keeps 0 first)
    (run : eachAnswer positions answers first write = .ok last) :
    keeps positions.length last := by
  have size : (positions.zip answers).zipIdx.length = positions.length := by
    rw [List.length_zipIdx, List.length_zip, ← counts, Nat.min_self]
  have final := foldlM_keeps
    (fun entries value => ∃ shard, shard ≤ positions.length ∧
      (positions.zip answers).zipIdx.drop shard = entries ∧ keeps shard value)
    (by
      rintro entry entries before after ⟨shard, bound, rest, kept⟩ step
      obtain ⟨slice, answer, number, rest'⟩ := entries_drop_eq_cons rest
      have inside := (List.getElem?_eq_some_iff.mp slice).1
      refine ⟨shard + 1, inside, rest', ?_⟩
      rcases entry with ⟨⟨slice', answer'⟩, number'⟩
      subst number
      cases answer' with
      | none =>
          cases step
          exact skips _ _ answer kept
      | some value => exact moves _ _ _ _ _ slice answer kept step)
    ⟨0, Nat.zero_le _, rfl, initially⟩ run
  obtain ⟨shard, bound, rest, kept⟩ := final
  have past : positions.length ≤ shard := by
    have empty := List.drop_eq_nil_iff.mp rest
    omega
  rwa [Nat.le_antisymm past bound]

/-- Working the answers in succeeds when it does for every shard. -/
theorem eachAnswer_reaches (write : Nat → List Nat → α → β → Except Error β) (keeps : Nat → β → Prop)
    (moves : ∀ shard slice answer before, positions[shard]? = some slice →
      answers[shard]? = some (some answer) → keeps shard before →
      ∃ after, write shard slice answer before = .ok after ∧ keeps (shard + 1) after)
    (skips : ∀ shard value, answers[shard]? = some none → keeps shard value →
      keeps (shard + 1) value)
    (counts : positions.length = answers.length) (first : β) (initially : keeps 0 first) :
    ∃ last, eachAnswer positions answers first write = .ok last ∧
      keeps positions.length last := by
  obtain ⟨last, run, _⟩ := foldlM_reaches
    (fun out (entry : (List Nat × Option α) × Nat) =>
      entry.1.2.elim (.ok out) fun answer => write entry.2 entry.1.1 answer out)
    (fun entries value => ∃ shard,
      (positions.zip answers).zipIdx.drop shard = entries ∧ keeps shard value)
    (by
      rintro entry entries before ⟨shard, rest, kept⟩
      obtain ⟨slice, answer, number, rest'⟩ := entries_drop_eq_cons rest
      rcases entry with ⟨⟨slice', answer'⟩, number'⟩
      subst number
      cases answer' with
      | none => exact ⟨before, rfl, _, rest', skips _ _ answer kept⟩
      | some value =>
          obtain ⟨after, step, kept'⟩ := moves _ _ _ _ slice answer kept
          exact ⟨after, step, _, rest', kept'⟩)
    first ⟨0, rfl, initially⟩
  replace run := (eachAnswer_eq_foldlM first).trans run
  refine ⟨last, run, eachAnswer_keeps keeps ?_ skips counts initially run⟩
  intro shard slice answer before after there given kept step
  obtain ⟨reached, step', kept'⟩ := moves shard slice answer before there given kept
  cases step.symm.trans step'
  exact kept'

/-- When an answer is either good, or makes its shard fail whatever was worked in before, working
all answers in succeeds over good answers, or fails at the lowest shard with a bad one. -/
theorem eachAnswer_splits (answers : List (Option α)) (fits : β → Prop)
    (good : Nat → List Nat → α → Prop) (blame : Nat → List Nat → α → Error)
    (writes : ∀ shard slice answer before, positions[shard]? = some slice → fits before →
      (good shard slice answer ∧ ∃ after, write shard slice answer before = .ok after ∧ fits after) ∨
        (¬good shard slice answer ∧
          write shard slice answer before = .error (blame shard slice answer)))
    {first : β} (initially : fits first) :
    ((∀ (shard : Nat) slice answer, positions[shard]? = some slice →
        answers[shard]? = some (some answer) → good shard slice answer) ∧
      ∃ last, eachAnswer positions answers first write = .ok last) ∨
    ∃ shard slice answer, positions[shard]? = some slice ∧ answers[shard]? = some (some answer) ∧
      ¬good shard slice answer ∧
      eachAnswer positions answers first write = .error (blame shard slice answer) ∧
      ∀ lower < shard, ∀ slice answer, positions[lower]? = some slice →
        answers[lower]? = some (some answer) → good lower slice answer := by
  -- An entry of the work belongs to a shard, with its slice and its answer.
  have place : ∀ (shard : Nat) slice answer, (positions.zip answers).zipIdx[shard]? =
      some ((slice, answer), shard) ↔ positions[shard]? = some slice ∧ answers[shard]? = some answer := by
    intro shard slice answer
    simp [List.getElem?_zipIdx, List.getElem?_zip_eq_some]
  rw [eachAnswer_eq_foldlM]
  rcases foldlM_splits
      (fun out (entry : (List Nat × Option α) × Nat) =>
        entry.1.2.elim (.ok out) fun answer => write entry.2 entry.1.1 answer out)
      fits (fun entry => ∀ answer, entry.1.2 = some answer → good entry.2 entry.1.1 answer)
      (fun entry => entry.1.2.elim .noShards (blame entry.2 entry.1.1))
      (positions.zip answers).zipIdx
      (by
        rintro ⟨⟨slice, answer⟩, shard⟩ member before fit
        cases answer with
        | none => exact .inl ⟨nofun, before, rfl, fit⟩
        | some answer =>
            have there := List.mk_mem_zipIdx_iff_getElem?.mp member
            rw [List.getElem?_zip_eq_some] at there
            rcases writes shard slice answer before there.1 fit with ⟨fine, done⟩ | ⟨bad, failed⟩
            · refine .inl ⟨?_, done⟩
              intro other same
              cases same
              exact fine
            · exact .inr ⟨fun fine => bad (fine answer rfl), failed⟩)
      initially with ⟨all, last, run, _⟩ | ⟨shard, ⟨⟨slice, answer⟩, number⟩, there, bad, run, before⟩
  · refine .inl ⟨?_, last, run⟩
    intro shard slice answer here given
    exact all _ (List.mem_of_getElem? ((place shard slice _).mpr ⟨here, given⟩)) answer rfl
  · rw [List.getElem?_zipIdx, Option.map_eq_some_iff] at there
    obtain ⟨pair, there, same⟩ := there
    cases same
    rw [Nat.zero_add] at run bad
    obtain ⟨here, given⟩ := List.getElem?_zip_eq_some.mp there
    cases answer with
    | none => exact absurd nofun bad
    | some answer =>
        refine .inr ⟨shard, slice, answer, here, given, fun fine => bad ?_, run, ?_⟩
        · intro other same
          cases same
          exact fine
        · intro lower below slice answer here given
          exact before lower below _ ((place lower slice _).mpr ⟨here, given⟩) answer rfl

end Answers

/-- When every slice of a batch can be written back, so that its positions are settled and
none is unsettled, then all slices can, and every position of a kept item is settled. -/
theorem eachAnswer_settles {γ : Type} (owner : α → Nat) (keep : α → Bool) (items : List α)
    {shards : Nat} (owners : ∀ item ∈ items, owner item < shards) (reply : Nat → List α → γ)
    (write : Nat → List Nat → γ → β → Except Error β) (fits : β → Prop) (settled : β → Nat → Prop)
    (writes : ∀ shard before, fits before →
      ∃ after, write shard
          ((parcelsOf owner (fun item => keep item && owner item == shard) items).map
            Parcel.position)
          (reply shard (items.filter fun item => keep item && owner item == shard)) before =
            .ok after ∧
        fits after ∧ ∀ position, settled before position ∨
          position ∈ (parcelsOf owner (fun item => keep item && owner item == shard) items).map
            Parcel.position → settled after position)
    (first : β) (initially : fits first) :
    ∃ last, eachAnswer (Batch.mk shards (parcelsOf owner keep items)).positions
        (forOwners owner keep items shards reply) first write = .ok last ∧ fits last ∧
      ∀ position item, items[position]? = some item →
        settled first position ∨ keep item = true → settled last position := by
  have counts : (Batch.mk shards (parcelsOf owner keep items)).positions.length =
      (forOwners owner keep items shards reply).length := by
    rw [positions_parcelsOf, length_forOwners, List.length_map, List.length_range]
  -- After the first shards, the kept items that they own are settled.
  obtain ⟨last, run, final⟩ := eachAnswer_reaches write
    (fun shard value => fits value ∧ ∀ position item, items[position]? = some item →
      settled first position ∨ (keep item = true ∧ owner item < shard) → settled value position)
    (by
      rintro shard slice answer before slice_eq answer_eq ⟨fit, done⟩
      obtain ⟨inside, occupied, rfl⟩ := getElem?_forOwners_eq_some.mp answer_eq
      rw [positions_parcelsOf, List.getElem?_map, List.getElem?_range inside, Option.map_some]
        at slice_eq
      obtain ⟨after, step, fit', settles⟩ := writes shard before fit
      cases slice_eq
      refine ⟨after, step, fit', fun position item there known => settles position ?_⟩
      rcases known with known | ⟨kept, owned⟩
      · exact .inl (done position item there (.inl known))
      · rcases Nat.lt_or_ge (owner item) shard with earlier | now
        · exact .inl (done position item there (.inr ⟨kept, earlier⟩))
        · have mine : owner item = shard := by omega
          refine .inr (List.mem_map.mpr ⟨⟨owner item, position, item⟩, ?_, rfl⟩)
          exact mem_parcelsOf.mpr ⟨there, by simp [kept, mine], rfl⟩)
    (by
      rintro shard value answer_eq ⟨fit, done⟩
      obtain ⟨_, empty⟩ := getElem?_forOwners_eq_none.mp answer_eq
      refine ⟨fit, fun position item there known => done position item there ?_⟩
      refine known.imp_right fun ⟨kept, owned⟩ => ⟨kept, ?_⟩
      have other : owner item ≠ shard := fun mine =>
        List.filter_eq_nil_iff.mp empty item (List.mem_of_getElem? there) (by simp [kept, mine])
      omega)
    counts first ⟨initially, fun _ _ _ known => known.resolve_right (by simp)⟩
  refine ⟨last, run, final.1, fun position item there known => final.2 position item there ?_⟩
  refine known.imp_right fun kept => ⟨kept, ?_⟩
  rw [positions_parcelsOf, List.length_map, List.length_range]
  exact owners item (List.mem_of_getElem? there)

end ShardedGraph
