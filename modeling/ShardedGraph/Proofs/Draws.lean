import ShardedGraph.Kernel
import ShardedGraph.Proofs.Running

/-!
# Draws stay within their bounds

Whatever words a stream gives, an index drawn below a bound is below it: the carry that a
second word may add never reaches the bound, because a product that is close to it leaves no
room for a carry (`WordStream.indexFrom_lt`).

A kernel that was built over weights draws indices of these weights, and from a range of
indices it draws indices of the range (`Kernel.InBounds`, `Kernel.inBounds_of_build`). For alias
tables this needs that every alias is an index, which pairing buckets keeps
(`Kernel.rest_lt_of_mem_pair`).
-/

set_option autoImplicit false

namespace ShardedGraph

/-! ## Indices from words -/

namespace WordStream

theorem lowHalf_lt (word : UInt64) : lowHalf word < UInt32.size := Nat.mod_lt _ (by decide)

theorem partsFor_pos (last : Nat) : 0 < partsFor last := by
  unfold partsFor
  split
  · decide
  · decide

/-- An index is the upper half of a product, or the next one when a second word decides a carry. -/
theorem run_indexFrom (size n : Nat) (stream : WordStream) :
    (indexFrom size n).run stream =
      if size - n < (stream.word stream.used).toNat % size * n % size then
        (if size ≤ (stream.word stream.used).toNat % size * n % size +
            (stream.word (stream.used + 1)).toNat % size * n / size then
          (stream.word stream.used).toNat % size * n / size + 1
        else (stream.word stream.used).toNat % size * n / size,
          { stream with used := stream.used + 2 })
      else ((stream.word stream.used).toNat % size * n / size,
        { stream with used := stream.used + 1 }) := by
  unfold indexFrom
  change StateT.run (if _ then _ else _ : Draw Nat) _ = _
  split
  · rfl
  · rfl

/-- A drawn index is below the bound, for all words. -/
theorem indexFrom_lt {size n : Nat} (parts : 0 < size) (positive : 0 < n) (stream : WordStream) :
    ((indexFrom size n).run stream).1 < n := by
  have product : (stream.word stream.used).toNat % size * n + n ≤ size * n := by
    rw [← Nat.succ_mul]
    exact Nat.mul_le_mul_right n (Nat.succ_le_of_lt (Nat.mod_lt _ parts))
  rw [run_indexFrom]
  generalize (stream.word stream.used).toNat % size * n = drawn at product ⊢
  have below : drawn / size < n := Nat.div_lt_of_lt_mul (by omega)
  split
  · next carries =>
    have room : drawn / size + 1 ≠ n := by
      intro last
      have parted := Nat.div_add_mod drawn size
      have whole : size * n = size * (drawn / size) + size := by rw [← last, Nat.mul_succ]
      omega
    dsimp only
    split
    · omega
    · omega
  · exact below

theorem below_lt {n : Nat} (positive : 0 < n) (stream : WordStream) :
    ((below n).run stream).1 < n :=
  indexFrom_lt (partsFor_pos n) positive stream

/-- An index drawn from a range is in the range. -/
theorem between_bounds {first last : Nat} (order : first < last) (stream : WordStream) :
    first ≤ ((between first last).run stream).1 ∧ ((between first last).run stream).1 < last := by
  have small := indexFrom_lt (partsFor_pos last) (Nat.sub_pos_of_lt order) stream
  change first ≤ first + ((indexFrom (partsFor last) (last - first)).run stream).1 ∧
    first + ((indexFrom (partsFor last) (last - first)).run stream).1 < last
  omega

end WordStream

/-! ## Alias tables -/

namespace Kernel

theorem length_fill {α : Type} [One α] (keep : List α) (indices : List Nat) :
    (fill keep indices).length = keep.length := by
  induction indices generalizing keep with
  | nil => rfl
  | cons index indices ih => exact (ih (keep.set index 1)).trans List.length_set

section Buckets

variable {α : Type} [Zero α] [One α] [Add α] [Sub α] [LT α] [DecidableLT α]

theorem length_keep_pair (buckets : Buckets α) (smaller larger : List Nat) :
    (pair buckets smaller larger).keep.length = buckets.keep.length := by
  fun_induction pair buckets smaller larger with
  | case1 buckets small smaller large larger left next short ih => exact ih.trans List.length_set
  | case2 buckets small smaller large larger left next long ih => exact ih.trans List.length_set
  | case3 buckets smaller larger done => exact length_fill _ _

/-- Pairing gives buckets no other aliases than indices that were to be paired. -/
theorem rest_lt_of_mem_pair {buckets : Buckets α} {smaller larger : List Nat} {size : Nat}
    (rest : ∀ index ∈ buckets.rest, index < size) (large : ∀ index ∈ larger, index < size) :
    ∀ index ∈ (pair buckets smaller larger).rest, index < size := by
  fun_induction pair buckets smaller larger with
  | case1 buckets small smaller top larger left next short ih =>
      refine ih (fun index member => ?_) fun index member => large index (.tail _ member)
      rcases List.mem_or_eq_of_mem_set member with old | rfl
      · exact rest index old
      · exact large _ (.head _)
  | case2 buckets small smaller top larger left next long ih =>
      refine ih (fun index member => ?_) large
      rcases List.mem_or_eq_of_mem_set member with old | rfl
      · exact rest index old
      · exact large _ (.head _)
  | case3 buckets smaller larger done => exact rest

variable [Mul α] [Div α] [NatCast α]

theorem length_keep_ofWeights (weights : List α) :
    (Buckets.ofWeights weights).keep.length = weights.length := by
  unfold Buckets.ofWeights
  rw [length_keep_pair]
  exact List.length_map _

theorem rest_lt_of_mem_ofWeights (weights : List α) :
    ∀ index ∈ (Buckets.ofWeights weights).rest, index < weights.length := by
  refine rest_lt_of_mem_pair (fun index member => List.mem_range.mp member) fun index member => ?_
  exact List.mem_range.mp (List.mem_filter.mp (List.mem_reverse.mp member)).1

end Buckets

/-! ## Kernels -/

/-- A kernel draws indices below a size, and indices of a range from the range. -/
structure InBounds (kernel : Kernel) (size : Nat) : Prop where
  draw : ∀ stream, (kernel.draw.run stream).1 < size
  drawBetween : ∀ first last stream index later,
    runFrom (kernel.drawBetween first last) stream = (.ok index, later) →
      first ≤ index ∧ index < last

theorem length_pos_of_checkWeights {kind : KernelKind} {weights : List Number.Single}
    (run : checkWeights kind weights = .ok ()) : 0 < weights.length := by
  unfold checkWeights at run
  split at run
  · cases run
  · next some => exact List.length_pos_iff.mpr fun empty => some (by rw [empty]; rfl)

theorem getD_lt {indices : List Nat} {size : Nat} (positive : 0 < size)
    (small : ∀ index ∈ indices, index < size) (position : Nat) : indices.getD position 0 < size := by
  rw [List.getD_eq_getElem?_getD]
  cases there : indices[position]? with
  | none => exact positive
  | some index => exact small index (List.mem_of_getElem? there)

/-! ### Alias tables -/

/-- A draw picks by a bucket and a fraction. -/
theorem AliasTable.value_draw (table : AliasTable) (stream : WordStream) :
    (table.draw.run stream).1 =
      table.pick ((WordStream.below table.size).run stream).1
        (WordStream.single.run ((WordStream.below table.size).run stream).2).1 := by
  unfold draw
  generalize WordStream.below table.size = below, WordStream.single = single
  rfl

theorem AliasTable.draw_lt_size {table : AliasTable} (positive : 0 < table.size)
    (rest : ∀ index ∈ table.rest, index < table.size) (stream : WordStream) :
    (table.draw.run stream).1 < table.size := by
  rw [value_draw, Buckets.pick]
  split
  · exact WordStream.below_lt positive stream
  · exact getD_lt positive rest _

/-- A table holds the buckets of weights that have a total. -/
theorem AliasTable.of_build {weights : List Number.Single} {table : AliasTable}
    (run : AliasTable.build weights = .ok table) :
    checkWeights .aliased weights = .ok () ∧ 0 < total (weights.map Number.Single.widen) ∧
      table = ⟨(Buckets.ofWeights (weights.map Number.Single.widen)).keep.map Number.Double.narrow,
        (Buckets.ofWeights (weights.map Number.Single.widen)).rest⟩ := by
  obtain ⟨⟨⟩, checked, run⟩ := except_bind_eq_ok.mp run
  obtain ⟨⟨⟩, -, run⟩ := except_bind_eq_ok.mp run
  dsimp only at run
  split at run
  · next some => exact ⟨checked, some, (Except.ok.inj run).symm⟩
  · cases run

theorem AliasTable.size_of_build {weights : List Number.Single} {table : AliasTable}
    (run : AliasTable.build weights = .ok table) : table.size = weights.length := by
  obtain ⟨-, -, rfl⟩ := of_build run
  rw [AliasTable.size, List.length_map, length_keep_ofWeights, List.length_map]

theorem AliasTable.draw_lt {weights : List Number.Single} {table : AliasTable}
    (run : AliasTable.build weights = .ok table) (stream : WordStream) :
    (table.draw.run stream).1 < weights.length := by
  have size := size_of_build run
  obtain ⟨checked, -, made⟩ := of_build run
  rw [← size]
  refine draw_lt_size (size ▸ length_pos_of_checkWeights checked) ?_ stream
  rw [size, ← List.length_map Number.Single.widen, made]
  exact rest_lt_of_mem_ofWeights _

/-! ### Unigram tables -/

theorem UnigramTable.index_lt_of_mem_layOut {count : UnigramEntry → Nat} {room size : Nat}
    {entries : List UnigramEntry} (small : ∀ entry ∈ entries, entry.index < size) :
    ∀ index ∈ layOut count room entries, index < size := by
  induction entries generalizing room with
  | nil => exact fun index member => (List.not_mem_nil member).elim
  | cons entry entries ih =>
      intro index member
      rcases List.mem_append.mp member with here | there
      · rw [(List.mem_replicate.mp here).2]
        exact small entry (.head _)
      · exact ih (fun entry member => small entry (.tail _ member)) index there

theorem UnigramTable.index_lt_of_mem_entries {frequencies : List Number.Single} :
    ∀ entry ∈ entries frequencies, entry.index < frequencies.length := by
  intro entry member
  obtain ⟨⟨frequency, index⟩, among, made⟩ := List.mem_filterMap.mp member
  dsimp only at made
  split at made
  · cases made
    exact (List.getElem?_eq_some_iff.mp (List.mk_mem_zipIdx_iff_getElem?.mp among)).1
  · cases made

/-- A table lays out and places the entries of its frequencies, the most frequent one first. -/
theorem UnigramTable.of_build {frequencies : List Number.Single} {table : UnigramTable}
    (run : UnigramTable.build frequencies = .ok table) :
    checkWeights .unigram frequencies = .ok () ∧ entries frequencies ≠ [] ∧ ∃ sum slots, table =
      ⟨frequencies.length, layOut (slotsOf sum slots) slotLimit (ranked (entries frequencies)),
        place (slotsOf sum slots) slotLimit (ranked (entries frequencies))⟩ := by
  obtain ⟨⟨⟩, checked, run⟩ := except_bind_eq_ok.mp run
  dsimp only at run
  split at run
  · obtain ⟨_, failed, _⟩ := except_bind_eq_ok.mp run
    cases failed
  · next some =>
    obtain ⟨⟨⟩, -, run⟩ := except_bind_eq_ok.mp run
    cases run
    exact ⟨checked, fun nothing => some (List.isEmpty_iff.mpr nothing), _, _, rfl⟩

theorem UnigramTable.mem_ranked {entries : List UnigramEntry} {entry : UnigramEntry} :
    entry ∈ ranked entries ↔ entry ∈ entries :=
  (List.mergeSort_perm _ _).mem_iff

theorem UnigramTable.draw_lt {weights : List Number.Single} {table : UnigramTable}
    (run : UnigramTable.build weights = .ok table) (stream : WordStream) :
    (table.draw.run stream).1 < weights.length := by
  obtain ⟨checked, -, sum, slots, rfl⟩ := of_build run
  refine getD_lt (length_pos_of_checkWeights checked) (index_lt_of_mem_layOut ?_) _
  exact fun entry member => index_lt_of_mem_entries entry (mem_ranked.mp member)

/-! ### Prefix sums -/

theorem length_sumsAfter {α : Type} [Add α] (before : α) (weights : List α) :
    (sumsAfter before weights).length = weights.length := by
  induction weights generalizing before with
  | nil => rfl
  | cons weight weights ih => exact congrArg Nat.succ (ih (before + weight))

/-- The search of a range answers an index of the range, whatever the point. -/
theorem firstAbove_bounds {α : Type} [LT α] [DecidableLT α] {sums : List α} {first last : Nat}
    (order : first < last) (point : α) :
    first ≤ firstAbove sums first last point ∧ firstAbove sums first last point < last := by
  unfold firstAbove
  omega

/-- A pick from a range is in the range. -/
theorem pick_bounds {sums : List Number.Double} {first last : Nat} (order : first < last)
    (fraction : Number.Double) :
    first ≤ pick sums first last fraction ∧ pick sums first last fraction < last :=
  firstAbove_bounds order _

theorem checkRange_eq_ok {size first last : Nat} (run : checkRange size first last = .ok ()) :
    first < last ∧ last ≤ size := by
  unfold checkRange at run
  split at run
  · cases run
  · omega

/-- Whatever a table of prefix sums draws from a range is in the range. -/
theorem PrefixSums.drawBetween_bounds {table : PrefixSums} {first last index : Nat}
    {stream later : WordStream}
    (run : runFrom (table.drawBetween first last) stream = (.ok index, later)) :
    first ≤ index ∧ index < last := by
  obtain ⟨⟨⟩, _, range, run⟩ := runFrom_bind_eq_ok run
  obtain ⟨order, _⟩ := checkRange_eq_ok (congrArg Prod.fst range)
  split at run
  · obtain ⟨fraction, _, _, run⟩ := runFrom_bind_eq_ok run
    cases run
    exact pick_bounds order fraction
  · cases run

theorem PrefixSums.draw_lt_size {table : PrefixSums} (positive : 0 < table.size)
    (stream : WordStream) : (table.draw.run stream).1 < table.size := by
  rcases drawn : runFrom (table.drawBetween 0 table.size) stream with ⟨_ | index, later⟩
  · have run : (table.drawBetween 0 table.size).run.run stream = (.error _, later) := drawn
    rw [draw, StateT.run_bind, run]
    exact Nat.sub_lt positive Nat.one_pos
  · have run : (table.drawBetween 0 table.size).run.run stream = (.ok index, later) := drawn
    rw [draw, StateT.run_bind, run]
    exact (drawBetween_bounds drawn).2

/-- A table holds the sums of weights that have a total. -/
theorem PrefixSums.of_build {weights : List Number.Single} {table : PrefixSums}
    (run : PrefixSums.build weights = .ok table) :
    checkWeights .prefixSum weights = .ok () ∧ 0 < sumBefore table.sums table.size ∧
      table = ⟨prefixSums (weights.map Number.Single.widen)⟩ := by
  obtain ⟨⟨⟩, checked, run⟩ := except_bind_eq_ok.mp run
  dsimp only at run
  split at run
  · next some =>
    cases run
    exact ⟨checked, some, rfl⟩
  · cases run

theorem PrefixSums.size_of_build {weights : List Number.Single} {table : PrefixSums}
    (run : PrefixSums.build weights = .ok table) : table.size = weights.length := by
  obtain ⟨-, -, rfl⟩ := of_build run
  rw [PrefixSums.size, prefixSums, length_sumsAfter, List.length_map]

theorem PrefixSums.draw_lt {weights : List Number.Single} {table : PrefixSums}
    (run : PrefixSums.build weights = .ok table) (stream : WordStream) :
    (table.draw.run stream).1 < weights.length := by
  have size := size_of_build run
  obtain ⟨checked, -, -⟩ := of_build run
  rw [← size]
  exact draw_lt_size (size ▸ length_pos_of_checkWeights checked) stream

/-! ### Built kernels -/

/-- A kernel has one index for every weight. -/
theorem size_of_build {kind : KernelKind} {weights : List Number.Single} {kernel : Kernel}
    (run : build kind weights = .ok kernel) : kernel.size = weights.length := by
  cases kind with
  | uniform =>
      obtain ⟨⟨⟩, -, run⟩ := except_bind_eq_ok.mp run
      cases run
      rfl
  | aliased =>
      obtain ⟨table, built, rfl⟩ := except_map_eq_ok.mp run
      exact AliasTable.size_of_build built
  | unigram =>
      obtain ⟨table, built, rfl⟩ := except_map_eq_ok.mp run
      obtain ⟨-, -, sum, slots, rfl⟩ := UnigramTable.of_build built
      rfl
  | prefixSum =>
      obtain ⟨table, built, rfl⟩ := except_map_eq_ok.mp run
      exact PrefixSums.size_of_build built

theorem kind_of_build {kind : KernelKind} {weights : List Number.Single} {kernel : Kernel}
    (run : build kind weights = .ok kernel) : kernel.kind = kind := by
  cases kind with
  | uniform =>
      obtain ⟨_, _, made⟩ := except_bind_eq_ok.mp run
      cases made
      rfl
  | aliased =>
      obtain ⟨_, _, rfl⟩ := except_map_eq_ok.mp run
      rfl
  | unigram =>
      obtain ⟨_, _, rfl⟩ := except_map_eq_ok.mp run
      rfl
  | prefixSum =>
      obtain ⟨_, _, rfl⟩ := except_map_eq_ok.mp run
      rfl

/-- A kernel built over weights draws their indices. -/
theorem inBounds_of_build {kind : KernelKind} {weights : List Number.Single} {kernel : Kernel}
    (run : build kind weights = .ok kernel) : kernel.InBounds weights.length := by
  cases kind with
  | uniform =>
      obtain ⟨⟨⟩, checked, run⟩ := except_bind_eq_ok.mp run
      cases run
      refine ⟨WordStream.below_lt (length_pos_of_checkWeights checked), ?_⟩
      intro first last stream index later drawn
      obtain ⟨⟨⟩, _, range, drawn⟩ := runFrom_bind_eq_ok drawn
      obtain ⟨order, _⟩ := checkRange_eq_ok (congrArg Prod.fst range)
      cases drawn
      exact WordStream.between_bounds order _
  | aliased =>
      obtain ⟨table, built, rfl⟩ := except_map_eq_ok.mp run
      exact ⟨AliasTable.draw_lt built, fun first last stream index later drawn => by cases drawn⟩
  | unigram =>
      obtain ⟨table, built, rfl⟩ := except_map_eq_ok.mp run
      exact ⟨UnigramTable.draw_lt built, fun first last stream index later drawn => by cases drawn⟩
  | prefixSum =>
      obtain ⟨table, built, rfl⟩ := except_map_eq_ok.mp run
      exact ⟨PrefixSums.draw_lt built, fun first last stream index later drawn =>
        PrefixSums.drawBetween_bounds drawn⟩

end Kernel

end ShardedGraph
