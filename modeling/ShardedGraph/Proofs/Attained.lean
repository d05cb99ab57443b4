import ShardedGraph.Proofs.Reachable

/-!
# What is reachable is drawn

Kernels draw no other indices than those that they say they can draw. Of uniform kernels, alias
tables and slots the converse holds as well: every reachable index is drawn by some words, whatever
comes after them, so reachable and drawn are the same (`Kernel.isReachable_iff_drawn`).

**Indices.** The multiples of a bound that is not too large are so close that every index is the
upper half of one of them. If the word asks for a carry, a second word that is nothing gives none
(`WordStream.exists_run_below`).

**Alias tables.** A bucket that keeps anything keeps its index for the fraction zero, however small
its share is. A bucket that gives anything away gives its alias for the last fraction below one, as
no share below one is larger.

**Slots.** Every slot is drawn. While a table has room left, no entry was left out, and each of them
has a slot (`Kernel.UnigramTable.mem_place_of_room`).
-/

set_option autoImplicit false

namespace ShardedGraph

open Number

/-! ## Words for an index -/

namespace WordStream

/-- The first multiple of a step that is not below a number is less than a step away from it. -/
theorem exists_multiple {number step : Nat} (positive : 0 < step) :
    ∃ factor, number ≤ factor * step ∧ factor * step < number + step := by
  refine ⟨(number + (step - 1)) / step, ?_⟩
  have divided := Nat.div_add_mod' (number + (step - 1)) step
  have rest := Nat.mod_lt (number + (step - 1)) positive
  omega

/-- Every index below a bound is the upper half of some multiple of the bound. -/
theorem exists_upperHalf {n index : Nat} (inside : index < n) (few : n < UInt32.size) :
    ∃ word : UInt64, word.toNat % UInt32.size * n / UInt32.size = index := by
  obtain ⟨factor, least, near⟩ :=
    @exists_multiple (index * UInt32.size) _ (Nat.zero_lt_of_lt inside)
  have small : factor < UInt32.size := by
    have steps : (index + 1) * UInt32.size ≤ n * UInt32.size := Nat.mul_le_mul_right _ inside
    rw [Nat.succ_mul] at steps
    by_contra large
    have most : UInt32.size * n ≤ factor * n := Nat.mul_le_mul_right n (Nat.not_lt.mp large)
    rw [Nat.mul_comm] at most
    omega
  have low : (UInt64.ofNat factor).toNat % UInt32.size = factor := by
    rw [UInt64.toNat_ofNat_of_lt' (Nat.lt_trans small (by decide)), Nat.mod_eq_of_lt small]
  refine ⟨UInt64.ofNat factor, ?_⟩
  rw [low]
  refine Nat.div_eq_of_lt_le least ?_
  rw [Nat.succ_mul]
  omega

/-- Every index below a bound is drawn by one or two words, and any word may come next. -/
theorem exists_run_below {n index : Nat} (inside : index < n) (few : n < UInt32.size)
    (next : UInt64) :
    ∃ words : Array UInt64, words.size ≤ 3 ∧ ∀ rest, ∃ later,
      (below n).run (.prepend words rest) = (index, later) ∧ later.word later.used = next := by
  obtain ⟨word, multiple⟩ := exists_upperHalf inside few
  have halves : below n = indexFrom UInt32.size n := by rw [below, partsFor, if_pos few]
  by_cases carries : UInt32.size - n < word.toNat % UInt32.size * n % UInt32.size
  · refine ⟨#[word, 0, next], Nat.le_refl _, fun rest =>
      ⟨{ prepend #[word, 0, next] rest with used := 2 }, ?_, rfl⟩⟩
    have first : (prepend #[word, 0, next] rest).word 0 = word := rfl
    have second : (prepend #[word, 0, next] rest).word 1 = 0 := rfl
    have start : (prepend #[word, 0, next] rest).used = 0 := rfl
    have none : (0 : UInt64).toNat % UInt32.size * n / UInt32.size = 0 := by
      rw [show (0 : UInt64).toNat % UInt32.size = 0 from rfl, Nat.zero_mul, Nat.zero_div]
    have below : ¬UInt32.size ≤ word.toNat % UInt32.size * n % UInt32.size :=
      Nat.not_le.mpr (Nat.mod_lt _ (by decide))
    rw [halves, run_indexFrom, start, first, second, if_pos carries, none, Nat.add_zero,
      if_neg below, multiple]
  · refine ⟨#[word, next], Nat.le_succ 2, fun rest =>
      ⟨{ prepend #[word, next] rest with used := 1 }, ?_, rfl⟩⟩
    have first : (prepend #[word, next] rest).word 0 = word := rfl
    have start : (prepend #[word, next] rest).used = 0 := rfl
    rw [halves, run_indexFrom, start, first, if_neg carries, multiple]

end WordStream

namespace Kernel

/-- Some words, not more than three, make a kernel draw an index, whatever comes after them. -/
def IsDrawn (kernel : Kernel) (index : Nat) : Prop :=
  ∃ words : Array UInt64, words.size ≤ 3 ∧
    ∀ rest, (kernel.draw.run (.prepend words rest)).1 = index

theorem isDrawn_uniform {size index : Nat} (inside : index < size) (few : size < UInt32.size) :
    (uniform size).IsDrawn index := by
  obtain ⟨words, short, draws⟩ := WordStream.exists_run_below inside few 0
  refine ⟨words, short, fun rest => ?_⟩
  obtain ⟨later, run, -⟩ := draws rest
  exact congrArg Prod.fst run

/-! ## Alias tables -/

namespace AliasTable

variable {table : AliasTable} {bucket : Nat}

/-- Every bucket is looked at, with the fraction of any word. -/
theorem isDrawn_pick (inside : bucket < table.size) (few : table.size < UInt32.size)
    (word : UInt64) :
    (aliased table).IsDrawn
      (table.pick bucket (.ofDyadic (WordStream.lowHalf word >>> 8) 24)) := by
  obtain ⟨words, short, draws⟩ := WordStream.exists_run_below inside few word
  refine ⟨words, short, fun rest => ?_⟩
  obtain ⟨later, run, next⟩ := draws rest
  change (table.draw.run _).1 = _
  rw [value_draw, run, ← next]
  rfl

section Share

variable (amounts : ∀ share ∈ table.keep, share.IsAmount) (inside : bucket < table.size)
  (few : table.size < UInt32.size)

include amounts inside few

/-- A bucket with a share is drawn by the fraction zero. -/
theorem isDrawn_of_keeps (keeps : 0 < table.keep.getD bucket 0) :
    (aliased table).IsDrawn bucket := by
  have share := isAmount_getD amounts bucket
  have zero : (Binary.ofDyadic (WordStream.lowHalf 0 >>> 8) 24 : Single) = 0 := by decide
  have drawn := isDrawn_pick inside few 0
  rwa [Buckets.pick, zero, if_pos keeps] at drawn

/-- The alias of a bucket whose share is below one is drawn by the last fraction. -/
theorem isDrawn_of_gives (gives : table.keep.getD bucket 0 < 1) :
    (aliased table).IsDrawn (table.rest.getD bucket 0) := by
  have share := isAmount_getD amounts bucket
  have one : (1 : Single).magnitude = 127 * 2 ^ 23 := by decide +kernel
  have last : (Binary.ofDyadic (WordStream.lowHalf 4294967295 >>> 8) 24 : Single).magnitude =
      127 * 2 ^ 23 - 1 := by decide +kernel
  have isAmount : (1 : Single).IsAmount := Binary.isAmount_ofRatio _ _
  have isAmount' : (Binary.ofDyadic (WordStream.lowHalf 4294967295 >>> 8) 24 : Single).IsAmount :=
    Binary.isAmount_ofRatio _ _
  rw [share.lt_iff isAmount, one] at gives
  have notBelow : ¬(Binary.ofDyadic (WordStream.lowHalf 4294967295 >>> 8) 24 : Single) <
      table.keep.getD bucket 0 := by
    rw [isAmount'.lt_iff share, last]
    omega
  have drawn := isDrawn_pick inside few 4294967295
  rwa [Buckets.pick, if_neg notBelow] at drawn

end Share

/-- An index that a table keeps or gives away is drawn. -/
theorem isDrawn_of_isReachable (amounts : ∀ share ∈ table.keep, share.IsAmount)
    (few : table.size < UInt32.size) {index : Nat} (reachable : table.isReachable index = true) :
    (aliased table).IsDrawn index := by
  rcases Bool.or_eq_true_iff.mp reachable with keeps | gives
  · refine isDrawn_of_keeps amounts ?_ few (of_decide_eq_true keeps)
    by_contra outside
    rw [List.getD_eq_getElem?_getD, List.getElem?_eq_none (Nat.not_lt.mp outside)] at keeps
    exact absurd keeps (by decide)
  · obtain ⟨⟨share, other⟩, among, here⟩ := List.any_eq_true.mp gives
    obtain ⟨same, less⟩ := Bool.and_eq_true_iff.mp here
    obtain ⟨bucket, there⟩ := List.getElem?_of_mem among
    obtain ⟨kept, given⟩ := List.getElem?_zip_eq_some.mp there
    have inside : bucket < table.size := (List.getElem?_eq_some_iff.mp kept).1
    have drawn := isDrawn_of_gives amounts inside few (by
      rw [List.getD_eq_getElem?_getD, kept]
      exact of_decide_eq_true less)
    rwa [List.getD_eq_getElem?_getD, given, Option.getD_some, eq_of_beq same] at drawn

end AliasTable

/-! ## Unigram tables -/

namespace UnigramTable

section Room

variable {count : UnigramEntry → Nat} {room : Nat} {entries : List UnigramEntry}

/-- There are no more slots than there is room for. -/
theorem length_layOut_le : (layOut count room entries).length ≤ room := by
  induction entries generalizing room with
  | nil => exact Nat.zero_le _
  | cons entry entries ih =>
      have := @ih (room - min (count entry) room)
      rw [layOut, List.length_append, List.length_replicate]
      omega

/-- Where room is left, every entry was placed. -/
theorem mem_place_of_room (left : (layOut count room entries).length < room) :
    ∀ entry ∈ entries, entry.index ∈ place count room entries := by
  induction entries generalizing room with
  | nil => exact fun _ member => absurd member List.not_mem_nil
  | cons entry entries ih =>
      rw [layOut, List.length_append, List.length_replicate] at left
      rw [place, if_neg (Nat.ne_of_gt (Nat.zero_lt_of_lt left))]
      refine List.forall_mem_cons.mpr ⟨List.mem_cons_self, fun other member => ?_⟩
      exact List.mem_cons_of_mem _ (ih (by omega) other member)

end Room

/-- Every index with a positive frequency has an entry. -/
theorem exists_mem_entries {frequencies : List Single} {index : Nat} {frequency : Single}
    (there : frequencies[index]? = some frequency) (positive : 0 < frequency) :
    ∃ entry ∈ entries frequencies, entry.index = index := by
  refine ⟨⟨index, frequency, frequency.widen.powThreeQuarters⟩, ?_, rfl⟩
  refine List.mem_filterMap.mpr ⟨(frequency, index), List.mk_mem_zipIdx_iff_getElem?.mpr there, ?_⟩
  exact if_pos positive

section Built

variable {frequencies : List Single} {table : UnigramTable}
  (run : UnigramTable.build frequencies = .ok table)

include run

theorem length_slots_of_build : table.slots.length ≤ slotLimit := by
  obtain ⟨-, -, sum, slots, rfl⟩ := of_build run
  exact length_layOut_le

/-- A table that is not full has slots for every index with a positive frequency. -/
theorem mem_slots_of_room (left : table.slots.length < slotLimit) {index : Nat} {frequency : Single}
    (there : frequencies[index]? = some frequency) (positive : 0 < frequency) :
    index ∈ table.slots := by
  obtain ⟨-, same, -⟩ := placed_of_build run
  obtain ⟨entry, member, rfl⟩ := exists_mem_entries there positive
  rw [same]
  obtain ⟨-, -, sum, slots, rfl⟩ := of_build run
  exact mem_place_of_room left entry (mem_ranked.mpr member)

end Built

/-- The index of every slot is drawn. -/
theorem isDrawn_of_mem_slots {table : UnigramTable} (few : table.slots.length < UInt32.size)
    {index : Nat} (member : index ∈ table.slots) : (unigram table).IsDrawn index := by
  obtain ⟨slot, there⟩ := List.getElem?_of_mem member
  obtain ⟨inside, -⟩ := List.getElem?_eq_some_iff.mp there
  obtain ⟨words, short, draws⟩ := WordStream.exists_run_below inside few 0
  refine ⟨words, short, fun rest => ?_⟩
  obtain ⟨later, run, -⟩ := draws rest
  have value : ((unigram table).draw.run (.prepend words rest)).1 = table.slots.getD
      ((WordStream.below table.slots.length).run (.prepend words rest)).1 0 := by
    change (table.draw.run _).1 = _
    unfold draw
    generalize WordStream.below table.slots.length = below
    rfl
  rw [value, run, List.getD_eq_getElem?_getD, there, Option.getD_some]

end UnigramTable

/-! ## Kernels -/

/-- A reachable index is drawn, by slots, shares or equal chances over no more weights than a 32-bit
index can tell apart. -/
theorem isDrawn_of_isReachable {kind : KernelKind} {weights : List Single} {kernel : Kernel}
    (exact : kind ≠ .prefixSum) (run : build kind weights = .ok kernel)
    (few : weights.length < UInt32.size) {index : Nat}
    (reachable : kernel.isReachable index = true) : kernel.IsDrawn index := by
  cases kind with
  | uniform =>
      obtain ⟨⟨⟩, -, run⟩ := except_bind_eq_ok.mp run
      cases run
      exact isDrawn_uniform (of_decide_eq_true reachable) few
  | aliased =>
      obtain ⟨table, built, rfl⟩ := except_map_eq_ok.mp run
      have countable : weights.length ≤ UInt64.size := Nat.le_trans (Nat.le_of_lt few) (by decide)
      obtain ⟨amounts, -⟩ := AliasTable.spec_of_build built countable
      exact AliasTable.isDrawn_of_isReachable amounts (AliasTable.size_of_build built ▸ few)
        reachable
  | unigram =>
      obtain ⟨table, built, rfl⟩ := except_map_eq_ok.mp run
      obtain ⟨-, same, -⟩ := UnigramTable.placed_of_build built
      have short := UnigramTable.length_slots_of_build built
      refine UnigramTable.isDrawn_of_mem_slots (Nat.lt_of_le_of_lt short (by decide)) ?_
      exact (same index).mpr (List.contains_iff_mem.mp reachable)
  | prefixSum => exact absurd rfl exact

/-- **Reachable is drawn.** Let a kernel, other than prefix sums, be built over no more weights than
a 32-bit index can tell apart. Then an index is reachable exactly when some stream makes the kernel
draw it; and for a reachable index no more than three words are enough, whatever comes after them.
If the kernel has slots, and fewer of them than it may have, then every index with a positive weight
has one and is reachable. -/
theorem isReachable_iff_drawn {kind : KernelKind} {weights : List Single} {kernel : Kernel}
    (exact : kind ≠ .prefixSum) (run : build kind weights = .ok kernel)
    (few : weights.length < UInt32.size) :
    (∀ index, (kernel.isReachable index = true ↔ ∃ stream, (kernel.draw.run stream).1 = index) ∧
      (kernel.isReachable index = true → kernel.IsDrawn index)) ∧
    ∀ table, kernel = .unigram table → table.slots.length < UnigramTable.slotLimit →
      ∀ index weight, weights[index]? = some weight → 0 < weight →
        index ∈ table.slots ∧ kernel.isReachable index = true := by
  have honest := isHonest_of_build run (Nat.le_trans (Nat.le_of_lt few) (by decide))
  refine ⟨fun index => ⟨⟨fun reachable => ?_, ?_⟩, isDrawn_of_isReachable exact run few⟩, ?_⟩
  · obtain ⟨words, -, draws⟩ := isDrawn_of_isReachable exact run few reachable
    exact ⟨_, draws (.cycle #[])⟩
  · rintro ⟨stream, rfl⟩
    exact honest.reachable stream
  · rintro table rfl left index weight there positive
    obtain rfl : .unigram = kind := kind_of_build run
    obtain ⟨_, built, same⟩ := except_map_eq_ok.mp run
    cases same
    have member := UnigramTable.mem_slots_of_room built left there positive
    obtain ⟨-, placed, -⟩ := UnigramTable.placed_of_build built
    exact ⟨member, List.contains_iff_mem.mpr ((placed index).mp member)⟩

/-- The alias table of three weights, the middle one of which is nothing. -/
def gappedShares : AliasTable := ⟨[1, 0, .ofDyadic 3 2], [0, 0, 0]⟩

/-- Of these weights the alias table draws the first and the last but never the middle one, and so
do slots while there is room for both. -/
theorem isReachable_iff_drawn_gapped :
    gappedWeights.length < UInt32.size ∧
    build .aliased gappedWeights = .ok (aliased gappedShares) ∧
    (aliased gappedShares).IsDrawn 0 ∧ (aliased gappedShares).IsDrawn 2 ∧
    (∀ stream, (gappedShares.draw.run stream).1 ≠ 1) ∧
    ∃ table, build .unigram gappedWeights = .ok (unigram table) ∧
      (∀ stream, (table.draw.run stream).1 ≠ 1) ∧
      (table.slots.length < UnigramTable.slotLimit →
        (unigram table).IsDrawn 0 ∧ (unigram table).IsDrawn 2) := by
  have few : gappedWeights.length < UInt32.size := by decide
  have built : build .aliased gappedWeights = .ok (aliased gappedShares) :=
    except_toOption_eq_some.mp (by decide +kernel)
  obtain ⟨shares, -⟩ := isReachable_iff_drawn (by decide) built few
  obtain ⟨kernel, run⟩ := exists_gapped .unigram
  obtain ⟨table, built', rfl⟩ := except_map_eq_ok.mp run
  obtain ⟨-, -, frequent⟩ := UnigramTable.placed_of_build built'
  obtain ⟨slots, placed⟩ := isReachable_iff_drawn (by decide) run few
  refine ⟨few, built, (shares 0).2 (by decide +kernel), (shares 2).2 (by decide +kernel),
    fun stream drawn => ?_, table, run, fun stream drawn => ?_, fun left => ⟨?_, ?_⟩⟩
  · exact absurd ((shares 1).1.mpr ⟨stream, drawn⟩) (by decide +kernel)
  · have reachable := (slots 1).1.mpr ⟨stream, drawn⟩
    obtain ⟨weight, there, positive⟩ := frequent 1 (List.contains_iff_mem.mp reachable)
    cases there
    exact absurd positive (by decide +kernel)
  · exact (slots 0).2 (placed table rfl left 0 (.ofNat 3) rfl (by decide +kernel)).2
  · exact (slots 2).2 (placed table rfl left 2 (.ofNat 1) rfl (by decide +kernel)).2

end Kernel

end ShardedGraph
