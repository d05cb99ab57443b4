import Mathlib.Algebra.BigOperators.Group.Finset.Basic
import Mathlib.Algebra.BigOperators.Ring.List
import Mathlib.Algebra.Order.BigOperators.Group.List
import Mathlib.Algebra.Order.Field.Basic
import Mathlib.Tactic.FieldSimp
import Mathlib.Tactic.Linarith
import Mathlib.Tactic.LinearCombination
import ShardedGraph.Proofs.Reachable

/-!
# Pairing conserves weight

Pairing buckets is a run of steps (`Kernel.Pairing.Runs`): a step finishes the top small bucket with
the top large one, which then waits among the small or the large ones. Runs end, and the buckets that
pairing gives are those at the end of a run (`Kernel.Pairing.exists_runs`).

**Exact numbers.** Over an ordered field the mass of an index is what its bucket keeps and what the
finished buckets give to it. No step changes the mass of an index, and the buckets that wait hold one
each on average (`Kernel.Pairing.Balanced`, `Kernel.Pairing.Balanced.step`). So when no large bucket
waits any more there is no small one either, and large ones that are left hold exactly one
(`Kernel.Pairing.Balanced.full`): to fill them changes nothing.
-/

set_option autoImplicit false

namespace ShardedGraph.Kernel

variable {α : Type}

/-- Buckets that hold one are not changed when they are filled. -/
theorem fill_eq_self [One α] {keep : List α} {indices : List Nat}
    (full : ∀ index ∈ indices, keep[index]? = some 1) : fill keep indices = keep := by
  induction indices with
  | nil => rfl
  | cons index indices ih =>
      obtain ⟨here, others⟩ := List.forall_mem_cons.mp full
      obtain ⟨inside, one⟩ := List.getElem?_eq_some_iff.mp here
      have same : keep.set index 1 = keep := one ▸ List.set_getElem_self inside
      exact (congrArg (fill · indices) same).trans (ih others)

/-- What an index has: what its bucket keeps, and what is left of the buckets whose alias it is. -/
def Buckets.mass [Field α] (buckets : Buckets α) (index : Nat) : α :=
  buckets.keep.getD index 0 +
    ∑ bucket ∈ Finset.range buckets.keep.length with buckets.rest.getD bucket 0 = index,
      (1 - buckets.keep.getD bucket 0)

/-! ## Runs -/

/-- Buckets while they are paired, with the small and the large ones that wait. -/
structure Pairing (α : Type) where
  buckets : Buckets α
  smaller : List Nat
  larger : List Nat

namespace Pairing

/-- The buckets that are not finished. -/
def waiting (pairing : Pairing α) : List Nat := pairing.smaller ++ pairing.larger

section Steps

variable [Zero α] [One α] [Add α] [Sub α]

/-- What a bucket holds. -/
def share (pairing : Pairing α) (index : Nat) : α := pairing.buckets.keep.getD index 0

/-- What a large bucket has left when a small one took what it lacks. -/
def left (pairing : Pairing α) (small large : Nat) : α :=
  pairing.share large + (pairing.share small - 1)

/-- The buckets when a small one took what it lacks from a large one. -/
def finish (pairing : Pairing α) (small large : Nat) : Buckets α :=
  ⟨pairing.buckets.keep.set large (pairing.left small large), pairing.buckets.rest.set small large⟩

section Finish

variable {pairing later : Pairing α} {small large : Nat}
  (made : later.buckets = pairing.finish small large)

include made

theorem share_large (inside : large < pairing.buckets.keep.length) :
    later.share large = pairing.left small large := by
  simp [share, made, finish, List.getD_eq_getElem?_getD, inside]

theorem share_of_ne {index : Nat} (apart : index ≠ large) :
    later.share index = pairing.share index := by
  rw [share, made]
  exact getD_set_of_ne _ _ _ (Ne.symm apart)

end Finish

variable [LT α] [DecidableLT α]

/-- Finishes the top small bucket with the top large one, and says which one is finished. -/
def step? (pairing : Pairing α) : Option (Nat × Pairing α) :=
  match pairing.smaller, pairing.larger with
  | small :: smaller, large :: larger => some (small,
      if pairing.left small large < 1 then ⟨pairing.finish small large, large :: smaller, larger⟩
      else ⟨pairing.finish small large, smaller, large :: larger⟩)
  | _, _ => none

/-- Steps until there is none, with the buckets that they finish in order. -/
inductive Runs : Pairing α → List Nat → Pairing α → Prop where
  | stop {pairing : Pairing α} (stops : pairing.step? = none) : Runs pairing [] pairing
  | next {pairing later last : Pairing α} {index : Nat} {finished : List Nat}
      (step : pairing.step? = some (index, later)) (run : Runs later finished last) :
      Runs pairing (index :: finished) last

/-- **Runs end.** Every pairing has a run, and what pairing gives are the buckets at its end, where
those that still wait are filled. -/
theorem exists_runs (pairing : Pairing α) : ∃ finished last, pairing.Runs finished last ∧
    pair pairing.buckets pairing.smaller pairing.larger =
      { last.buckets with keep := fill last.buckets.keep last.waiting } := by
  obtain ⟨buckets, smaller, larger⟩ := pairing
  dsimp only
  fun_induction pair buckets smaller larger with
  | case1 buckets small smaller large larger left next less ih =>
      obtain ⟨finished, last, run, same⟩ := ih
      refine ⟨small :: finished, last, .next ?_ run, same⟩
      exact congrArg (fun later => some (small, later)) (if_pos less)
  | case2 buckets small smaller large larger left next least ih =>
      obtain ⟨finished, last, run, same⟩ := ih
      refine ⟨small :: finished, last, .next ?_ run, same⟩
      exact congrArg (fun later => some (small, later)) (if_neg least)
  | case3 buckets smaller larger done =>
      refine ⟨[], ⟨buckets, smaller, larger⟩, .stop ?_, rfl⟩
      unfold step?
      split
      · next small smaller large larger small' large' =>
        cases small'
        cases large'
        exact (done _ _ _ _ rfl rfl).elim
      · rfl

/-- What a step does. -/
theorem of_step? {pairing later : Pairing α} {small : Nat}
    (step : pairing.step? = some (small, later)) :
    ∃ smaller large larger, pairing.smaller = small :: smaller ∧
      pairing.larger = large :: larger ∧ later.buckets = pairing.finish small large ∧
      (pairing.left small large < 1 ∧ later.smaller = large :: smaller ∧ later.larger = larger ∨
        ¬pairing.left small large < 1 ∧ later.smaller = smaller ∧
          later.larger = large :: larger) := by
  unfold step? at step
  split at step
  · next small' smaller large larger smalls larges =>
    obtain ⟨rfl, rfl⟩ := Prod.mk.inj (Option.some.inj step)
    refine ⟨smaller, large, larger, smalls, larges, ?_⟩
    split
    · next less => exact ⟨rfl, .inl ⟨less, rfl, rfl⟩⟩
    · next least => exact ⟨rfl, .inr ⟨least, rfl, rfl⟩⟩
  · cases step

/-- Without a step small or large buckets are all finished. -/
theorem of_step?_none {pairing : Pairing α} (stops : pairing.step? = none) :
    pairing.smaller = [] ∨ pairing.larger = [] := by
  unfold step? at stops
  split at stops
  · cases stops
  · next none =>
    cases smalls : pairing.smaller with
    | nil => exact .inl rfl
    | cons small smaller =>
        cases larges : pairing.larger with
        | nil => exact .inr rfl
        | cons large larger => exact (none _ _ _ _ smalls larges).elim

end Steps

/-! ## What steps keep -/

section Exact

variable [Field α] [LinearOrder α] [IsStrictOrderedRing α]

/-- What a bucket gives to an index. -/
def gives (pairing : Pairing α) (bucket index : Nat) : α :=
  if pairing.buckets.rest.getD bucket 0 = index then 1 - pairing.share bucket else 0

section Finish

variable {pairing later : Pairing α} {small large : Nat}
  (made : later.buckets = pairing.finish small large)

omit [LinearOrder α] [IsStrictOrderedRing α]

include made

theorem gives_small (inside : small < pairing.buckets.rest.length) (apart : small ≠ large)
    (index : Nat) :
    later.gives small index = if large = index then 1 - pairing.share small else 0 := by
  have taken : later.buckets.rest.getD small 0 = large := by
    simp [made, finish, List.getD_eq_getElem?_getD, inside]
  rw [gives, taken, share_of_ne made apart]

theorem gives_of_ne {bucket : Nat} (apart : bucket ≠ small) (apart' : bucket ≠ large)
    (index : Nat) : later.gives bucket index = pairing.gives bucket index := by
  have taken : later.buckets.rest.getD bucket 0 = pairing.buckets.rest.getD bucket 0 := by
    rw [made]
    exact getD_set_of_ne _ _ _ (Ne.symm apart)
  rw [gives, gives, taken, share_of_ne made apart']

/-- What a large bucket loses is what the finished one gives to it. -/
theorem mass_finish {finished : List Nat} (inside : large < pairing.buckets.keep.length)
    (inside' : small < pairing.buckets.rest.length) (small_ne : small ≠ large)
    (apart : ∀ bucket ∈ finished, bucket ≠ small ∧ bucket ≠ large) (index : Nat) :
    later.share index + ((finished ++ [small]).map (later.gives · index)).sum =
      pairing.share index + (finished.map (pairing.gives · index)).sum := by
  have kept : finished.map (later.gives · index) = finished.map (pairing.gives · index) :=
    List.map_congr_left fun bucket member =>
      gives_of_ne made (apart bucket member).1 (apart bucket member).2 index
  rw [List.map_append, List.sum_append, kept, List.map_singleton, List.sum_singleton,
    gives_small made inside' small_ne]
  by_cases same : large = index
  · rw [if_pos same, ← same, share_large made inside, left]
    ring
  · rw [if_neg same, share_of_ne made (Ne.symm same), add_zero]

/-- Those that wait lose the one that the finished bucket is filled up to. -/
theorem sum_share_finish {others : List Nat} (inside : large < pairing.buckets.keep.length)
    (apart : large ∉ others) : ((large :: others).map later.share).sum + 1 =
      ((small :: large :: others).map pairing.share).sum := by
  have kept : others.map later.share = others.map pairing.share :=
    List.map_congr_left fun index member => share_of_ne made fun same => apart (same ▸ member)
  simp only [List.map_cons, List.sum_cons, kept, share_large made inside, left]
  ring

end Finish

/-- What steps keep of the shares at the start: every bucket is finished or waits, and only once; no
bucket holds less than nothing, the finished and the small ones less than one and the large ones at
least one; those that wait hold one each on average; and every index has its mass. -/
structure Balanced (shares : List α) (finished : List Nat) (pairing : Pairing α) : Prop where
  keeps : pairing.buckets.keep.length = shares.length
  rests : pairing.buckets.rest.length = shares.length
  once : (finished ++ pairing.waiting).Perm (List.range shares.length)
  amount : ∀ index, 0 ≤ pairing.share index
  short : ∀ index ∈ finished, pairing.share index < 1
  small : ∀ index ∈ pairing.smaller, pairing.share index < 1
  large : ∀ index ∈ pairing.larger, ¬pairing.share index < 1
  average : (pairing.waiting.map pairing.share).sum = pairing.waiting.length
  mass : ∀ index, pairing.share index +
    (finished.map fun bucket => pairing.gives bucket index).sum = shares.getD index 0

variable {shares : List α} {finished : List Nat} {pairing later : Pairing α}

namespace Balanced

omit [IsStrictOrderedRing α] in
theorem inside (balanced : Balanced shares finished pairing) {index : Nat}
    (member : index ∈ finished ++ pairing.waiting) : index < shares.length :=
  List.mem_range.mp (balanced.once.mem_iff.mp member)

/-- A step keeps what is kept. -/
theorem step (balanced : Balanced shares finished pairing) {small : Nat}
    (step : pairing.step? = some (small, later)) :
    Balanced shares (finished ++ [small]) later := by
  obtain ⟨smaller, large, larger, smalls, larges, made, cases⟩ := of_step? step
  have waits : pairing.waiting.Perm (small :: large :: (smaller ++ larger)) := by
    rw [waiting, smalls, larges]
    exact (List.perm_middle).cons small
  have waits' : later.waiting.Perm (large :: (smaller ++ larger)) := by
    obtain ⟨-, smalls', larges'⟩ | ⟨-, smalls', larges'⟩ := cases
    · rw [waiting, smalls', larges']
      exact List.Perm.refl _
    · rw [waiting, smalls', larges']
      exact List.perm_middle
  have once : (finished ++ small :: large :: (smaller ++ larger)).Perm
      (List.range shares.length) := (waits.symm.append_left finished).trans balanced.once
  obtain ⟨-, distinct, apart⟩ := List.nodup_append.mp (once.nodup_iff.mpr List.nodup_range)
  obtain ⟨small_apart, distinct⟩ := List.nodup_cons.mp distinct
  have large_apart := (List.nodup_cons.mp distinct).1
  have within : ∀ index ∈ small :: large :: (smaller ++ larger), index < shares.length :=
    fun index member => List.mem_range.mp (once.mem_iff.mp (List.mem_append_right _ member))
  have inside : large < pairing.buckets.keep.length := balanced.keeps ▸ within large (by simp)
  have inside' : small < pairing.buckets.rest.length := balanced.rests ▸ within small (by simp)
  have small_ne : small ≠ large := fun same => small_apart (same ▸ List.mem_cons_self)
  have left := share_large made inside
  -- Of the shares only that of the large bucket changes; what it has left decides where it waits.
  have others : ∀ index ∈ smaller ++ larger, later.share index = pairing.share index :=
    fun index member => share_of_ne made fun same => large_apart (same ▸ member)
  have smaller_less : ∀ index ∈ smaller, later.share index < 1 := fun index member => by
    rw [others index (List.mem_append_left _ member)]
    exact balanced.small index (smalls ▸ .tail _ member)
  have larger_least : ∀ index ∈ larger, ¬later.share index < 1 := fun index member => by
    rw [others index (List.mem_append_right _ member)]
    exact balanced.large index (larges ▸ .tail _ member)
  refine ⟨?_, ?_, ?_, fun index => ?_, fun index member => ?_, ?_, ?_, ?_, fun index => ?_⟩
  · rw [made]
    exact List.length_set.trans balanced.keeps
  · rw [made]
    exact List.length_set.trans balanced.rests
  · rw [List.append_assoc]
    exact ((waits'.cons small).append_left finished).trans once
  · by_cases same : index = large
    · have amount := balanced.amount small
      have least := balanced.large large (larges ▸ List.mem_cons_self)
      rw [same, left, Pairing.left]
      linarith
    · rw [share_of_ne made same]
      exact balanced.amount index
  · rcases List.mem_append.mp member with old | new
    · rw [share_of_ne made (apart index old large (by simp))]
      exact balanced.short index old
    · rw [List.mem_singleton.mp new, share_of_ne made small_ne]
      exact balanced.small small (smalls ▸ List.mem_cons_self)
  · obtain ⟨less, smalls', -⟩ | ⟨-, smalls', -⟩ := cases
    · rw [smalls']
      exact List.forall_mem_cons.mpr ⟨left ▸ less, smaller_less⟩
    · rw [smalls']
      exact smaller_less
  · obtain ⟨-, -, larges'⟩ | ⟨least, -, larges'⟩ := cases
    · rw [larges']
      exact larger_least
    · rw [larges']
      exact List.forall_mem_cons.mpr ⟨left ▸ least, larger_least⟩
  · have average := balanced.average
    rw [(waits.map _).sum_eq, waits.length_eq, ← sum_share_finish made inside large_apart,
      List.length_cons, Nat.cast_add, Nat.cast_one] at average
    rw [(waits'.map _).sum_eq, waits'.length_eq]
    exact add_right_cancel average
  · rw [← balanced.mass index]
    exact mass_finish made inside inside' small_ne
      (fun bucket member => ⟨apart bucket member small (by simp), apart bucket member large (by simp)⟩)
      index

/-- A run keeps what is kept. -/
theorem run {pairing last : Pairing α} {finished finished' : List Nat}
    (balanced : Balanced shares finished pairing) (run : pairing.Runs finished' last) :
    Balanced shares (finished ++ finished') last ∧ last.step? = none := by
  induction run generalizing finished with
  | stop stops => exact ⟨by rwa [List.append_nil], stops⟩
  | next step run ih =>
      rw [← List.singleton_append, ← List.append_assoc]
      exact ih (balanced.step step)

/-- At the end of a run those that wait hold exactly one: no small bucket waits, since all that wait
would hold less than one each on average, and no large one holds more. -/
theorem full (balanced : Balanced shares finished pairing) (stops : pairing.step? = none) :
    ∀ index ∈ pairing.waiting, pairing.share index = 1 := by
  have average := balanced.average
  have ones (indices : List Nat) : (indices.map fun _ => (1 : α)).sum = indices.length := by simp
  rw [← ones] at average
  -- A list of numbers that are all at least one, or all below one, sums to its length only when all
  -- of them are one.
  rcases of_step?_none stops with smalls | larges
  · rw [waiting, smalls, List.nil_append] at average ⊢
    have least : ∀ index ∈ pairing.larger, 1 ≤ pairing.share index :=
      fun index member => not_lt.mp (balanced.large index member)
    intro index member
    by_contra other
    have more := List.sum_lt_sum (fun _ => (1 : α)) pairing.share least
      ⟨index, member, lt_of_le_of_ne (least index member) (Ne.symm other)⟩
    exact more.ne' average
  · rw [waiting, larges, List.append_nil] at average ⊢
    have none : pairing.smaller = [] := by
      by_contra some
      exact (List.sum_lt_sum_of_ne_nil some _ _ balanced.small).ne average
    rw [none]
    exact fun index member => absurd member List.not_mem_nil

section Filled

omit [IsStrictOrderedRing α]

variable (balanced : Balanced shares finished pairing)
  (filled : ∀ index ∈ pairing.waiting, pairing.share index = 1)

include balanced filled

/-- When those that wait hold one, an index has what it was to have. -/
theorem mass_eq (index : Nat) : pairing.buckets.mass index = shares.getD index 0 := by
  have given : (∑ bucket ∈ Finset.range shares.length, pairing.gives bucket index) =
      ((finished ++ pairing.waiting).map (pairing.gives · index)).sum :=
    (balanced.once.map (pairing.gives · index)).sum_eq.symm
  have none : (pairing.waiting.map (pairing.gives · index)).sum = 0 := by
    refine List.sum_eq_zero fun given member => ?_
    obtain ⟨bucket, waits, rfl⟩ := List.mem_map.mp member
    rw [gives, filled bucket waits, sub_self, ite_self]
  rw [List.map_append, List.sum_append, none, add_zero] at given
  rw [← balanced.mass index, ← given, Buckets.mass, Finset.sum_filter, balanced.keeps]
  rfl

theorem share_le_one {index : Nat} (inside : index < shares.length) : pairing.share index ≤ 1 := by
  rcases List.mem_append.mp (balanced.once.mem_iff.mpr (List.mem_range.mpr inside)) with old | waits
  · exact (balanced.short index old).le
  · exact (filled index waits).le

end Filled

end Balanced

/-! ## Weights -/

/-- The start of pairing: scaled weights, where every index is its own alias. -/
def start (weights : List α) : Pairing α :=
  let isSmall := fun index => decide ((scaled weights).getD index 0 < 1)
  ⟨⟨scaled weights, List.range weights.length⟩,
    ((List.range weights.length).filter isSmall).reverse,
    ((List.range weights.length).filter fun index => !isSmall index).reverse⟩

section

omit [LinearOrder α] [IsStrictOrderedRing α]

theorem total_eq_sum (weights : List α) : total weights = weights.sum := List.sum_eq_foldl.symm

theorem length_scaled (weights : List α) : (scaled weights).length = weights.length :=
  List.length_map _

theorem getD_scaled {weights : List α} {index : Nat} {weight : α}
    (there : weights[index]? = some weight) :
    (scaled weights).getD index 0 = weights.length * weight / weights.sum := by
  rw [scaled, List.getD_eq_getElem?_getD, List.getElem?_map, there, total_eq_sum, mul_comm]
  rfl

/-- Scaled weights hold one each on average. -/
theorem sum_scaled {weights : List α} (some : weights.sum ≠ 0) :
    (scaled weights).sum = weights.length := by
  have scale : scaled weights = weights.map fun weight =>
      weight * ((weights.length : α) / weights.sum) := by
    rw [scaled, total_eq_sum]
    exact List.map_congr_left fun weight _ => mul_div_assoc _ _ _
  rw [scale, List.sum_map_mul_right, List.map_id']
  field_simp

theorem map_getD_range (items : List α) :
    (List.range items.length).map (items.getD · 0) = items :=
  List.ext_getElem (by simp) fun index _ inside => by simp [inside]

end

theorem getD_scaled_nonneg {weights : List α} (all : ∀ weight ∈ weights, 0 ≤ weight)
    (index : Nat) : 0 ≤ (scaled weights).getD index 0 := by
  rw [List.getD_eq_getElem?_getD]
  cases there : (scaled weights)[index]? with
  | none => exact le_refl _
  | some share =>
      obtain ⟨weight, among, rfl⟩ := List.mem_map.mp (List.mem_of_getElem? there)
      have sum : 0 ≤ total weights := total_eq_sum weights ▸ List.sum_nonneg all
      exact div_nonneg (mul_nonneg (all weight among) (Nat.cast_nonneg _)) sum

theorem balanced_start {weights : List α} (all : ∀ weight ∈ weights, 0 ≤ weight)
    (some : weights.sum ≠ 0) : Balanced (scaled weights) [] (start weights) := by
  have length := length_scaled weights
  have shares : (start weights).share = ((scaled weights).getD · 0) := rfl
  have waits : (start weights).waiting.Perm (List.range weights.length) :=
    ((List.reverse_perm _).append (List.reverse_perm _)).trans (List.filter_append_perm _ _)
  refine ⟨rfl, List.length_range.trans length.symm, length ▸ waits,
    fun index => getD_scaled_nonneg all index, fun index member => absurd member List.not_mem_nil,
    fun index member => ?_, fun index member => ?_, ?_, fun index => by simp [shares]⟩
  · exact of_decide_eq_true (List.mem_filter.mp (List.mem_reverse.mp member)).2
  · have least := (List.mem_filter.mp (List.mem_reverse.mp member)).2
    exact of_decide_eq_false ((Bool.not_eq_true' _).mp least)
  · rw [(waits.map _).sum_eq, waits.length_eq, List.length_range, shares, ← length, map_getD_range,
      sum_scaled some, length]

/-- **Exact pairing.** Weights that are not negative and have a total are paired by a run that keeps
every mass. At its end the buckets that are left hold exactly one, and it gives the buckets of the
weights. -/
theorem exists_runs_start {weights : List α} (all : ∀ weight ∈ weights, 0 ≤ weight)
    (some : weights.sum ≠ 0) : ∃ finished last, (start weights).Runs finished last ∧
      Balanced (scaled weights) finished last ∧
      (∀ index ∈ last.waiting, last.share index = 1) ∧
      Buckets.ofWeights weights = last.buckets := by
  obtain ⟨finished, last, run, same⟩ := exists_runs (start weights)
  obtain ⟨balanced, stops⟩ := (balanced_start all some).run run
  have full := balanced.full stops
  refine ⟨finished, last, run, balanced, full, same.trans ?_⟩
  rw [fill_eq_self fun index member => ?_]
  have inside : index < last.buckets.keep.length :=
    balanced.keeps ▸ balanced.inside (List.mem_append_right _ member)
  have one := full index member
  rw [share, List.getD_eq_getElem?_getD, List.getElem?_eq_getElem inside] at one
  rw [List.getElem?_eq_getElem inside]
  exact congrArg Option.some one

end Exact

end Pairing

end ShardedGraph.Kernel
