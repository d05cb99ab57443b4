import ShardedGraph.Proofs.Sources

/-!
# Which samples are refused

Let a namespace have candidates. A sample for a query node of it is refused before any draw when
fewer candidates can be drawn and are not excluded than are asked for; otherwise candidates are
drawn, and only the budget of draws can end the sample (`NegativePools.sampleFor_admission`).

**The sum in 64 bits.** The candidates are counted only when the number of those that can be drawn
is less than the number of asked and excluded nodes together. This sum is taken in 64 bits. Where it
wraps around it may be so small that a shortage is overlooked (`NegativePools.SkipsCount`), and then
the program stops because no list has room for the sample. It cannot wrap around while the sum is
below `2 ^ 64`, and then no shortage is overlooked, because candidates are different
(`NegativePools.IsPool.support_le`).

**Excluded nodes are a set.** Their order and their repetitions matter for the sum alone.
-/

set_option autoImplicit false

namespace ShardedGraph

namespace NegativePools

variable {source : Source} {kind : KernelKind} {pools : NegativePools} {ns : NamespaceId}
  {candidates : List NodeId} {kernel : Kernel} {count : Nat} {node : NodeId}

/-- As many candidates can be drawn as nodes are asked for and excluded, summed in 64 bits, so that
the candidates that are left are not counted. -/
def SkipsCount (pools : NegativePools) (ns : NamespaceId) (count : Nat) (excluded : List NodeId) :
    Prop :=
  (count + excluded.length) % UInt64.size ≤ (pools.drawable ns).length

instance (pools : NegativePools) (ns : NamespaceId) (count : Nat) (excluded : List NodeId) :
    Decidable (pools.SkipsCount ns count excluded) :=
  inferInstanceAs (Decidable (_ ≤ _))

/-! ## Collecting -/

section Collect

variable {draw : Attempt NodeId} {budget : Nat} {found : List NodeId}

/-- When every draw gives something and takes a word, collecting does not fail, and takes a word
unless there is nothing to draw. -/
theorem exists_collect (draws : ∀ stream, ∃ drawn later,
      runFrom draw stream = (.ok drawn, later) ∧ stream.used < later.used)
    (excluded : List NodeId) (stream : WordStream) :
    ∃ sample later, runFrom (collect draw count excluded budget found) stream =
        (.ok sample, later) ∧
      stream.used ≤ later.used ∧ (budget ≠ 0 → stream.used < later.used) := by
  induction budget generalizing found stream with
  | zero => exact ⟨found, stream, rfl, Nat.le_refl _, fun some => absurd rfl some⟩
  | succ budget ih =>
      obtain ⟨drawn, between, run, taken⟩ := draws stream
      rw [runFrom_collect_of_ok run]
      have onward : ∀ {found}, ∃ sample later,
          runFrom (collect draw count excluded budget found) between = (.ok sample, later) ∧
            stream.used ≤ later.used ∧ (budget + 1 ≠ 0 → stream.used < later.used) := by
        intro found
        obtain ⟨sample, later, collected, least, -⟩ := ih between
        exact ⟨sample, later, collected, by omega, fun _ => by omega⟩
      split
      · exact onward
      · split
        · exact ⟨_, between, rfl, Nat.le_of_lt taken, fun _ => taken⟩
        · exact onward

/-- What is collected depends on which nodes are excluded, not on how they are listed. -/
theorem collect_congr {excluded excluded' : List NodeId}
    (same : ∀ node, node ∈ excluded ↔ node ∈ excluded') :
    collect draw count excluded budget found = collect draw count excluded' budget found := by
  have contains : ∀ node, excluded.contains node = excluded'.contains node := fun node => by
    simp [same]
  induction budget generalizing found with
  | zero => rfl
  | succ budget ih =>
      funext stream
      simp only [collect, contains, ih]

end Collect

/-! ## Samples -/

section Pool

variable (isPool : pools.IsPool ns candidates kernel) {excluded : List NodeId}

include isPool

/-- A shortage is refused unless it is not counted. -/
theorem IsPool.requireCandidates_eq : pools.requireCandidates ns candidates count excluded =
    if (pools.admissible ns excluded).length < count ∧ ¬pools.SkipsCount ns count excluded then
      .error (.tooFewCandidates ns (pools.admissible ns excluded).length count)
    else .ok () := by
  have skips : pools.SkipsCount ns count excluded ↔
      ¬kernel.support < (count + excluded.length) % UInt64.size := by
    rw [SkipsCount, isPool.length_drawable, Nat.not_lt]
  unfold requireCandidates
  rw [isPool.support, isPool.countAdmissible_eq]
  change (if kernel.support < (count + excluded.length) % UInt64.size then
    (if (pools.admissible ns excluded).length < count then _ else _) else _ :
      Except Error Unit) = _
  by_cases more : kernel.support < (count + excluded.length) % UInt64.size
  · by_cases few : (pools.admissible ns excluded).length < count
    · rw [if_pos more, if_pos few, if_pos ⟨few, fun skip => skips.mp skip more⟩]
      rfl
    · rw [if_pos more, if_neg few, if_neg fun both => few both.1]
      rfl
  · rw [if_neg more, if_neg fun both => both.2 (skips.mpr more)]
    rfl

/-- No shortage is overlooked while the sum does not wrap around. -/
theorem IsPool.not_skipsCount (few : (pools.admissible ns excluded).length < count)
    (small : count + excluded.length < UInt64.size) : ¬pools.SkipsCount ns count excluded := by
  have bound := isPool.support_le excluded
  rw [SkipsCount, isPool.length_drawable, Nat.mod_eq_of_lt small]
  omega

/-- A shortage is overlooked only for more nodes than a list can hold. -/
theorem IsPool.listLimit_lt (few : (pools.admissible ns excluded).length < count)
    (short : excluded.length ≤ listLimit) (skips : pools.SkipsCount ns count excluded) :
    listLimit < count := by
  have wraps : UInt64.size ≤ count + excluded.length :=
    Nat.not_lt.mp fun small => isPool.not_skipsCount few small skips
  have room : listLimit + listLimit < UInt64.size := by decide
  omega

/-- There is room for a sample of candidates that are left. -/
theorem IsPool.count_le_listLimit (enough : count ≤ (pools.admissible ns excluded).length) :
    count ≤ listLimit := by
  have fewer : (pools.admissible ns excluded).length ≤ _ := List.length_filter_le _ _
  exact Nat.le_trans enough (Nat.le_trans fewer (Nat.le_trans isPool.length_drawable_le (by decide)))

variable (own : namespaceOf node = ns) (some : 0 < count)

include own some

/-- A sample for a query node of a pool is refused, has no room, or is collected. -/
theorem IsPool.runFrom_sampleFor (stream : WordStream) :
    runFrom (pools.sampleFor count excluded node) stream =
      if (pools.admissible ns excluded).length < count ∧ ¬pools.SkipsCount ns count excluded then
        (.error (.tooFewCandidates ns (pools.admissible ns excluded).length count), stream)
      else if listLimit < count then (.error (.poolTooLong count), stream)
      else runFrom (do
        let found ← collect (pools.draw node) count excluded (drawBudget count) []
        if found.length = count then return found
        else throw (.drawsExhausted ns found.length count (drawBudget count))) stream := by
  subst own
  have listed : runFrom (liftM (pools.candidates (namespaceOf node))) stream =
      (.ok candidates, stream) := by rw [runFrom_liftM, isPool.listed]
  have required : runFrom (liftM (pools.requireCandidates (namespaceOf node) candidates count
      excluded)) stream = (if (pools.admissible (namespaceOf node) excluded).length < count ∧
        ¬pools.SkipsCount (namespaceOf node) count excluded then
      .error (.tooFewCandidates (namespaceOf node)
        (pools.admissible (namespaceOf node) excluded).length count)
    else .ok (), stream) := by rw [runFrom_liftM, isPool.requireCandidates_eq]
  refine (runFrom_bind_of_ok listed).trans ?_
  rw [if_neg (Nat.ne_of_gt some)]
  by_cases refused : (pools.admissible (namespaceOf node) excluded).length < count ∧
      ¬pools.SkipsCount (namespaceOf node) count excluded
  · rw [if_pos refused] at required ⊢
    exact runFrom_bind_of_error required
  · rw [if_neg refused] at required ⊢
    refine (runFrom_bind_of_ok required).trans ?_
    dsimp only
    split
    · rfl
    · rfl

/-- A sample of candidates that are left is drawn, and fails only when all draws are used up. -/
theorem IsPool.sampleFor_draws (enough : count ≤ (pools.admissible ns excluded).length)
    (stream : WordStream) : ∃ result later,
      runFrom (pools.sampleFor count excluded node) stream = (result, later) ∧
      stream.used < later.used ∧
      ∀ error, result = .error error →
        ∃ found, error = .drawsExhausted ns found count (drawBudget count) := by
  have fits := isPool.count_le_listLimit enough
  have budget : drawBudget count ≠ 0 := by
    have draws : 0 < count * drawsPerNode := Nat.mul_pos some (by decide)
    exact Nat.ne_of_gt (Nat.lt_min.mpr ⟨draws, by decide⟩)
  have draws : ∀ stream, ∃ drawn later, runFrom (pools.draw node) stream = (.ok drawn, later) ∧
      stream.used < later.used := fun stream => by
    obtain ⟨drawn, later, run, -, taken⟩ := isPool.exists_draw own stream
    exact ⟨drawn, later, run, taken⟩
  obtain ⟨found, later, collected, -, taken⟩ := exists_collect draws excluded stream
  rw [isPool.runFrom_sampleFor own some, if_neg fun both => Nat.not_le_of_lt both.1 enough,
    if_neg (Nat.not_lt.mpr fits), runFrom_bind_of_ok collected]
  split
  · exact ⟨_, later, rfl, taken budget, fun error failed => nomatch failed⟩
  · refine ⟨_, later, rfl, taken budget, fun error failed => ?_⟩
    cases failed
    exact ⟨found.length, rfl⟩

/-- A shortage is refused before any draw, unless it is overlooked. -/
theorem IsPool.sampleFor_refuses (few : (pools.admissible ns excluded).length < count)
    (counted : ¬pools.SkipsCount ns count excluded) (stream : WordStream) :
    runFrom (pools.sampleFor count excluded node) stream =
      (.error (.tooFewCandidates ns (pools.admissible ns excluded).length count), stream) := by
  rw [isPool.runFrom_sampleFor own some, if_pos ⟨few, counted⟩]

/-- Excluded lists with the same nodes give the same samples, unless a shortage is overlooked. -/
theorem IsPool.sampleFor_congr {excluded' : List NodeId}
    (same : ∀ node, node ∈ excluded ↔ node ∈ excluded')
    (counted : (pools.admissible ns excluded).length < count →
      ¬pools.SkipsCount ns count excluded ∧ ¬pools.SkipsCount ns count excluded')
    (stream : WordStream) : runFrom (pools.sampleFor count excluded node) stream =
      runFrom (pools.sampleFor count excluded' node) stream := by
  have left : pools.admissible ns excluded = pools.admissible ns excluded' := admissible_congr same
  by_cases few : (pools.admissible ns excluded).length < count
  · rw [isPool.sampleFor_refuses own some few (counted few).1,
      isPool.sampleFor_refuses own some (left ▸ few) (counted few).2, left]
  · have fine : ∀ listed, ¬((pools.admissible ns excluded).length < count ∧
        ¬pools.SkipsCount ns count listed) := fun _ both => few both.1
    rw [isPool.runFrom_sampleFor own some, isPool.runFrom_sampleFor own some, ← left,
      if_neg (fine excluded), if_neg (fine excluded'), collect_congr same]

end Pool

/-- **Admission.** Let pools be built from a source that is made, and a query node have a namespace
with candidates. When as many candidates can be drawn and are not excluded as are asked for, then
candidates are drawn, and the sample can only fail because all draws are used up. When there are
fewer, the sample is refused with their number and no word is taken, unless the shortage is
overlooked: this needs a sum of asked and excluded nodes that wraps around, and then there is no
room for the sample. Excluded lists with the same nodes give the same samples from the same stream
when neither overlooks a shortage. -/
theorem sampleFor_admission (made : source.IsMade) (built : build source kind = .ok pools)
    (listed : pools.candidates (namespaceOf node) = .ok candidates) (some : 0 < count)
    {excluded : List NodeId} (short : excluded.length ≤ listLimit) :
    let ns := namespaceOf node
    let left := (pools.admissible ns excluded).length
    (count ≤ left → ∀ stream, ∃ result later,
      runFrom (pools.sampleFor count excluded node) stream = (result, later) ∧
      stream.used < later.used ∧
      ∀ error, result = .error error →
        ∃ found, error = .drawsExhausted ns found count (drawBudget count)) ∧
    (left < count → ¬pools.SkipsCount ns count excluded →
      ∀ stream, runFrom (pools.sampleFor count excluded node) stream =
        (.error (.tooFewCandidates ns left count), stream)) ∧
    (left < count → pools.SkipsCount ns count excluded →
      UInt64.size ≤ count + excluded.length ∧
      ∀ stream, runFrom (pools.sampleFor count excluded node) stream =
        (.error (.poolTooLong count), stream)) ∧
    ∀ excluded', (∀ node, node ∈ excluded ↔ node ∈ excluded') →
      (left < count →
        ¬pools.SkipsCount ns count excluded ∧ ¬pools.SkipsCount ns count excluded') →
      ∀ stream, runFrom (pools.sampleFor count excluded node) stream =
        runFrom (pools.sampleFor count excluded' node) stream := by
  obtain ⟨kernel, isPool⟩ := exists_isPool made.isSound built listed
  refine ⟨isPool.sampleFor_draws rfl some, isPool.sampleFor_refuses rfl some, ?_, ?_⟩
  · intro few skips
    refine ⟨Nat.not_lt.mp fun small => isPool.not_skipsCount few small skips, fun stream => ?_⟩
    rw [isPool.runFrom_sampleFor rfl some, if_neg fun both => both.2 skips,
      if_pos (isPool.listLimit_lt few short skips)]
  · exact fun excluded' same counted => isPool.sampleFor_congr rfl some same counted

/-- Two nodes can be drawn and one of them is excluded, so a sample of two nodes is refused. -/
theorem sampleFor_admission_mixed :
    (∃ source : Source, source.IsMade ∧ build source .uniform = .ok evenPartition.negatives) ∧
    evenPartition.negatives.candidates (namespaceOf 2) = .ok [1, 2] ∧ 0 < 2 ∧
    [(1 : NodeId)].length ≤ listLimit ∧
    evenPartition.negatives.admissible (namespaceOf 2) [1] = [2] ∧
    ∀ stream, runFrom (evenPartition.negatives.sampleFor 2 [1] 2) stream =
      (.error (.tooFewCandidates (namespaceOf 2) 1 2), stream) := by
  obtain ⟨source, made, built⟩ := isMade_even
  have listed : evenPartition.negatives.candidates (namespaceOf 2) = .ok [1, 2] := by
    decide +kernel
  have left : evenPartition.negatives.admissible (namespaceOf 2) [1] = [2] := by decide +kernel
  have refuses := (sampleFor_admission made built listed (by decide : 0 < 2)
    (by decide : [(1 : NodeId)].length ≤ listLimit)).2.1
  rw [left] at refuses
  exact ⟨⟨source, made, built⟩, listed, by decide, by decide, left,
    refuses (by decide) (by decide +kernel)⟩

/-- A shortage that is overlooked: two nodes can be drawn and the largest count is asked for. With
one excluded node the sum wraps around to zero, and the program stops; with four times the same
excluded node the shortage is seen. -/
theorem shortage_overlooked_mixed :
    (∃ source : Source, source.IsMade ∧ build source .uniform = .ok evenPartition.negatives) ∧
    (evenPartition.negatives.admissible (namespaceOf 2) [5]).length = 2 ∧
    (18446744073709551615 + [(5 : NodeId)].length) % UInt64.size = 0 ∧
    (runFrom (evenPartition.negatives.sampleFor 18446744073709551615 [5] 2) (.cycle #[])).1 =
      .error (.poolTooLong 18446744073709551615) ∧
    (Error.poolTooLong 18446744073709551615).kind ≠ .data ∧
    (runFrom (evenPartition.negatives.sampleFor 18446744073709551615 [5, 5, 5, 5] 2)
      (.cycle #[])).1 =
      .error (.tooFewCandidates (namespaceOf 2) 2 18446744073709551615) := by
  refine ⟨isMade_even, by decide +kernel, by decide, ?_, by decide, ?_⟩
  · decide +kernel
  · decide +kernel

end NegativePools

end ShardedGraph
