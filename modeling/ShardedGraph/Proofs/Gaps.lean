import ShardedGraph.Proofs.Admission
import ShardedGraph.Proofs.Attained
import ShardedGraph.Proofs.Intervals

/-!
# Indices that no word draws

A word draws from prefix sums the index that it hits: its point, a fraction of the total, is not
below the sum before the index, but below the next one (`Kernel.PrefixSums.draw_eq_iff`). An index
that is hit is reachable. The converse holds of other kernels, and fails here: sums may go up
between two points (`Kernel.PrefixSums.unhit_tiny`).

**The grid.** The fractions of words divide the total into `2 ^ 53` parts, and a point is a number
of parts, rounded. Where the sums go up by two parts a point lies between them, also after it was
rounded, because half of the last place of a sum is not more than a part
(`Number.Format.exists_round_mem`). Where something stands before an index and the next sum is not
more than a part, none does: the fraction zero lies before the index, and every other one past it
(`Kernel.PrefixSums.not_hits`).

**Samples.** Candidates count as drawable when they are reachable. A sample that more of them are
left for than are asked for is not refused; when fewer of them are hit, it spends its budget of
draws (`NegativePools.IsPool.sampleFor_spends`).
-/

set_option autoImplicit false

namespace ShardedGraph

open Number

namespace Number

/-! ## A grid of fractions -/

namespace Format

variable {format : Format}

/-- Past the first binade, the last place of a magnitude is a small part of its value. -/
theorem units_succ_le {magnitude : Nat} (normal : 2 ^ format.fractionBits ≤ magnitude + 1) :
    format.units (magnitude + 1) * 2 ^ format.fractionBits ≤
      format.units magnitude * 2 ^ format.fractionBits + format.units (magnitude + 1) := by
  obtain ⟨binade, significand, isSignificand, rfl⟩ := format.exists_binade magnitude
  have large : 2 ^ format.fractionBits ≤ significand + 1 := by
    rcases isSignificand.leading with rfl | leading
    · omega
    · exact Nat.le_succ_of_le leading
  rw [units_binade_succ isSignificand, units_binade isSignificand, Nat.succ_mul significand,
    Nat.add_mul, Nat.add_le_add_iff_left, Nat.mul_comm (2 ^ binade), ← Nat.succ_mul]
  exact Nat.mul_le_mul_right _ large

/-- Let a whole be divided into twice as many parts as a binade has magnitudes. When two magnitudes
are apart by two parts or more, then some number of parts is rounded into the interval between them.
-/
theorem exists_round_mem (wide : 0 < format.fractionBits) {low high whole scale : Nat}
    (positive : 0 < scale) (normal : 2 ^ format.fractionBits ≤ high)
    (finite : high ≤ format.infinity) (most : format.units high ≤ whole)
    (apart : format.units low * 2 ^ format.fractionBits + whole ≤
      format.units high * 2 ^ format.fractionBits) :
    ∃ part < 2 ^ (format.fractionBits + 1),
      low ≤ format.round (part * scale * whole) (2 ^ (format.fractionBits + 1) * scale) ∧
      format.round (part * scale * whole) (2 ^ (format.fractionBits + 1) * scale) < high := by
  obtain ⟨before, rfl⟩ := Nat.exists_eq_add_one_of_ne_zero
    (Nat.ne_of_gt (Nat.lt_of_lt_of_le (Nat.two_pow_pos _) normal))
  have some : 0 < whole :=
    Nat.lt_of_lt_of_le (Nat.zero_lt_of_lt (units_lt_units_succ before)) most
  -- The first number of parts that is not below the lower magnitude is a part below the higher one,
  -- and half of the last place of the higher one is less than a part.
  obtain ⟨part, reached, near⟩ :=
    @WordStream.exists_multiple (format.units low * 2 ^ format.fractionBits * 2) _ some
  have place := units_succ_le normal
  have bounded :
      part * whole + whole < format.units (before + 1) * 2 ^ format.fractionBits * 2 := by
    omega
  have room : format.units (before + 1) * 2 ^ format.fractionBits * 2 ≤
      2 ^ format.fractionBits * 2 * whole := by
    rw [Nat.mul_comm _ whole, ← Nat.mul_assoc]
    exact Nat.mul_le_mul_right 2 (Nat.mul_le_mul_right _ most)
  rw [Nat.pow_succ]
  have denominator : 0 < 2 ^ format.fractionBits * 2 * scale :=
    Nat.mul_pos (Nat.mul_pos (Nat.two_pow_pos _) Nat.two_pos) positive
  refine ⟨part, Nat.lt_of_mul_lt_mul_right (a := whole) (by omega), ?_, ?_⟩
  · refine (round_mem_of_mem wide denominator finite ?_ ?_).1
    · rw [Nat.mul_right_comm part, ← Nat.mul_assoc, ← Nat.mul_assoc]
      exact Nat.mul_le_mul_right scale reached
    · rw [Nat.mul_right_comm part, ← Nat.mul_assoc, ← Nat.mul_assoc]
      exact Nat.mul_le_mul_right scale (by omega)
  · refine Nat.lt_succ_of_le (round_le wide denominator ?_)
    rw [Nat.mul_right_comm part, ← Nat.mul_assoc 2 (part * whole), ← Nat.mul_assoc (_ + _)]
    refine Nat.mul_lt_mul_of_pos_right ?_ positive
    rw [Nat.add_mul, ← Nat.mul_assoc (format.units before),
      ← Nat.mul_assoc (format.units (before + 1))]
    omega

end Format

/-- The least fraction that has as many digits as a significand, in units. -/
@[irreducible]
def Format.leastFraction (format : Format) : Nat :=
  2 ^ (format.unitExponent - (format.fractionBits + 1))

theorem Format.leastFraction_pos (format : Format) : 0 < format.leastFraction := by
  rw [leastFraction]
  exact Nat.two_pow_pos _

section Fractions

variable {format : Format} (fine : format.fractionBits + 1 ≤ format.unitExponent)

include fine

theorem Format.mul_leastFraction :
    2 ^ (format.fractionBits + 1) * format.leastFraction = 2 ^ format.unitExponent := by
  rw [leastFraction, ← Nat.pow_add, Nat.add_sub_of_le fine]

/-- A fraction with no more digits than a significand is exact. -/
theorem Binary.units_ofDyadic (wide : format.IsWide) {numerator : Nat}
    (small : numerator ≤ format.exactLimit) :
    (ofDyadic numerator (format.fractionBits + 1) : Binary format).units =
      numerator * format.leastFraction := by
  obtain ⟨magnitude, bound, value⟩ :=
    format.exists_units small (format.unitExponent - (format.fractionBits + 1))
  rw [← Format.leastFraction] at value
  have finite : magnitude ≤ format.infinity := by
    have room := Nat.mul_le_mul_right (2 ^ format.fractionBits) (Nat.le_of_lt wide.room)
    have least := Nat.mul_le_mul_right (2 ^ format.fractionBits) (Nat.add_le_add_right
      (Nat.sub_le format.unitExponent (format.fractionBits + 1)) 2)
    exact Nat.le_trans bound (Nat.le_trans least room)
  have same : numerator <<< format.unitExponent =
      format.units magnitude * 2 ^ (format.fractionBits + 1) := by
    rw [value, Nat.shiftLeft_eq, ← Format.mul_leastFraction fine, ← Nat.mul_assoc,
      Nat.mul_right_comm]
  obtain ⟨least, most⟩ := Format.round_mem_of_mem wide.fraction
    (Nat.two_pow_pos (format.fractionBits + 1)) finite (Nat.le_of_eq same.symm) (Nat.le_of_eq same)
  rw [← value]
  exact congrArg format.units (Nat.le_antisymm most least)

end Fractions

/-- A fraction of a word is a number of least fractions. -/
theorem units_fraction (word : UInt64) :
    (Binary.ofDyadic (word.toNat >>> 11) 53 : Double).units =
      (word.toNat >>> 11) * Format.double.leastFraction :=
  Binary.units_ofDyadic (by decide) Format.isWide_double
    (Nat.le_of_lt (WordStream.fraction_lt word))

/-- Every number of least fractions that is below one is the fraction of a word. -/
theorem exists_word {part : Nat} (small : part < 2 ^ 53) :
    ∃ word : UInt64, word.toNat >>> 11 = part := by
  refine ⟨UInt64.ofNat (part * 2 ^ 11), ?_⟩
  have fits : part * 2 ^ 11 < UInt64.size := by
    rw [UInt64.size]
    omega
  rw [UInt64.toNat_ofNat_of_lt' fits, Nat.shiftRight_eq_div_pow,
    Nat.mul_div_cancel _ (Nat.two_pow_pos _)]

end Number

namespace Kernel.PrefixSums

/-! ## Points -/

/-- The point that a word picks, of the sum of all weights. -/
def pointOfWord (table : PrefixSums) (word : UInt64) : Double :=
  pointOf table.sums 0 table.size (.ofDyadic (word.toNat >>> 11) 53)

/-- A word hits an index when its point is not below the sum before the index, but below the next
one. -/
def Hits (table : PrefixSums) (word : UInt64) (index : Nat) : Prop :=
  ¬table.pointOfWord word < sumBefore table.sums index ∧
    table.pointOfWord word < sumBefore table.sums (index + 1)

/-- Past its end a table has no sums. -/
theorem sumBefore_of_outside {table : PrefixSums} {index : Nat} (outside : table.size ≤ index) :
    sumBefore table.sums (index + 1) = 0 := by
  rw [sumBefore, if_neg (Nat.succ_ne_zero index), Nat.add_sub_cancel, List.getD_eq_getElem?_getD,
    List.getElem?_eq_none outside]
  rfl

section Built

variable {weights : List Single} {table : PrefixSums}
  (run : PrefixSums.build weights = .ok table) {word : UInt64} {index : Nat}

include run

/-- What stands before an index is an amount, nothing or not small. -/
theorem isBetween_of_build (index : Nat) :
    (sumBefore table.sums index).IsBetween Format.leastWide Format.mostSum :=
  isBetween_sumBefore (spec_of_build run).2 index

/-- The sums do not go down. -/
theorem magnitude_mono_of_build {earlier later : Nat} (order : earlier ≤ later)
    (inside : later ≤ table.size) :
    (sumBefore table.sums earlier).magnitude ≤ (sumBefore table.sums later).magnitude := by
  rw [size_of_build run] at inside
  obtain ⟨checked, -, rfl⟩ := of_build run
  exact magnitude_sumBefore_mono (isBetween_of_checkWeights checked) order
    (by rwa [List.length_map])

/-- The point of a word is its fraction of the total, rounded, and below the total. -/
theorem pointOfWord_spec (word : UInt64) :
    (table.pointOfWord word).IsAmount ∧
      (table.pointOfWord word).magnitude = Format.double.round
        ((word.toNat >>> 11) * Format.double.leastFraction *
          (sumBefore table.sums table.size).units)
        (2 ^ 53 * Format.double.leastFraction) ∧
      (table.pointOfWord word).magnitude < (sumBefore table.sums table.size).magnitude := by
  obtain ⟨some, all⟩ := spec_of_build run
  obtain ⟨isAmount, last⟩ := WordStream.fraction_le_last word
  have nothing : (sumBefore table.sums 0).magnitude = 0 := rfl
  have whole : 2 ^ 53 * Format.double.leastFraction = 2 ^ Format.double.unitExponent :=
    @Format.mul_leastFraction .double (by decide)
  rw [whole, ← units_fraction]
  exact pointOf_rounds nothing all some isAmount last

/-- A draw searches for the point of its word. -/
theorem value_draw (stream : WordStream) :
    (table.draw.run stream).1 =
      firstAbove table.sums 0 table.size (table.pointOfWord (stream.word stream.used)) := by
  rw [run_draw (spec_of_build run).1]
  rfl

/-- Only an index of the table is hit. -/
theorem lt_size_of_hits (hits : table.Hits word index) : index < table.size := by
  by_contra outside
  have below := hits.2
  rw [sumBefore_of_outside (Nat.not_lt.mp outside),
    (pointOfWord_spec run word).1.lt_iff (Binary.isAmount_of_magnitude rfl)] at below
  exact Nat.not_lt_zero _ below

/-- A word hits one index. -/
theorem hits_unique {other : Nat} (hits : table.Hits word index) (hits' : table.Hits word other) :
    index = other := by
  have apart : ∀ {earlier later : Nat}, table.Hits word earlier → table.Hits word later →
      ¬earlier < later := by
    intro earlier later first second order
    obtain ⟨point, -, -⟩ := pointOfWord_spec run word
    have mono := magnitude_mono_of_build run (Nat.succ_le_of_lt order)
      (Nat.le_of_lt (lt_size_of_hits run second))
    have below := (point.lt_iff (isBetween_of_build run _).isAmount).mp first.2
    exact second.1 ((point.lt_iff (isBetween_of_build run _).isAmount).mpr
      (Nat.lt_of_lt_of_le below mono))
  exact Nat.le_antisymm (Nat.not_lt.mp (apart hits' hits)) (Nat.not_lt.mp (apart hits hits'))

/-- A draw gives the index that its word hits. -/
theorem draw_eq_iff (stream : WordStream) :
    (table.draw.run stream).1 = index ↔ table.Hits (stream.word stream.used) index := by
  obtain ⟨some, -⟩ := spec_of_build run
  obtain ⟨point, -, below⟩ := pointOfWord_spec run (stream.word stream.used)
  have nothing : (sumBefore table.sums 0).magnitude = 0 := rfl
  have start : ¬table.pointOfWord (stream.word stream.used) < sumBefore table.sums 0 := by
    rw [point.lt_iff (Binary.isAmount_of_magnitude nothing), nothing]
    exact Nat.not_lt_zero _
  have hits : table.Hits (stream.word stream.used) (table.draw.run stream).1 := by
    rw [value_draw run]
    exact firstAbove_spec (size_pos some) (Nat.le_refl _) start
      ((point.lt_iff (isBetween_of_build run _).isAmount).mpr below)
  exact ⟨fun same => same ▸ hits, fun other => hits_unique run hits other⟩

/-- An index is hit when the sums go up at it by two parts of the total, where there are as many
parts as words have fractions. -/
theorem exists_hits (apart : (sumBefore table.sums index).units * 2 ^ 52 +
      (sumBefore table.sums table.size).units ≤ (sumBefore table.sums (index + 1)).units * 2 ^ 52) :
    ∃ word, table.Hits word index := by
  have before := isBetween_of_build run index
  have after := isBetween_of_build run (index + 1)
  have total : 0 < (sumBefore table.sums table.size).units :=
    Binary.units_pos_iff.mpr ((isBetween_of_build run _).isAmount.pos_iff.mp (spec_of_build run).1)
  have something : 0 < (sumBefore table.sums (index + 1)).units := by
    refine Nat.pos_of_ne_zero fun nothing => ?_
    rw [nothing, Nat.zero_mul] at apart
    omega
  have inside : index < table.size := by
    by_contra outside
    rw [sumBefore_of_outside (Nat.not_lt.mp outside)] at something
    exact absurd something (by decide)
  have normal : 2 ^ 52 ≤ (sumBefore table.sums (index + 1)).magnitude :=
    Nat.le_trans (by decide) (after.low (Binary.units_pos_iff.mp something))
  have finite := of_decide_eq_true (Binary.isFinite_of_le_mostSum after.high)
  have most : (sumBefore table.sums (index + 1)).units ≤ (sumBefore table.sums table.size).units :=
    Format.units_mono (magnitude_mono_of_build run inside (Nat.le_refl _))
  obtain ⟨part, small, least, below⟩ := @Format.exists_round_mem .double (by decide)
    (sumBefore table.sums index).magnitude (sumBefore table.sums (index + 1)).magnitude _ _
    Format.double.leastFraction_pos normal (Nat.le_of_lt finite) most apart
  obtain ⟨word, rfl⟩ := exists_word small
  obtain ⟨point, magnitude, -⟩ := pointOfWord_spec run word
  refine ⟨word, ?_, ?_⟩
  · rw [point.lt_iff before.isAmount, magnitude]
    exact Nat.not_lt.mpr least
  · rw [point.lt_iff after.isAmount, magnitude]
    exact below

/-- No word hits an index that has something before it, when the sum after it is at most one part of
the total. -/
theorem not_hits (some : 0 < sumBefore table.sums index)
    (low : (sumBefore table.sums (index + 1)).units * 2 ^ 53 ≤
      (sumBefore table.sums table.size).units) (word : UInt64) :
    ¬table.Hits word index := by
  rintro ⟨least, below⟩
  have before := (isBetween_of_build run index).isAmount
  have after := isBetween_of_build run (index + 1)
  obtain ⟨point, magnitude, -⟩ := pointOfWord_spec run word
  rw [point.lt_iff before] at least
  rw [point.lt_iff after.isAmount] at below
  rcases Nat.eq_zero_or_pos (word.toNat >>> 11) with none | fraction
  · -- The fraction zero is a point before all sums.
    have denominator := Nat.mul_pos (Nat.two_pow_pos 53) Format.double.leastFraction_pos
    rw [magnitude, none, Nat.zero_mul, Nat.zero_mul, Format.round_zero _ denominator] at least
    exact least (before.pos_iff.mp some)
  · -- Any other one is at least a part of the total.
    refine Nat.not_le_of_lt below ?_
    have total := isBetween_of_build run table.size
    have finite := of_decide_eq_true (Binary.isFinite_of_le_mostSum total.high)
    have denominator := Nat.mul_pos (Nat.two_pow_pos 53) Format.double.leastFraction_pos
    rw [magnitude]
    refine (Format.round_mem_of_mem (by decide) denominator (Nat.le_of_lt finite) ?_ ?_).1
    · rw [← Nat.mul_assoc, Nat.mul_right_comm (word.toNat >>> 11)]
      exact Nat.mul_le_mul_right _ (Nat.le_trans low (Nat.le_mul_of_pos_left _ fraction))
    · have small := Nat.le_of_lt (WordStream.fraction_lt word)
      rw [Nat.mul_right_comm, Nat.mul_comm _ (2 ^ 53 * _), Nat.mul_right_comm]
      exact Nat.mul_le_mul_right _ (Nat.mul_le_mul_right _ small)

/-- The sums go up at an index that is hit. -/
theorem isReachable_of_hits (hits : table.Hits word index) : table.isReachable index = true := by
  obtain ⟨point, -, -⟩ := pointOfWord_spec run word
  have before := (isBetween_of_build run index).isAmount
  have after := (isBetween_of_build run (index + 1)).isAmount
  have inside := lt_size_of_hits run hits
  obtain ⟨least, below⟩ := hits
  rw [point.lt_iff before, Nat.not_lt] at least
  rw [point.lt_iff after] at below
  have rises := (before.lt_iff after).mpr (Nat.lt_of_le_of_lt least below)
  exact Bool.and_eq_true_iff.mpr ⟨decide_eq_true inside, decide_eq_true rises⟩

end Built

end Kernel.PrefixSums

/-! ## Samples -/

namespace NegativePools

variable {pools : NegativePools} {ns : NamespaceId} {candidates excluded drawn : List NodeId}
  {kernel : Kernel} {node : NodeId} {count : Nat}

/-- When every draw takes a word, and fewer nodes are drawn that are not excluded than are asked
for, collecting spends its budget. -/
theorem collect_spends {draw : Attempt NodeId} (draws : ∀ stream, ∃ next,
      runFrom draw stream = (.ok next, { stream with used := stream.used + 1 }) ∧
        (next ∉ excluded → next ∈ drawn))
    (few : drawn.length < count) {budget : Nat} {found : List NodeId} (distinct : found.Nodup)
    (inside : found ⊆ drawn) (stream : WordStream) :
    ∃ sample, sample.length < count ∧
      runFrom (collect draw count excluded budget found) stream =
        (.ok sample, { stream with used := stream.used + budget }) := by
  induction budget generalizing found stream with
  | zero =>
      have small := (List.subperm_of_subset distinct inside).length_le
      exact ⟨found, Nat.lt_of_le_of_lt small few, rfl⟩
  | succ budget ih =>
      obtain ⟨next, run, listed⟩ := draws stream
      have taken : stream.used + (budget + 1) = stream.used + 1 + budget := by omega
      rw [runFrom_collect_of_ok run, taken]
      split
      · exact ih distinct inside { stream with used := stream.used + 1 }
      · next fresh =>
        have apart : next ∉ excluded ∧ next ∉ found := by simpa using fresh
        have distinct' : (found ++ [next]).Nodup := by
          simpa using List.Nodup.concat apart.2 distinct
        have inside' : found ++ [next] ⊆ drawn :=
          List.append_subset.mpr ⟨inside, List.cons_subset.mpr ⟨listed apart.1, List.nil_subset _⟩⟩
        have small : found.length + 1 ≤ drawn.length := by
          simpa using (List.subperm_of_subset distinct' inside').length_le
        rw [if_neg (Nat.ne_of_lt (Nat.lt_of_le_of_lt small few))]
        exact ih distinct' inside' { stream with used := stream.used + 1 }

/-- A sample of candidates that are left is not refused. When fewer of them are drawn than are asked
for, it spends its budget of draws. -/
theorem IsPool.sampleFor_spends (isPool : pools.IsPool ns candidates kernel)
    (own : namespaceOf node = ns)
    (takes : ∀ stream, (kernel.draw.run stream).2 = { stream with used := stream.used + 1 })
    (covers : ∀ stream candidate, candidates[(kernel.draw.run stream).1]? = some candidate →
      candidate ∉ excluded → candidate ∈ drawn)
    (few : drawn.length < count) (enough : count ≤ (pools.admissible ns excluded).length)
    (stream : WordStream) :
    ∃ found < count, runFrom (pools.sampleFor count excluded node) stream =
      (.error (.drawsExhausted ns found count (drawBudget count)),
        { stream with used := stream.used + drawBudget count }) := by
  have some : 0 < count := Nat.zero_lt_of_lt few
  have draws : ∀ stream, ∃ next, runFrom (pools.draw node) stream =
      (.ok next, { stream with used := stream.used + 1 }) ∧ (next ∉ excluded → next ∈ drawn) := by
    intro stream
    have inside := isPool.inside stream
    have there := List.getElem?_eq_getElem inside
    refine ⟨candidates[(kernel.draw.run stream).1], ?_, covers stream _ there⟩
    rw [isPool.run_draw node own, takes, List.getD_eq_getElem?_getD, there]
    rfl
  obtain ⟨found, short, collected⟩ := @collect_spends excluded drawn count _ draws few
    (drawBudget count) [] List.nodup_nil (List.nil_subset _) stream
  have fits := isPool.count_le_listLimit enough
  refine ⟨found.length, short, ?_⟩
  rw [isPool.runFrom_sampleFor own some, if_neg fun both => Nat.not_le_of_lt both.1 enough,
    if_neg (Nat.not_lt.mpr fits), runFrom_bind_of_ok collected, if_neg (Nat.ne_of_lt short)]
  rfl

end NegativePools

namespace Kernel.PrefixSums

/-- **Words that draw an index.** A table over accepted weights draws, whatever the stream, exactly
the index that the next word hits, and an index that is hit is reachable. Some word hits an index
when the sums go up at it by a part of the total or more, of which there are `2 ^ 52`. No word hits
an index that has something before it and up to which the sums are at most a part, of which there
are `2 ^ 53`. When a pool draws by such a table, and fewer of its candidates that are not excluded
are hit than are asked for, while as many count as drawable, then every sample spends its budget of
draws and fails. -/
theorem draw_iff_hits {weights : List Single} {table : PrefixSums}
    (run : PrefixSums.build weights = .ok table) :
    (∀ stream index, (table.draw.run stream).1 = index ↔
      table.Hits (stream.word stream.used) index) ∧
    (∀ word index, table.Hits word index → table.isReachable index = true) ∧
    (∀ index, (sumBefore table.sums index).units * 2 ^ 52 +
          (sumBefore table.sums table.size).units ≤
        (sumBefore table.sums (index + 1)).units * 2 ^ 52 →
      ∃ word, table.Hits word index) ∧
    (∀ index, 0 < sumBefore table.sums index →
        (sumBefore table.sums (index + 1)).units * 2 ^ 53 ≤
          (sumBefore table.sums table.size).units →
      ∀ word, ¬table.Hits word index) ∧
    ∀ (pools : NegativePools) (ns : NamespaceId) (candidates excluded drawn : List NodeId)
      (node : NodeId) (count : Nat), pools.IsPool ns candidates (.prefixSum table) →
      namespaceOf node = ns →
      (∀ word index candidate, table.Hits word index → candidates[index]? = some candidate →
        candidate ∉ excluded → candidate ∈ drawn) →
      drawn.length < count → count ≤ (pools.admissible ns excluded).length →
      ∀ stream, ∃ found < count, runFrom (pools.sampleFor count excluded node) stream =
        (.error (.drawsExhausted ns found count (NegativePools.drawBudget count)),
          { stream with used := stream.used + NegativePools.drawBudget count }) := by
  refine ⟨fun stream index => draw_eq_iff run stream, fun word index => isReachable_of_hits run,
    fun index => exists_hits run, fun index => not_hits run,
    fun pools ns candidates excluded drawn node count isPool own covers => ?_⟩
  refine isPool.sampleFor_spends own (fun stream => ?_) fun stream candidate there => ?_
  · change (table.draw.run stream).2 = _
    rw [run_draw (spec_of_build run).1]
    rfl
  · exact covers (stream.word stream.used) _ candidate ((draw_eq_iff run stream).mp rfl) there

/-- Two weights that are nothing beside a third one. -/
def tinyWeights : List Single := [.ofDyadic 1 60, .ofDyadic 1 60, .ofNat 1]

def tinySums : PrefixSums := ⟨prefixSums (tinyWeights.map Single.widen)⟩

theorem build_tiny : build tinyWeights = .ok tinySums :=
  except_toOption_eq_some.mp (by decide +kernel)

/-- Three nodes that are drawn with these weights. -/
def tinyPools : NegativePools where
  source := ⟨.single, [[0, 1, 2]], [tinyWeights], .ok [], fun _ => none⟩
  kind := .prefixSum
  tables := [some (.prefixSum tinySums)]

theorem isPool_tiny : tinyPools.IsPool 0 [0, 1, 2] (.prefixSum tinySums) := by
  have made : Kernel.build .prefixSum tinyWeights = .ok (.prefixSum tinySums) := by
    rw [Kernel.build, build_tiny]
    rfl
  -- Deciding this statement itself would go through all node identifiers.
  have slotted : ∀ node ∈ [(0 : NodeId), 1, 2], namespaceOf node = 0 := by
    have tested : [(0 : NodeId), 1, 2].all (fun node => decide (namespaceOf node = 0)) = true := by
      decide +kernel
    exact fun node member => of_decide_eq_true (List.all_eq_true.mp tested node member)
  exact NegativePools.isPool_of_table (by decide +kernel) (by decide) slotted (by decide +kernel)
    made (by decide)

/-- The last of these weights is hit, and the middle one by no word. So a sample of all three nodes
is not refused, but spends its budget. -/
theorem draw_iff_hits_tiny :
    build tinyWeights = .ok tinySums ∧ (∃ word, tinySums.Hits word 2) ∧
    (∀ word, ¬tinySums.Hits word 1) ∧ tinyPools.IsPool 0 [0, 1, 2] (.prefixSum tinySums) ∧
    3 ≤ (tinyPools.admissible 0 []).length ∧
    ∀ stream, ∃ found < 3, runFrom (tinyPools.sampleFor 3 [] 0) stream =
      (.error (.drawsExhausted 0 found 3 300000),
        { stream with used := stream.used + 300000 }) := by
  obtain ⟨-, -, hit, unhit, spends⟩ := draw_iff_hits build_tiny
  have none := unhit 1 (by decide +kernel) (by decide +kernel)
  have enough : 3 ≤ (tinyPools.admissible 0 []).length := by decide +kernel
  refine ⟨build_tiny, hit 2 (by decide +kernel), none, isPool_tiny, enough, ?_⟩
  refine spends tinyPools 0 [0, 1, 2] [] [0, 2] 0 3 isPool_tiny (by decide) ?_ (by decide) enough
  intro word index candidate hits there _
  rcases index with _ | _ | _ | index
  · exact Option.some.inj there ▸ List.mem_cons_self
  · exact absurd hits (none word)
  · exact Option.some.inj there ▸ List.mem_cons_of_mem _ List.mem_cons_self
  · cases there

/-- The sums go up at the middle one of these weights, so it is reachable and counted. No stream
gives it. -/
theorem unhit_tiny :
    build tinyWeights = .ok tinySums ∧ tinySums.isReachable 1 = true ∧ tinySums.support = 3 ∧
    ∀ stream, (tinySums.draw.run stream).1 ≠ 1 := by
  refine ⟨build_tiny, by decide +kernel, by decide +kernel, fun stream drawn => ?_⟩
  have hits := (draw_eq_iff build_tiny stream).mp drawn
  exact not_hits build_tiny (by decide +kernel) (by decide +kernel) _ hits

end Kernel.PrefixSums

end ShardedGraph
