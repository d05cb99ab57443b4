import ShardedGraph.Cluster.Connect
import ShardedGraph.Proofs.Amounts
import ShardedGraph.Proofs.Built
import ShardedGraph.Proofs.Messages
import ShardedGraph.Proofs.Numerals

/-!
# What shards report

A client that connects asks every shard for two texts. The first is a page size, the second holds
the totals of all namespace slots between commas.

**Reading.** The texts of a built partition are read as its page size and its totals
(`Partition.IsBuilt.readPageSize_eq`, `Partition.IsBuilt.readTotals_eq`), and the table that spreads
a slot over the shards is built exactly when some shard has nodes of it, unless there are more
shards than a table can number (`shareOf_splits`).
-/

set_option autoImplicit false

namespace ShardedGraph

open Number

/-! ## Texts -/

namespace Text

variable {separator : Char}

theorem separated_of_not_mem {part : List Char} (absent : separator ∉ part) :
    separated separator part = [part] := by
  induction part with
  | nil => rfl
  | cons first rest ih =>
      obtain ⟨differs, absent⟩ := not_or.mp (mt List.mem_cons.mpr absent)
      rw [separated] at ih ⊢
      rw [List.foldr_cons, ih absent, if_neg (by simpa using Ne.symm differs)]

theorem separated_append {part : List Char} (absent : separator ∉ part) (rest : List Char) :
    separated separator (part ++ separator :: rest) = part :: separated separator rest := by
  induction part with
  | nil => rw [List.nil_append, separated, List.foldr_cons, if_pos (beq_self_eq_true _)]; rfl
  | cons first others ih =>
      obtain ⟨differs, absent⟩ := not_or.mp (mt List.mem_cons.mpr absent)
      have tail := ih absent
      rw [separated] at tail
      rw [List.cons_append, separated, List.foldr_cons, tail, if_neg (by simpa using Ne.symm differs)]

/-- Parts without separators are found between separators. -/
theorem separated_intercalate {parts : List (List Char)} (some : parts ≠ [])
    (absent : ∀ part ∈ parts, separator ∉ part) :
    separated separator ([separator].intercalate parts) = parts := by
  induction parts with
  | nil => exact absurd rfl some
  | cons first parts ih =>
      obtain ⟨clean, others⟩ := List.forall_mem_cons.mp absent
      cases parts with
      | nil => rw [List.intercalate_singleton, separated_of_not_mem clean]
      | cons second parts =>
          rw [List.intercalate_cons_cons, List.append_assoc, List.singleton_append,
            separated_append clean, ih (List.cons_ne_nil _ _) others]

/-- A text with separators is as long as its parts, with one separator for each. -/
theorem length_intercalate_le (separator : Char) {parts : List (List Char)} {limit : Nat}
    (short : ∀ part ∈ parts, part.length ≤ limit) :
    ([separator].intercalate parts).length ≤ parts.length * (limit + 1) := by
  induction parts with
  | nil => exact Nat.zero_le _
  | cons first parts ih =>
      obtain ⟨first, others⟩ := List.forall_mem_cons.mp short
      have rest := ih others
      cases parts with
      | nil =>
          rw [List.intercalate_singleton, List.length_singleton, Nat.one_mul]
          exact Nat.le_succ_of_le first
      | cons second parts =>
          rw [List.intercalate_cons_cons, List.length_append, List.length_append,
            List.length_singleton, List.length_cons, Nat.succ_mul]
          omega

end Text

/-- A table is built over weights one of which is something, unless there are too many. -/
theorem Kernel.AliasTable.build_splits {weights : List Single}
    (all : ∀ weight ∈ weights, isWeight weight = true) (some : ∃ weight ∈ weights, 0 < weight) :
    (∃ table, build weights = .ok table) ∨
      UInt32.size ≤ weights.length ∧
        build weights = .error (.tableTooLarge .aliased weights.length) := by
  obtain ⟨heavy, member, positive⟩ := some
  have checked : checkWeights .aliased weights = .ok () := by
    have bad : weights.find? (fun weight => !isWeight weight) = none :=
      List.find?_eq_none.mpr fun weight among => by simp [all weight among]
    rw [checkWeights, if_neg (by simpa using List.ne_nil_of_mem member), bad]
  have wide : 0 < total (weights.map Single.widen) := by
    refine (Binary.pos_total_iff (by decide) fun wide among => ?_).mpr
      ⟨_, List.mem_map_of_mem member, (pos_widen_iff (all heavy member)).mpr positive⟩
    obtain ⟨weight, among', rfl⟩ := List.mem_map.mp among
    exact isAmount_widen (all weight among')
  rw [build, checked, checkSize]
  by_cases many : UInt32.size ≤ weights.length
  · rw [if_pos many]
    exact .inr ⟨many, rfl⟩
  · rw [if_neg many]
    exact .inl ⟨_, if_pos wide⟩

/-- A slot is spread over the shards when some shard has a part of it, unless there are too many
shards for that. -/
theorem shareOf_splits {reports : List (List Double)} {slot : Nat}
    (all : ∀ report ∈ reports, Kernel.isWeight (report.getD slot 0).narrow = true) :
    (∃ share, shareOf reports slot = .ok share ∧
      (share.isSome = true ↔ ∃ report ∈ reports, 0 < (report.getD slot 0).narrow)) ∨
    UInt32.size ≤ reports.length ∧ (∃ report ∈ reports, 0 < (report.getD slot 0).narrow) ∧
      shareOf reports slot = .error (.tableTooLarge .aliased reports.length) := by
  have weights : ∀ weight ∈ reports.map fun report => (report.getD slot 0).narrow,
      Kernel.isWeight weight = true := by
    intro weight member
    obtain ⟨report, among, rfl⟩ := List.mem_map.mp member
    exact all report among
  have positive := Binary.pos_total_iff (by decide) fun weight member =>
    isAmount_of_isWeight (weights weight member)
  have same : (∃ weight ∈ reports.map (fun report => (report.getD slot 0).narrow), 0 < weight) ↔
      ∃ report ∈ reports, 0 < (report.getD slot 0).narrow := by simp
  rw [shareOf]
  split
  · next some =>
    have heavy := positive.mp some
    rcases Kernel.AliasTable.build_splits weights heavy with ⟨table, built⟩ | ⟨many, refused⟩
    · exact .inl ⟨_, congrArg (Option.some <$> ·) built, iff_of_true rfl (same.mp heavy)⟩
    · rw [List.length_map] at many refused
      exact .inr ⟨many, same.mp heavy, congrArg (Option.some <$> ·) refused⟩
  · next nothing =>
    exact .inl ⟨none, rfl, iff_of_false Bool.false_ne_true fun heavy =>
      nothing (positive.mpr (same.mpr heavy))⟩

/-! ## Totals -/

namespace Number

/-- What lies between one and the power of two stays there when it is made shorter. -/
theorem magnitude_narrow_mem {x : Double} (low : 1023 * 2 ^ 52 ≤ x.magnitude)
    (high : x.magnitude ≤ 1150 * 2 ^ 52) :
    (Double.narrow x).negative = x.negative ∧ 127 * 2 ^ 23 ≤ (Double.narrow x).magnitude ∧
      (Double.narrow x).magnitude ≤ 254 * 2 ^ 23 := by
  have below : x.magnitude < Format.double.infinity := Nat.lt_of_le_of_lt high (by decide)
  have number : x.isNaN = false := decide_eq_false (by omega)
  have bounded : x.isInfinite = false := decide_eq_false (by omega)
  have least := @Format.units_mono Format.double _ _ low
  have most := @Format.units_mono Format.double _ _ high
  rw [Format.units_double_one] at least
  rw [Format.units_double_bound] at most
  have bottom := Format.units_single_one
  have top := Format.units_single_bound
  have room : 254 * 2 ^ 23 ≤ Format.single.infinity := by decide
  rw [Double.narrow, Binary.convert, number, bounded, if_neg Bool.false_ne_true,
    if_neg Bool.false_ne_true]
  -- From here on the scales of the formats are just numbers.
  generalize Format.double.unitExponent = wide, Format.single.unitExponent = short at *
  refine ⟨rfl, Format.round_mem_of_mem (by decide) (Nat.two_pow_pos wide) room ?_ ?_⟩
  · rw [bottom, Nat.shiftLeft_eq, Nat.mul_comm]
    exact Nat.mul_le_mul_right _ least
  · rw [top, Nat.shiftLeft_eq, Nat.mul_right_comm]
    exact Nat.mul_le_mul_right _ most

end Number

namespace Graph

/-- The total of a count that is not too large. -/
structure IsTotal (count : Nat) (total : Double) : Prop where
  finite : total.isFinite = true
  positive : 0 < total ↔ 0 < count
  isWeight : Kernel.isWeight (Double.narrow total) = true
  positive_narrow : 0 < Double.narrow total ↔ 0 < count

theorem isTotal_totalOf {count : Nat} (small : count ≤ 2 ^ 127) :
    IsTotal count (totalOf count) := by
  rcases Nat.eq_zero_or_pos count with rfl | some
  · exact ⟨rfl, by decide +kernel, by decide +kernel, by decide +kernel⟩
  have same : totalOf count = .ofNat count := if_neg (Nat.ne_of_gt some)
  obtain ⟨low, high⟩ := magnitude_ofNat_mem some small
  obtain ⟨sign, low', high'⟩ := magnitude_narrow_mem low high
  have positive : ∀ {format : Format} {x : Binary format}, x.negative = false →
      0 < x.magnitude → x.magnitude < format.infinity → 0 < x ∧ ¬x < 0 := by
    intro format x sign some below
    have number : x.isNaN = false := decide_eq_false (by omega)
    have zero : (0 : Binary format).isNaN = false := decide_eq_false (Nat.not_lt_zero _)
    have rank : x.rank = x.magnitude := by rw [Binary.rank, sign]; rfl
    have nothing : (0 : Binary format).rank = 0 := rfl
    change Binary.lt 0 x = true ∧ ¬Binary.lt x 0 = true
    simp only [Binary.lt, number, zero, rank, nothing]
    simp only [Bool.not_false, Bool.true_and, decide_eq_true_iff]
    omega
  have below : (Binary.ofNat count : Double).magnitude < Format.double.infinity :=
    Nat.lt_of_le_of_lt high (by decide)
  have below' : (Double.narrow (.ofNat count)).magnitude < Format.single.infinity :=
    Nat.lt_of_le_of_lt high' (by decide)
  have heavy := positive rfl (Nat.lt_of_lt_of_le (by decide) low) below
  have heavy' := positive sign (Nat.lt_of_lt_of_le (by decide) low') below'
  rw [same]
  refine ⟨decide_eq_true below, iff_of_true heavy.1 some, ?_, iff_of_true heavy'.1 some⟩
  rw [Kernel.isWeight, Binary.isFinite, decide_eq_true below', decide_eq_false heavy'.2]
  rfl

end Graph

/-! ## The texts of a shard -/

/-- A character takes at most four octets. -/
theorem Text.length_writeUtf8_le (value : String) :
    (writeUtf8 value).length ≤ 4 * value.toList.length := by
  have size : ∀ text : List Char, (String.ofList text).utf8ByteSize ≤ 4 * text.length := by
    intro text
    induction text with
    | nil => exact Nat.le_refl _
    | cons first text ih =>
        have one := first.utf8Size_le_four
        rw [String.ofList_cons, String.utf8ByteSize_append, String.utf8ByteSize_singleton,
          List.length_cons]
        omega
  have whole := size value.toList
  rwa [String.ofList_toList] at whole

/-- Numbers whose texts are read as they are, are read one by one. -/
theorem mapM_read?_text {numbers : List Double}
    (finite : ∀ number ∈ numbers, number.isFinite = true) :
    ((numbers.map fun number => number.text.toList).mapM fun part =>
      (Binary.read? part : Option Double)) = some numbers := by
  induction numbers with
  | nil => rfl
  | cons first numbers ih =>
      obtain ⟨here, others⟩ := List.forall_mem_cons.mp finite
      rw [List.map_cons, List.mapM_cons, Binary.read?_text (by decide) (Binary.isNaN_of_isFinite here),
        ih others]
      rfl

theorem Partition.toList_totalsText (partition : Partition) : partition.totalsText.toList =
    [','].intercalate (partition.graph.totals.map fun total => total.text.toList) := by
  rw [totalsText, String.toList_intercalate, List.map_map]
  rfl

namespace Partition.IsBuilt

variable {partition : Partition} (built : partition.IsBuilt)

include built

/-- The totals of a partition are those of its slots, and none is too large. -/
theorem isTotal (slot : Nat) : Graph.IsTotal (partition.graph.occurrencesIn slot)
    (Graph.totalOf (partition.graph.occurrencesIn slot)) :=
  Graph.isTotal_totalOf (built.occurrencesIn_le slot)

theorem isFinite_of_mem_totals {total : Double} (member : total ∈ partition.graph.totals) :
    total.isFinite = true := by
  rw [built.totals_eq] at member
  obtain ⟨slot, -, rfl⟩ := List.mem_map.mp member
  exact (built.isTotal slot).finite

/-- The page size is read as it is. -/
theorem readPageSize_eq (shard : Nat) :
    readPageSize shard (toString partition.pageSize) = .ok partition.pageSize.toNat := by
  have digits : (toString partition.pageSize).toList = Nat.toDigits 10 partition.pageSize.toNat :=
    Nat.toList_repr
  have trimmed : Text.trim (Nat.toDigits 10 partition.pageSize.toNat) =
      Nat.toDigits 10 partition.pageSize.toNat :=
    Text.trim_of_not_blank fun c member => Text.isBlank_of_isDigit (isDigit_of_mem_toDigits member)
  rw [readPageSize, digits, trimmed, readNat?_toDigits partition.pageSize.toNat_lt]
  exact if_neg (Nat.ne_of_gt built.pageSize_pos)

/-- The text of a total has neither commas nor blanks. -/
theorem plain_of_mem_totals {total : Double} (member : total ∈ partition.graph.totals) :
    ',' ∉ total.text.toList ∧ (∀ c ∈ total.text.toList, Text.isBlank c = false) ∧
      total.text.toList ≠ [] := by
  have finite := built.isFinite_of_mem_totals member
  have wide : 0 < Format.double.fractionBits := by decide
  refine ⟨fun comma => ?_, fun c among => ?_, Binary.text_ne_nil wide finite⟩
  · rcases Binary.mem_text wide finite comma with digit | point | minus
    · cases digit
    · cases point
    · cases minus
  · rcases Binary.mem_text wide finite among with digit | rfl | rfl
    · exact Text.isBlank_of_isDigit digit
    · rfl
    · rfl

/-- The totals are read as they are. -/
theorem readTotals_eq (shard : Nat) :
    readTotals shard partition.totalsText = .ok partition.graph.totals := by
  have some : partition.graph.totals ≠ [] := by
    rw [built.totals_eq]
    have slots := built.slots_mem.1
    simp [List.range_eq_nil, Nat.ne_of_gt slots]
  have parts : Text.separated ',' partition.totalsText.toList =
      partition.graph.totals.map fun total => total.text.toList := by
    rw [partition.toList_totalsText]
    refine Text.separated_intercalate (by simpa using some) fun part member => ?_
    obtain ⟨total, among, rfl⟩ := List.mem_map.mp member
    exact (built.plain_of_mem_totals among).1
  have trimmed : (partition.graph.totals.map fun total => total.text.toList).map Text.trim =
      partition.graph.totals.map fun total => total.text.toList := by
    rw [List.map_map]
    exact List.map_congr_left fun total among =>
      Text.trim_of_not_blank (built.plain_of_mem_totals among).2.1
  have kept : (partition.graph.totals.map fun total => total.text.toList).filter
      (fun part => !part.isEmpty) = partition.graph.totals.map fun total => total.text.toList := by
    refine List.filter_eq_self.mpr fun part member => ?_
    obtain ⟨total, among, rfl⟩ := List.mem_map.mp member
    simpa using (built.plain_of_mem_totals among).2.2
  rw [readTotals, parts, trimmed, kept,
    mapM_read?_text fun total among => built.isFinite_of_mem_totals among]

/-- The texts of a partition are not too long to be sent. -/
theorem length_metaValue {key value : String} (run : partition.metaValue key = .ok value) :
    (Text.writeUtf8 value).length < UInt64.size := by
  have octets := Text.length_writeUtf8_le value
  unfold metaValue at run
  split at run
  · cases run
    have short : partition.totalsText.toList.length ≤
        partition.graph.totals.length * (Binary.textLimit .double + 1) := by
      rw [partition.toList_totalsText]
      refine Nat.le_trans (Text.length_intercalate_le ',' fun part member => ?_)
        (Nat.le_of_eq (by rw [List.length_map]))
      obtain ⟨total, among, rfl⟩ := List.mem_map.mp member
      exact Binary.length_text_le (built.isFinite_of_mem_totals among)
    have limit : Binary.textLimit .double + 1 ≤ 20000 := by decide
    have slots := built.slots_mem.2
    rw [built.totals_eq, List.length_map, List.length_range] at short
    have most := Nat.mul_le_mul slots limit
    have room : 4 * (UInt16.size * 20000) < UInt64.size := by decide
    omega
  · split at run
    · cases run
      have digits : (toString partition.pageSize).toList.length ≤ 20 := by
        change (Nat.repr partition.pageSize.toNat).toList.length ≤ 20
        rw [Nat.toList_repr, Nat.length_toDigits_le_iff (by decide) (by decide)]
        exact Nat.lt_trans partition.pageSize.toNat_lt (by decide)
      have room : 4 * 20 < UInt64.size := by decide
      omega
    · cases run

end Partition.IsBuilt

end ShardedGraph
