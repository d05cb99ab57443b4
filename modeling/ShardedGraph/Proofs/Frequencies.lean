import ShardedGraph.Proofs.Representation
import ShardedGraph.Source

/-!
# What a frequency table holds

A frequency table fits its namespaces when it has a list of nodes and a list of frequencies for each
slot, which go together, and every node stands once, in the slot of its namespace
(`FrequencyTable.Fits`). Lists are accepted exactly when they fit (`FrequencyTable.ofLists_eq_ok_iff`).

**Counts.** A table of counts adds up what is given for each node, in order and from zero on
(`FrequencyTable.sumOf`). While counts are read, what is stored for a node and what is still to come
for it add up to the same sum (`FrequencyTable.foldl_addOn`). Its lists are parts of one ascending
list of nodes, cut by namespace, so they always fit (`FrequencyTable.fits_ofStored`), and the only
counts that are refused are those of nodes whose namespace has no name. Numbers between the named ones
give slots that stay empty.
-/

set_option autoImplicit false

namespace ShardedGraph.FrequencyTable

open Number

/-- A table whose lists go together: one of each kind for every slot, equally long, with no node twice
and every node in the slot of its namespace. -/
structure Fits (table : FrequencyTable) : Prop where
  slots : table.nodes.length = table.namespaces.slots
  parallel : List.Forall₂ (fun nodes frequencies => nodes.length = frequencies.length)
    table.nodes table.frequencies
  distinct : table.nodes.flatten.Nodup
  slotted : ∀ (slot : Nat) nodes, table.nodes[slot]? = some nodes →
    ∀ node ∈ nodes, (namespaceOf node).toNat = slot

/-- The frequencies that are given for a node, added up in order. -/
def sumOf (counts : List (NodeId × Single)) (node : NodeId) : Single :=
  (weightsOf counts node).foldl (· + ·) 0

/-- A table of counts: it lists the nodes that are given and no others, strictly ascending in every
slot, each with the sum of its frequencies. -/
structure Tallies (table : FrequencyTable) (namespaces : NamespaceTable)
    (counts : List (NodeId × Single)) : Prop where
  namespaces : table.namespaces = namespaces
  mem : ∀ node, node ∈ table.nodes.flatten ↔ node ∈ counts.map Prod.fst
  ascending : ∀ nodes ∈ table.nodes, nodes.Pairwise (· < ·)
  frequencies : table.frequencies = table.nodes.map fun nodes => nodes.map (sumOf counts)

/-! ## Lists that are accepted -/

section Lists

variable {namespaces : NamespaceTable} {nodes : List (List NodeId)}
  {frequencies : List (List Single)} {table : FrequencyTable}

/-- Nodes are accepted when they are in their slot, are new, and come once. -/
theorem checkNodes_eq_ok_iff {slot : Nat} {seen listed : List NodeId} :
    checkNodes slot seen listed = .ok () ↔
      listed.Nodup ∧ (∀ node ∈ listed, node ∉ seen) ∧
        ∀ node ∈ listed, (namespaceOf node).toNat = slot := by
  induction listed generalizing seen with
  | nil => simp [checkNodes]
  | cons node listed ih =>
      rw [checkNodes]
      split
      · next foreign =>
        exact iff_of_false (fun run => nomatch run) fun spec =>
          foreign (spec.2.2 node List.mem_cons_self)
      · next own =>
        split
        · next again =>
          refine iff_of_false (fun run => nomatch run) fun spec => ?_
          exact spec.2.1 node List.mem_cons_self (List.contains_iff_mem.mp again)
        · next fresh =>
          have fresh : node ∉ seen := fun member => fresh (List.contains_iff_mem.mpr member)
          rw [ih, List.nodup_cons]
          constructor
          · rintro ⟨distinct, apart, slotted⟩
            refine ⟨⟨fun again => apart node again List.mem_cons_self, distinct⟩, ?_, ?_⟩
            · exact List.forall_mem_cons.mpr ⟨fresh, fun other member known =>
                apart other member (List.mem_cons_of_mem node known)⟩
            · exact List.forall_mem_cons.mpr ⟨not_not.mp own, slotted⟩
          · rintro ⟨⟨once, distinct⟩, apart, slotted⟩
            refine ⟨distinct, fun other member known => ?_, (List.forall_mem_cons.mp slotted).2⟩
            rcases List.mem_cons.mp known with rfl | known
            · exact once member
            · exact apart other (List.mem_cons_of_mem node member) known

theorem forM_eq_ok_iff {α : Type} {check : α → Except Error Unit} {items : List α} :
    items.forM check = .ok () ↔ ∀ item ∈ items, check item = .ok () := by
  induction items with
  | nil => exact iff_of_true rfl (by simp)
  | cons item items ih =>
      change (check item >>= fun _ => items.forM check) = _ ↔ _
      rw [except_bind_eq_ok, List.forall_mem_cons, ← ih]
      exact ⟨fun ⟨⟨⟩, first, others⟩ => ⟨first, others⟩, fun ⟨first, others⟩ => ⟨(), first, others⟩⟩

/-- A slot is accepted when it has as many frequencies as nodes, and its nodes are its own, each once.
-/
theorem checkSlot_eq_ok_iff {listed : List NodeId} {found : List Single} {slot : Nat} :
    checkSlot ((listed, found), slot) = .ok () ↔
      listed.length = found.length ∧ listed.Nodup ∧
        ∀ node ∈ listed, (namespaceOf node).toNat = slot := by
  rw [checkSlot]
  split
  · next different => exact iff_of_false (fun run => nomatch run) fun spec => different spec.1
  · next same => simp [checkNodes_eq_ok_iff, not_not.mp same]

/-- All slots are accepted when each is, with the lists at its place. -/
theorem forM_checkSlot_eq_ok_iff :
    (nodes.zip frequencies).zipIdx.forM checkSlot = .ok () ↔
      ∀ (slot : Nat) listed found, nodes[slot]? = some listed → frequencies[slot]? = some found →
        checkSlot ((listed, found), slot) = .ok () := by
  rw [forM_eq_ok_iff]
  constructor
  · intro all slot listed found here there
    refine all _ (List.mk_mem_zipIdx_iff_getElem?.mpr ?_)
    exact List.getElem?_zip_eq_some.mpr ⟨here, there⟩
  · rintro all ⟨⟨listed, found⟩, slot⟩ member
    obtain ⟨here, there⟩ :=
      List.getElem?_zip_eq_some.mp (List.mk_mem_zipIdx_iff_getElem?.mp member)
    exact all slot listed found here there

/-- Nodes in the slots of their namespaces cannot meet nodes of other slots. -/
theorem nodup_flatten_of_slotted
    (slotted : ∀ (slot : Nat) listed, nodes[slot]? = some listed →
      ∀ node ∈ listed, (namespaceOf node).toNat = slot) :
    nodes.flatten.Nodup ↔ ∀ (slot : Nat) listed, nodes[slot]? = some listed → listed.Nodup := by
  rw [List.nodup_flatten]
  constructor
  · exact fun spec slot listed there => spec.1 listed (List.mem_of_getElem? there)
  · intro each
    refine ⟨fun listed member => ?_, List.pairwise_iff_getElem.mpr ?_⟩
    · obtain ⟨slot, there⟩ := List.getElem?_of_mem member
      exact each slot listed there
    · intro slot other inside inside' before node here here'
      have own := slotted slot _ (List.getElem?_eq_getElem inside) node here
      have own' := slotted other _ (List.getElem?_eq_getElem inside') node here'
      omega

/-- Lists are accepted exactly when they fit, and make the table of these lists. -/
theorem ofLists_eq_ok_iff :
    ofLists namespaces nodes frequencies = .ok table ↔
      table = ⟨namespaces, nodes, frequencies⟩ ∧ table.Fits := by
  unfold ofLists
  split
  · next sizes =>
    refine iff_of_false (fun run => nomatch run) ?_
    rintro ⟨rfl, fits⟩
    exact sizes.elim (fun few => few fits.slots) fun apart => apart fits.parallel.length_eq.symm
  · next sizes =>
    have slots : nodes.length = namespaces.slots := by omega
    have length : nodes.length = frequencies.length := by omega
    constructor
    · intro run
      obtain ⟨⟨⟩, checked, made⟩ := except_bind_eq_ok.mp run
      cases made
      have each := forM_checkSlot_eq_ok_iff.mp checked
      have accepted : ∀ (slot : Nat) listed, nodes[slot]? = some listed →
          listed.Nodup ∧ ∀ node ∈ listed, (namespaceOf node).toNat = slot := by
        intro slot listed here
        obtain ⟨inside, -⟩ := List.getElem?_eq_some_iff.mp here
        have there := List.getElem?_eq_getElem (length ▸ inside : slot < frequencies.length)
        exact (checkSlot_eq_ok_iff.mp (each slot listed _ here there)).2
      have slotted := fun slot listed here => (accepted slot listed here).2
      refine ⟨rfl, slots, ?_, ?_, slotted⟩
      · exact forall₂_iff_getElem?.mpr ⟨length, fun slot listed found here there =>
          (checkSlot_eq_ok_iff.mp (each slot listed found here there)).1⟩
      · exact (nodup_flatten_of_slotted slotted).mpr fun slot listed here =>
          (accepted slot listed here).1
    · rintro ⟨rfl, fits⟩
      refine except_bind_eq_ok.mpr ⟨(), forM_checkSlot_eq_ok_iff.mpr ?_, rfl⟩
      intro slot listed found here there
      refine checkSlot_eq_ok_iff.mpr ⟨?_, ?_, fits.slotted slot listed here⟩
      · exact (forall₂_iff_getElem?.mp fits.parallel).2 slot listed found here there
      · exact (nodup_flatten_of_slotted fits.slotted).mp fits.distinct slot listed here

end Lists

/-! ## Sums -/

/-- What is stored for a node after one more frequency of it. -/
def addOn (before : Option Single) (frequency : Single) : Option Single :=
  some (before.getD 0 + frequency)

/-- Frequencies that are added on are added up, from what is stored or from zero. -/
theorem foldl_addOn (frequencies : List Single) (before : Option Single) :
    frequencies.foldl addOn before =
      if frequencies = [] then before else some (frequencies.foldl (· + ·) (before.getD 0)) := by
  induction frequencies generalizing before with
  | nil => rfl
  | cons frequency frequencies ih =>
      rw [List.foldl_cons, ih, if_neg (List.cons_ne_nil _ _), List.foldl_cons]
      split
      · next none =>
        subst none
        rfl
      · rfl

section Counts

variable {namespaces : NamespaceTable} {counts : List (NodeId × Single)} {last : NodeMap Single}

/-- Counts are read when all namespaces have names, and else refused for the first node whose
namespace has none. -/
theorem foldlM_addCount_splits (namespaces : NamespaceTable) (counts : List (NodeId × Single)) :
    ((∀ entry ∈ counts, namespaces.contains (namespaceOf entry.1) = true) ∧
        ∃ last, counts.foldlM (addCount namespaces) ∅ = .ok last) ∨
      ∃ (position : Nat) (entry : NodeId × Single), counts[position]? = some entry ∧
        ¬namespaces.contains (namespaceOf entry.1) = true ∧
        counts.foldlM (addCount namespaces) ∅ = .error (.uncountedNamespace entry.1) ∧
        ∀ lower < position, ∀ other, counts[lower]? = some other →
          namespaces.contains (namespaceOf other.1) = true := by
  have steps : ∀ entry ∈ counts, ∀ before : NodeMap Single, True →
      (namespaces.contains (namespaceOf entry.1) = true ∧
        ∃ after, addCount namespaces before entry = .ok after ∧ True) ∨
      (¬namespaces.contains (namespaceOf entry.1) = true ∧
        addCount namespaces before entry = .error (.uncountedNamespace entry.1)) := by
    intro entry _ before _
    rw [addCount]
    split
    · next named => exact .inl ⟨named, _, rfl, trivial⟩
    · next unnamed => exact .inr ⟨unnamed, rfl⟩
  rcases foldlM_splits (addCount namespaces) (fun _ => True)
      (fun entry => namespaces.contains (namespaceOf entry.1) = true)
      (fun entry => .uncountedNamespace entry.1) counts steps trivial with ⟨all, last, run, -⟩ | first
  · exact .inl ⟨all, last, run⟩
  · exact .inr first

/-- Every node that was counted is stored with its sum. -/
theorem getElem?_foldlM_addCount (run : counts.foldlM (addCount namespaces) ∅ = .ok last)
    (node : NodeId) :
    last[node]? = if node ∈ counts.map Prod.fst then some (sumOf counts node) else none := by
  -- What is stored and what is still to come add up to the same.
  have stored := foldlM_keeps
    (fun rest (before : NodeMap Single) => (weightsOf rest node).foldl addOn before[node]? =
      (weightsOf counts node).foldl addOn none)
    (fun entry rest before after kept step => ?_) (by rw [Std.ExtTreeMap.getElem?_empty]) run
  · have total : last[node]? = (weightsOf counts node).foldl addOn none := stored
    rw [total, foldl_addOn]
    by_cases given : node ∈ counts.map Prod.fst
    · rw [if_pos given, if_neg fun none => weightsOf_eq_nil.mp none given]
      rfl
    · rw [if_neg given, if_pos (weightsOf_eq_nil.mpr given)]
  · rw [addCount] at step
    split at step
    · cases step
      rw [← kept, weightsOf_cons, Std.ExtTreeMap.getElem?_alter]
      by_cases same : entry.1 = node
      · subst same
        rw [if_pos Std.ReflOrd.compare_self, if_pos rfl, List.foldl_cons]
        rfl
      · have different : ¬compare entry.1 node = .eq := fun equal =>
          same (Std.LawfulEqOrd.eq_of_compare equal)
        rw [if_neg different, if_neg same]
    · cases step

end Counts

/-! ## Tables of counts -/

/-- Entries in the slots of their namespaces. -/
def grouped (slots : Nat) (entries : List (NodeId × Single)) : List (List (NodeId × Single)) :=
  (List.range slots).map fun slot =>
    entries.filter fun entry => (namespaceOf entry.1).toNat == slot

/-- The table of stored frequencies, by slot. -/
def ofStored (namespaces : NamespaceTable) (stored : NodeMap Single) : FrequencyTable where
  namespaces := namespaces
  nodes := (grouped namespaces.slots stored.toList).map fun entries => entries.map Prod.fst
  frequencies := (grouped namespaces.slots stored.toList).map fun entries => entries.map Prod.snd

section Grouped

variable {namespaces : NamespaceTable} {stored : NodeMap Single} {slots slot : Nat}
  {entries listed : List (NodeId × Single)}

theorem getElem?_grouped (there : (grouped slots entries)[slot]? = some listed) :
    slot < slots ∧ listed = entries.filter fun entry => (namespaceOf entry.1).toNat == slot := by
  rw [grouped, List.getElem?_map, Option.map_eq_some_iff] at there
  obtain ⟨number, here, rfl⟩ := there
  obtain ⟨inside, same⟩ := List.getElem?_eq_some_iff.mp here
  rw [List.getElem_range] at same
  subst same
  exact ⟨by simpa using inside, rfl⟩

/-- The lists of a slot are taken from the stored nodes, which are strictly ascending. -/
theorem pairwise_lt_grouped (member : listed ∈ grouped slots stored.toList) :
    (listed.map Prod.fst).Pairwise (· < ·) := by
  obtain ⟨slot, there⟩ := List.getElem?_of_mem member
  obtain ⟨-, rfl⟩ := getElem?_grouped there
  exact (Graph.pairwise_lt_toList stored).sublist (List.filter_sublist.map Prod.fst)

/-- Grouped entries fit. -/
theorem fits_ofStored (namespaces : NamespaceTable) (stored : NodeMap Single) :
    (ofStored namespaces stored).Fits := by
  have slotted : ∀ (slot : Nat) nodes, (ofStored namespaces stored).nodes[slot]? = some nodes →
      ∀ node ∈ nodes, (namespaceOf node).toNat = slot := by
    intro slot nodes there node member
    rw [ofStored, List.getElem?_map, Option.map_eq_some_iff] at there
    obtain ⟨listed, here, rfl⟩ := there
    obtain ⟨-, rfl⟩ := getElem?_grouped here
    obtain ⟨entry, among, rfl⟩ := List.mem_map.mp member
    exact eq_of_beq (List.mem_filter.mp among).2
  constructor
  case slots => simp [ofStored, grouped]
  case parallel =>
    refine List.forall₂_map_left_iff.mpr (List.forall₂_map_right_iff.mpr ?_)
    exact List.forall₂_same.mpr fun listed _ => by rw [List.length_map, List.length_map]
  case distinct =>
    refine (nodup_flatten_of_slotted slotted).mpr fun slot nodes there => ?_
    obtain ⟨listed, member, rfl⟩ := List.mem_map.mp (List.mem_of_getElem? there)
    exact (pairwise_lt_grouped member).imp fun less => UInt64.ne_of_lt less
  case slotted => exact slotted

theorem mem_of_mem_grouped {entry : NodeId × Single} (group : listed ∈ grouped slots entries)
    (member : entry ∈ listed) : entry ∈ entries := by
  obtain ⟨slot, there⟩ := List.getElem?_of_mem group
  obtain ⟨-, rfl⟩ := getElem?_grouped there
  exact (List.mem_filter.mp member).1

/-- No entry is left out whose namespace has a slot. -/
theorem exists_mem_grouped {entry : NodeId × Single} (member : entry ∈ entries)
    (inside : (namespaceOf entry.1).toNat < slots) :
    ∃ listed ∈ grouped slots entries, entry ∈ listed :=
  ⟨_, List.mem_map.mpr ⟨_, List.mem_range.mpr inside, rfl⟩,
    List.mem_filter.mpr ⟨member, beq_self_eq_true _⟩⟩

end Grouped

section Tallied

variable {namespaces : NamespaceTable} {counts : List (NodeId × Single)} {last : NodeMap Single}
  {table : FrequencyTable}

/-- Stored sums make a table of the counts. -/
theorem tallies_ofStored
    (named : ∀ entry ∈ counts, namespaces.contains (namespaceOf entry.1) = true)
    (run : counts.foldlM (addCount namespaces) ∅ = .ok last) :
    (ofStored namespaces last).Tallies namespaces counts := by
  have stored : ∀ node frequency, (node, frequency) ∈ last.toList ↔
      node ∈ counts.map Prod.fst ∧ frequency = sumOf counts node := by
    intro node frequency
    rw [Std.ExtTreeMap.mem_toList_iff_getElem?_eq_some, getElem?_foldlM_addCount run]
    by_cases given : node ∈ counts.map Prod.fst
    · simp [given, eq_comm]
    · simp [given]
  constructor
  case namespaces => rfl
  case mem =>
    intro node
    rw [ofStored, ← List.map_flatten, List.mem_map]
    constructor
    · rintro ⟨entry, member, rfl⟩
      obtain ⟨listed, group, among⟩ := List.mem_flatten.mp member
      exact ((stored entry.1 entry.2).mp (mem_of_mem_grouped group among)).1
    · intro given
      obtain ⟨entry, member, rfl⟩ := List.mem_map.mp given
      have kept := (stored entry.1 (sumOf counts entry.1)).mpr ⟨given, rfl⟩
      obtain ⟨listed, group, among⟩ :=
        exists_mem_grouped kept (NamespaceTable.toNat_lt_slots (named entry member))
      exact ⟨_, List.mem_flatten.mpr ⟨listed, group, among⟩, rfl⟩
  case ascending =>
    intro nodes member
    obtain ⟨listed, among, rfl⟩ := List.mem_map.mp member
    exact pairwise_lt_grouped among
  case frequencies =>
    simp only [ofStored, List.map_map]
    refine List.map_congr_left fun listed group => ?_
    rw [Function.comp_apply, List.map_map]
    refine List.map_congr_left fun entry among => ?_
    exact ((stored entry.1 entry.2).mp (mem_of_mem_grouped group among)).2

/-- The lists of stored sums are never refused. -/
theorem ofCounts_of_foldlM (run : counts.foldlM (addCount namespaces) ∅ = .ok last) :
    ofCounts namespaces counts = .ok (ofStored namespaces last) := by
  rw [ofCounts, run]
  exact ofLists_eq_ok_iff.mpr ⟨rfl, fits_ofStored namespaces last⟩

/-- Counts make the table of their sums, or are refused for the first node whose namespace has no
name. -/
theorem ofCounts_splits (namespaces : NamespaceTable) (counts : List (NodeId × Single)) :
    ((∀ entry ∈ counts, namespaces.contains (namespaceOf entry.1) = true) ∧
        ∃ table, ofCounts namespaces counts = .ok table ∧ table.Fits ∧
          table.Tallies namespaces counts) ∨
      ∃ (position : Nat) (entry : NodeId × Single), counts[position]? = some entry ∧
        ¬namespaces.contains (namespaceOf entry.1) = true ∧
        ofCounts namespaces counts = .error (.uncountedNamespace entry.1) ∧
        ∀ lower < position, ∀ other, counts[lower]? = some other →
          namespaces.contains (namespaceOf other.1) = true := by
  rcases foldlM_addCount_splits namespaces counts with
    ⟨named, last, run⟩ | ⟨position, entry, here, unnamed, run, before⟩
  · exact .inl ⟨named, ofStored namespaces last, ofCounts_of_foldlM run,
      fits_ofStored namespaces last, tallies_ofStored named run⟩
  · exact .inr ⟨position, entry, here, unnamed, by rw [ofCounts, run]; rfl, before⟩

end Tallied

/-- **Every table fits.** Lists are accepted exactly when they fit, as the table of these lists.
Counts are accepted exactly when all their nodes have namespaces with names; their table fits too,
lists the nodes that are given in ascending order, and adds up the frequencies of each. Counts that
are refused are refused for the first node whose namespace has no name, and never for how the lists
came out. -/
theorem accepted_tables_fit :
    (∀ namespaces nodes frequencies table, ofLists namespaces nodes frequencies = .ok table ↔
      table = ⟨namespaces, nodes, frequencies⟩ ∧ table.Fits) ∧
    ∀ namespaces counts,
      ((∃ table, ofCounts namespaces counts = .ok table) ↔
        ∀ entry ∈ counts, namespaces.contains (namespaceOf entry.1) = true) ∧
      (∀ table, ofCounts namespaces counts = .ok table →
        table.Fits ∧ table.Tallies namespaces counts) ∧
      ∀ error, ofCounts namespaces counts = .error error →
        ∃ (position : Nat) (entry : NodeId × Single), counts[position]? = some entry ∧
          namespaces.contains (namespaceOf entry.1) = false ∧
          error = .uncountedNamespace entry.1 ∧
          ∀ lower < position, ∀ other, counts[lower]? = some other →
            namespaces.contains (namespaceOf other.1) = true := by
  refine ⟨fun namespaces nodes frequencies table => ofLists_eq_ok_iff, fun namespaces counts => ?_⟩
  rcases ofCounts_splits namespaces counts with
    ⟨named, table, run, fits, tallies⟩ | ⟨position, entry, here, unnamed, run, before⟩
  · refine ⟨iff_of_true ⟨table, run⟩ named, fun found run' => ?_, fun error run' => ?_⟩
    · cases run.symm.trans run'
      exact ⟨fits, tallies⟩
    · cases run.symm.trans run'
  · refine ⟨iff_of_false ?_ ?_, fun found run' => ?_, fun error run' => ?_⟩
    · rintro ⟨table, run'⟩
      cases run.symm.trans run'
    · exact fun named => unnamed (named entry (List.mem_of_getElem? here))
    · cases run.symm.trans run'
    · cases run.symm.trans run'
      exact ⟨position, entry, here, Bool.eq_false_iff.mpr unnamed, rfl, before⟩

/-- Two namespaces with a number between them that has no name. -/
def gappedNamespaces : NamespaceTable := ⟨NamespaceTable.single.names.insert 2 "item"⟩

/-- A node that is counted twice, with another one between, and a node of the other namespace. -/
def scatteredCounts : List (NodeId × Single) :=
  [(7, .ofNat 1), (makeNode 2 3, .ofNat 4), (5, .ofNat 8), (7, .ofNat 2)]

/-- The counts make a table with an empty slot in the middle, which fits. The same lists with a node
in a foreign slot are refused, and so are counts of a node of the number between. -/
theorem accepted_tables_fit_scattered :
    (∃ table, ofCounts gappedNamespaces scatteredCounts = .ok table ∧ table.Fits ∧
      table.Tallies gappedNamespaces scatteredCounts ∧
      table.nodes = [[5, 7], [], [makeNode 2 3]] ∧
      table.frequencies = [[.ofNat 8, .ofNat 3], [], [.ofNat 4]]) ∧
    (¬∃ table, ofLists gappedNamespaces [[], [7], []] [[], [.ofNat 1], []] = .ok table) ∧
    ofCounts gappedNamespaces ((makeNode 1 3, .ofNat 1) :: scatteredCounts) =
      .error (.uncountedNamespace (makeNode 1 3)) := by
  obtain ⟨lists, counted⟩ := accepted_tables_fit
  have unnamed : gappedNamespaces.contains (namespaceOf (makeNode 1 3)) = false := by
    decide +kernel
  refine ⟨?_, ?_, ?_⟩
  · have named : ∀ entry ∈ scatteredCounts,
        gappedNamespaces.contains (namespaceOf entry.1) = true := by decide +kernel
    obtain ⟨made, adds, -⟩ := counted gappedNamespaces scatteredCounts
    obtain ⟨table, run⟩ := made.mpr named
    obtain ⟨fits, tallies⟩ := adds table run
    have found : ((ofCounts gappedNamespaces scatteredCounts).toOption.map fun table =>
        (table.nodes, table.frequencies)) =
          some ([[5, 7], [], [makeNode 2 3]], [[.ofNat 8, .ofNat 3], [], [.ofNat 4]]) := by
      decide +kernel
    rw [run] at found
    obtain ⟨nodes, frequencies⟩ := Prod.ext_iff.mp (Option.some.inj found)
    exact ⟨table, run, fits, tallies, nodes, frequencies⟩
  · rintro ⟨table, run⟩
    obtain ⟨rfl, fits⟩ := (lists _ _ _ table).mp run
    exact absurd (fits.slotted 1 [7] rfl 7 List.mem_cons_self) (by decide)
  · obtain ⟨made, -, refused⟩ := counted gappedNamespaces ((makeNode 1 3, .ofNat 1) :: scatteredCounts)
    cases run : ofCounts gappedNamespaces ((makeNode 1 3, .ofNat 1) :: scatteredCounts) with
    | ok table =>
        have named := made.mp ⟨table, run⟩ _ List.mem_cons_self
        cases unnamed.symm.trans named
    | error error =>
        obtain ⟨position, entry, here, -, rfl, before⟩ := refused error run
        cases position with
        | zero =>
            cases here
            rfl
        | succ position =>
            have named := before 0 (Nat.succ_pos position) _ rfl
            cases unnamed.symm.trans named

end ShardedGraph.FrequencyTable
