import ShardedGraph.Proofs.Codecs
import ShardedGraph.Proofs.Occurrences
import ShardedGraph.Proofs.Routing

/-!
# Loading a graph in parts

A shard reads all lines of its files, whether it owns their nodes or not, and drops the others
afterwards. So the shards of a graph read the same table and the same insertions, or fail in the
same way (`Graph.readAll`), and each builds its graph from the insertions that it owns
(`Graph.load_eq`).

Whether the namespaces of a graph all have names is found out by the shards together. A context
is checked by the shard of its key, neighbors included, and the whole graph has no other contexts;
so the whole graph can be built exactly when the graphs of all shards can
(`Graph.exists_build_iff`).

**The partition.** The graphs that are loaded for all shards are then a partition of the graph
that is loaded for one shard alone (`Graph.Splits`, `Graph.loads_split`).
-/

set_option autoImplicit false

namespace ShardedGraph

open Number

/-- A configuration for one of some shards. -/
def Config.ofShard (config : Config) (shards shard : UInt64) : Config :=
  { config with shardCount := shards, shard }

/-! ## What files say -/

theorem mapM_map {ε α β γ : Type} (f : α → Except ε β) (g : β → γ) (items : List α) :
    (items.mapM fun item => g <$> f item) = List.map g <$> items.mapM f := by
  induction items with
  | nil => rfl
  | cons item items ih =>
      rw [List.mapM_cons, List.mapM_cons, ih]
      cases f item with
      | error error => rfl
      | ok value =>
          cases items.mapM f with
          | error error => rfl
          | ok values => rfl

namespace Graph

/-- All lines of a text that say something. -/
def readLines (text : String) : Except Error (List NodeLine) := do
  let lines ← (Text.lines text.toList).mapM NodeLine.read
  return lines.filterMap id

/-- All insertions that a file asks for, whichever shard owns their nodes. -/
def readInsertions (folder : Folder) (insertion : NodeId → List (UInt64 × Single) → Insertion) :
    Option String → Except Error (List Insertion)
  | none => .ok []
  | some path => do
      let lines ← readLines (← folder.readText path)
      return lines.map fun line => insertion line.node line.pairs

/-- The namespace table and all insertions that the files of a configuration ask for. -/
def readAll (folder : Folder) (config : Config) :
    Except Error (NamespaceTable × List Insertion) := do
  let namespaces ← loadNamespaces folder config.namespaceFile
  let contexts ← readInsertions folder .context config.graphFile
  let nodeFeatures ← readInsertions folder .nodeFeature config.nodeFeatureFile
  let neighborFeatures ← readInsertions folder .neighborFeature config.neighborFeatureFile
  return (namespaces, contexts ++ nodeFeatures ++ neighborFeatures)

section Owned

variable {config : Config} (positive : 0 < config.shardCount.toNat)

include positive

/-- A shard reads a line whether it keeps it or not. -/
theorem readOwned_eq (line : List Char) :
    readOwned config line =
      (Option.filter fun found =>
        ownerOf config.shardCount.toNat found.node == config.shard.toNat) <$>
          NodeLine.read line := by
  rw [readOwned]
  cases NodeLine.read line with
  | error error => rfl
  | ok found =>
      cases found with
      | none => rfl
      | some found =>
          change (shardOf _ _ >>= _) = Except.ok _
          rw [shardOf_of_pos positive]
          refine congrArg Except.ok ?_
          by_cases owned : ownerOf config.shardCount.toNat found.node = config.shard.toNat
          · simp [owned, Option.filter_some]
          · simp [owned, Option.filter_some]

/-- The lines of a shard are those of all lines whose nodes it owns. -/
theorem ownedLines_eq (text : String) :
    ownedLines config text =
      (List.filter fun line => ownerOf config.shardCount.toNat line.node == config.shard.toNat) <$>
        readLines text := by
  rw [ownedLines, readLines, funext (readOwned_eq positive), mapM_map]
  cases (Text.lines text.toList).mapM NodeLine.read with
  | error error => rfl
  | ok lines =>
      refine congrArg Except.ok ?_
      rw [List.filter_filterMap, List.filterMap_map]
      rfl

theorem loadInsertions_eq (folder : Folder)
    {insertion : NodeId → List (UInt64 × Single) → Insertion}
    (about : ∀ node pairs, (insertion node pairs).node = node) (path : Option String) :
    loadInsertions folder config insertion path =
      ownedInsertions config.shardCount.toNat config.shard.toNat <$>
        readInsertions folder insertion path := by
  cases path with
  | none => rfl
  | some path =>
      rw [loadInsertions, readInsertions]
      cases folder.readText path with
      | error error => rfl
      | ok text =>
          change (ownedLines config text >>= _) = _ <$> (readLines text >>= _)
          rw [ownedLines_eq positive]
          cases readLines text with
          | error error => rfl
          | ok lines =>
              refine congrArg Except.ok ?_
              rw [ownedInsertions, List.filter_map]
              refine congrArg _ (List.filter_congr fun line _ => ?_)
              rw [Function.comp_apply, about]

/-- A shard builds its graph from the insertions that it owns. -/
theorem load_eq (folder : Folder) :
    load folder config = readAll folder config >>= fun (namespaces, insertions) =>
      build namespaces
        (ownedInsertions config.shardCount.toNat config.shard.toNat insertions) := by
  rw [load, readAll, loadInsertions_eq positive folder fun _ _ => rfl,
    loadInsertions_eq positive folder fun _ _ => rfl,
    loadInsertions_eq positive folder fun _ _ => rfl]
  cases loadNamespaces folder config.namespaceFile with
  | error error => rfl
  | ok namespaces =>
  cases readInsertions folder .context config.graphFile with
  | error error => rfl
  | ok contexts =>
  cases readInsertions folder .nodeFeature config.nodeFeatureFile with
  | error error => rfl
  | ok nodeFeatures =>
  cases readInsertions folder .neighborFeature config.neighborFeatureFile with
  | error error => rfl
  | ok neighborFeatures =>
      change build _ _ = build _ _
      simp only [ownedInsertions, List.filter_append]

end Owned

/-! ## Building from what files say -/

/-- The graphs of all shards can be built exactly when the whole graph can. -/
theorem exists_build_iff {namespaces : NamespaceTable} {insertions : List Insertion} {shards : Nat}
    (positive : 0 < shards) :
    (∃ whole, build namespaces insertions = .ok whole) ↔
      ∀ shard, shard < shards →
        ∃ part, build namespaces (ownedInsertions shards shard insertions) = .ok part := by
  refine ⟨fun ⟨whole, run⟩ shard _ => ?_, exists_build positive⟩
  have checked : checkNamespaces namespaces
      (Draft.ofInsertions (ownedInsertions shards shard insertions)).contexts = .ok () := by
    refine checkNamespaces_eq_ok_iff.mpr fun node context there => ?_
    have said := congrArg Said.context
      (Draft.saidOf_ownedInsertions shards shard insertions node)
    change (Draft.ofInsertions (ownedInsertions shards shard insertions)).contexts[node]? = _ at said
    rw [there] at said
    split at said
    · exact checkNamespaces_eq_ok_iff.mp (checkNamespaces_of_build run) node context said.symm
    · cases said
  exact ⟨_, by rw [build, ofDraft, checked]; rfl⟩

/-- One shard alone owns all insertions. -/
theorem ownedInsertions_one (insertions : List Insertion) :
    ownedInsertions 1 0 insertions = insertions :=
  List.filter_eq_self.mpr fun insertion _ => beq_iff_eq.mpr (Nat.mod_one insertion.node.toNat)

/-- Loads the graphs of all shards. -/
def loadAll (folder : Folder) (config : Config) (shards : UInt64) : Except Error (List Graph) :=
  (List.range shards.toNat).mapM fun shard =>
    load folder (config.ofShard shards (UInt64.ofNat shard))

/-- A graph that is loaded for one shard alone is built from everything that is read. -/
theorem load_one (folder : Folder) (config : Config) :
    load folder (config.ofShard 1 0) =
      readAll folder config >>= fun (namespaces, insertions) => build namespaces insertions := by
  rw [load_eq (show 0 < (1 : UInt64).toNat by decide)]
  refine bind_congr fun (namespaces, insertions) => ?_
  exact congrArg (build namespaces) (ownedInsertions_one insertions)

/-- The graph of a shard is built from what is read about the nodes that it owns. -/
theorem load_ofShard (folder : Folder) (config : Config) {shards : UInt64} {shard : Nat}
    (inside : shard < shards.toNat) :
    load folder (config.ofShard shards (UInt64.ofNat shard)) =
      readAll folder config >>= fun (namespaces, insertions) =>
        build namespaces (ownedInsertions shards.toNat shard insertions) := by
  have number : (UInt64.ofNat shard).toNat = shard :=
    UInt64.toNat_ofNat_of_lt (Nat.lt_trans inside shards.toNat_lt)
  rw [load_eq (Nat.zero_lt_of_lt inside)]
  refine bind_congr fun (namespaces, insertions) => ?_
  change build namespaces (ownedInsertions _ (UInt64.ofNat shard).toNat insertions) = _
  rw [number]
  rfl

/-- Graphs split a graph among shards. Each key of it is one in the graph of its owner, in order,
and in no other, and the owner says of it what the graph does; so do features. Occurrences add up,
and so do the frequencies and totals that are shown, as long as those of the whole graph are
exact. -/
structure Splits (shards : Nat) (whole : Graph) (parts : List Graph) : Prop where
  length : parts.length = shards
  keys : ∀ (shard : Nat) part, parts[shard]? = some part →
    part.keys = whole.keys.filter fun node => ownerOf shards node == shard
  isPart : ∀ (shard : Nat) part, parts[shard]? = some part → IsPart shards shard whole part
  slots : ∀ part ∈ parts, part.slots = whole.slots
  occurrences : ∀ node, (parts.map fun part => part.occurrences node).sum = whole.occurrences node
  occurrencesIn : ∀ slot,
    (parts.map fun part => part.occurrencesIn slot).sum = whole.occurrencesIn slot
  frequencies : ∀ node, whole.occurrences node ≤ Format.single.exactLimit →
    (parts.map fun part => part.frequencyOf node).foldl (· + ·) 0 = whole.frequencyOf node
  totals : ∀ slot, whole.occurrencesIn slot ≤ Format.double.exactLimit →
    (parts.map fun part => part.totals.getD slot (.zero true)).foldl (· + ·) (.zero true) =
      whole.totals.getD slot (.zero true)

theorem splits_of_build {namespaces : NamespaceTable} {insertions : List Insertion} {shards : Nat}
    {whole : Graph} {parts : List Graph} (positive : 0 < shards)
    (run : build namespaces insertions = .ok whole)
    (runs : List.Forall₂
      (fun shard part => build namespaces (ownedInsertions shards shard insertions) = .ok part)
      (List.range shards) parts) : Splits shards whole parts := by
  have isPart : ∀ (shard : Nat) part, parts[shard]? = some part →
      IsPart shards shard whole part := by
    intro shard part there
    obtain ⟨number, here, built⟩ := exists_getElem?_of_forall₂ runs.flip there
    obtain ⟨_, rfl⟩ := List.getElem?_eq_some_iff.mp here
    rw [List.getElem_range] at built
    exact isPart_of_build run built
  have built : ∀ part ∈ parts, ∃ insertions, build namespaces insertions = .ok part := by
    intro part member
    obtain ⟨shard, _, built⟩ := exists_of_forall₂_of_mem runs member
    exact ⟨_, built⟩
  have occurrences := sum_occurrences positive run runs
  have occurrencesIn := sum_occurrencesIn positive run runs
  refine ⟨?_, fun shard part there => (isPart shard part there).keys_eq, isPart, ?_, occurrences,
    occurrencesIn, fun node exact => ?_, fun slot exact => ?_⟩
  · rw [← runs.length_eq, List.length_range]
  · intro part member
    obtain ⟨_, part⟩ := built part member
    rw [slots_eq_of_build run, slots_eq_of_build part]
  · have shown : parts.map (fun part => part.frequencyOf node) =
        (parts.map fun part => part.occurrences node).map Binary.ofNat := by
      rw [List.map_map]
      exact List.map_congr_left fun part _ => frequencyOf_eq part node
    rw [shown, frequencyOf_eq, ← occurrences node]
    rw [← occurrences node] at exact
    exact Binary.foldl_ofNat Format.isWide_single exact
  · have shown : parts.map (fun part => part.totals.getD slot (.zero true)) =
        (parts.map fun part => part.occurrencesIn slot).map totalOf := by
      rw [List.map_map]
      refine List.map_congr_left fun part member => ?_
      obtain ⟨_, part⟩ := built part member
      exact totals_of_build part slot
    rw [shown, totals_of_build run, ← occurrencesIn slot]
    rw [← occurrencesIn slot] at exact
    exact foldl_totalOf exact

theorem mapM_congr_mem {α β ε : Type} {f g : α → Except ε β} {items : List α}
    (same : ∀ item ∈ items, f item = g item) : items.mapM f = items.mapM g := by
  induction items with
  | nil => rfl
  | cons item items ih =>
      obtain ⟨first, others⟩ := List.forall_mem_cons.mp same
      rw [List.mapM_cons, List.mapM_cons, first, ih others]

/-- The shards read the same, and build their graphs from it. -/
theorem loadAll_eq (folder : Folder) (config : Config) {shards : UInt64}
    (positive : 0 < shards.toNat) :
    loadAll folder config shards = readAll folder config >>= fun (namespaces, insertions) =>
      (List.range shards.toNat).mapM fun shard =>
        build namespaces (ownedInsertions shards.toNat shard insertions) := by
  have each : loadAll folder config shards = (List.range shards.toNat).mapM fun shard =>
      readAll folder config >>= fun (namespaces, insertions) =>
        build namespaces (ownedInsertions shards.toNat shard insertions) :=
    mapM_congr_mem fun shard member => load_ofShard folder config (List.mem_range.mp member)
  rw [each]
  cases readAll folder config with
  | ok found => rfl
  | error error =>
      obtain ⟨others, more⟩ := Nat.exists_eq_add_of_le' positive
      rw [more, List.range_succ_eq_map, List.mapM_cons]
      rfl

/-- A file of contexts of an even and of an odd node. -/
def mixedFolder : Folder where
  files := [("g", Text.writeUtf8 "2 1:1\n3 2:1")]

/-- The file of `mixedFolder` is the graph. -/
def mixedFiles : Config := { graphFile := some "g" }

/-- What the file says. -/
def mixedContexts : List Insertion := [.context 2 [(1, 1)], .context 3 [(2, 1)]]

/-- A path that is one name reads the file of this name. -/
theorem readText_of_find {folder : Folder} {name text : String}
    (step : name.splitOn "/" = [name]) (plain : name.toList.contains (Char.ofNat 0) = false)
    (proper : Folder.isWhole name = false ∧ name ≠ "" ∧ name ≠ "." ∧ name ≠ "..")
    (short : name.utf8ByteSize ≤ Folder.nameLimit)
    (found : folder.find? name = some (Text.writeUtf8 text)) : folder.readText name = .ok text := by
  obtain ⟨whole, some, self, up⟩ := proper
  have fits : ¬Folder.pathLimit < Folder.wholeLength name := by
    rw [Folder.wholeLength, whole, if_neg Bool.false_ne_true, Folder.pathLimit, Folder.ownLength]
    rw [Folder.nameLimit] at short
    omega
  have walk : folder.walk name = .ok (.file (Text.writeUtf8 text)) := by
    rw [Folder.walk, step, whole, plain, if_neg Bool.false_ne_true, if_neg fits,
      if_neg Bool.false_ne_true, List.foldlM_cons, Folder.step]
    · simp [Folder.enter, some, self, up, Nat.not_lt.mpr short, found]
    · exact fun octets file => nomatch file
  refine except_bind_eq_ok.mpr ⟨_, by rw [Folder.read, walk], ?_⟩
  rw [Wire.Codec.readUtf8_writeUtf8]
  rfl

theorem readText_mixed : mixedFolder.readText "g" = .ok "2 1:1\n3 2:1" := by
  refine readText_of_find ?_ (by decide +kernel) (by decide +kernel) (by decide +kernel) rfl
  rw [String.splitOn, if_neg (by decide), String.splitOnAux, if_neg (by decide +kernel),
    if_neg (by decide +kernel), String.splitOnAux, if_pos (by decide +kernel)]
  decide +kernel

theorem readAll_mixed : readAll mixedFolder mixedFiles = .ok (.single, mixedContexts) := by
  have lines : readLines "2 1:1\n3 2:1" = .ok [⟨2, [(1, 1)]⟩, ⟨3, [(2, 1)]⟩] :=
    except_toOption_eq_some.mp (by decide +kernel)
  have contexts : readInsertions mixedFolder .context (some "g") = .ok mixedContexts :=
    except_bind_eq_ok.mpr ⟨_, readText_mixed, except_bind_eq_ok.mpr ⟨_, lines, rfl⟩⟩
  exact except_bind_eq_ok.mpr ⟨_, rfl, except_bind_eq_ok.mpr ⟨_, contexts, rfl⟩⟩

/-- **Loading in parts splits the graph.** For any files and any number of shards, the graph can be
loaded for one shard alone exactly when the graphs of all shards can be loaded, and these split
it. -/
theorem loads_split (folder : Folder) (config : Config) {shards : UInt64} (positive : 0 < shards) :
    ((∃ whole, load folder (config.ofShard 1 0) = .ok whole) ↔
      ∃ parts, loadAll folder config shards = .ok parts) ∧
    ∀ whole parts, load folder (config.ofShard 1 0) = .ok whole →
      loadAll folder config shards = .ok parts → Splits shards.toNat whole parts := by
  have positive : 0 < shards.toNat := UInt64.lt_iff_toNat_lt.mp positive
  rw [load_one, loadAll_eq folder config positive]
  cases readAll folder config with
  | error error => exact ⟨iff_of_false (fun ⟨_, run⟩ => nomatch run) (fun ⟨_, run⟩ => nomatch run),
      fun _ _ run => nomatch run⟩
  | ok found =>
      obtain ⟨namespaces, insertions⟩ := found
      refine ⟨?_, fun whole parts run runs => splits_of_build positive run (mapM_eq_ok_iff.mp runs)⟩
      refine (exists_build_iff positive).trans ⟨fun each => ?_, fun ⟨parts, runs⟩ shard inside => ?_⟩
      · rcases mapM_splits (fun shard => build namespaces
            (ownedInsertions shards.toNat shard insertions)) (List.range shards.toNat) with
          parts | ⟨_, shard, _, there, failed, _⟩
        · exact parts
        · obtain ⟨part, run⟩ := each shard (List.mem_range.mp (List.mem_of_getElem? there))
          rw [failed] at run
          cases run
      · obtain ⟨part, _, run⟩ :=
          exists_getElem?_of_forall₂ (mapM_eq_ok_iff.mp runs) (List.getElem?_range inside)
        exact ⟨part, run⟩

theorem loads_split_mixed :
    (0 : UInt64) < 2 ∧ ∃ whole parts, load mixedFolder (mixedFiles.ofShard 1 0) = .ok whole ∧
      loadAll mixedFolder mixedFiles 2 = .ok parts ∧ Splits 2 whole parts := by
  obtain ⟨loads, splits⟩ := @loads_split mixedFolder mixedFiles 2 (by decide)
  have made : (build .single mixedContexts).toOption.isSome = true := by decide +kernel
  obtain ⟨whole, made⟩ := Option.isSome_iff_exists.mp made
  have run : load mixedFolder (mixedFiles.ofShard 1 0) = .ok whole := by
    rw [load_one, readAll_mixed]
    exact except_toOption_eq_some.mp made
  obtain ⟨parts, runs⟩ := loads.mp ⟨whole, run⟩
  exact ⟨by decide, whole, parts, run, runs, splits whole parts run runs⟩

end Graph

end ShardedGraph
