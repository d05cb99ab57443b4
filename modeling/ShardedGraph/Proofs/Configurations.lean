import Mathlib.Data.List.ReduceOption
import ShardedGraph.Namespace
import ShardedGraph.Proofs.NodeLines
import ShardedGraph.Proofs.Representation

/-!
# Which configurations make a namespace table

A configuration is a list of names with their numbers. It is sound when all numbers are small and
neither a name nor a number occurs twice (`NamespaceTable.IsConfiguration`). The table of a sound
configuration names its numbers and no others, and has slots up to the largest one
(`NamespaceTable.Holds`).

**Order.** Pairs are checked one at a time, against those that came before. What is refused at some
pair is refused in every order, because soundness does not depend on the order. So a table does not
depend on it either: it is known from the pairs that it names (`NamespaceTable.Names.unique`). Only
which pair is blamed changes with the order.

**Texts.** A line says nothing, or a name and its number; the text of a configuration is made of
such lines (`NamespaceTable.Lists`). A text that lists pairs is read as the table of these pairs, and
no other text is read (`NamespaceTable.read_eq_ofPairs`, `NamespaceTable.exists_lists_of_read`).
-/

set_option autoImplicit false

namespace ShardedGraph.NamespaceTable

open Number Text
open NodeLine (Silent silent_iff)

/-! ## Configurations -/

/-- Names with their numbers, none of which is too large or comes again. -/
structure IsConfiguration (pairs : List (String × NamespaceId)) : Prop where
  small : ∀ pair ∈ pairs, pair.2.toNat < namespaceLimit
  names : (pairs.map Prod.fst).Nodup
  numbers : (pairs.map Prod.snd).Nodup

/-- What a table is asked to hold: the default namespace when there are no pairs. -/
def orDefault : List (String × NamespaceId) → List (String × NamespaceId)
  | [] => [(defaultName, 0)]
  | pair :: pairs => pair :: pairs

/-- A table that gives names to the numbers of pairs, and to no others. -/
def Names (table : NamespaceTable) (pairs : List (String × NamespaceId)) : Prop :=
  ∀ ns name, table.name? ns = some name ↔ (name, ns) ∈ pairs

/-- A table of pairs: it contains their numbers, by their names, and has one slot more than the
largest number says. -/
structure Holds (table : NamespaceTable) (pairs : List (String × NamespaceId)) : Prop where
  contains : ∀ ns, table.contains ns = true ↔ ∃ name, (name, ns) ∈ pairs
  names : table.Names pairs
  slots : ∃ pair ∈ pairs, table.slots = pair.2.toNat + 1 ∧
    ∀ other ∈ pairs, other.2.toNat ≤ pair.2.toNat

section Pairs

variable {pairs pairs' seen rest : List (String × NamespaceId)} {pair : String × NamespaceId}
  {table table' : NamespaceTable}

theorem isConfiguration_concat :
    IsConfiguration (seen ++ [pair]) ↔ IsConfiguration seen ∧ pair.2.toNat < namespaceLimit ∧
      pair.1 ∉ seen.map Prod.fst ∧ pair.2 ∉ seen.map Prod.snd := by
  constructor
  · rintro ⟨small, names, numbers⟩
    obtain ⟨others, own⟩ := List.forall_mem_append.mp small
    rw [List.map_append, List.map_singleton, ← List.concat_eq_append, List.nodup_concat] at names
    rw [List.map_append, List.map_singleton, ← List.concat_eq_append, List.nodup_concat] at numbers
    exact ⟨⟨others, names.2, numbers.2⟩, own pair List.mem_cons_self, names.1, numbers.1⟩
  · rintro ⟨⟨small, names, numbers⟩, own, newName, newNumber⟩
    refine ⟨List.forall_mem_append.mpr ⟨small, fun other here => ?_⟩, ?_, ?_⟩
    · rwa [List.mem_singleton.mp here]
    · rw [List.map_append, List.map_singleton, ← List.concat_eq_append]
      exact names.concat newName
    · rw [List.map_append, List.map_singleton, ← List.concat_eq_append]
      exact numbers.concat newNumber

/-- What comes first in a sound configuration is sound. -/
theorem IsConfiguration.of_append (sound : IsConfiguration (seen ++ rest)) :
    IsConfiguration seen where
  small pair member := sound.small pair (List.mem_append_left _ member)
  names := (List.map_append ▸ sound.names).of_append_left
  numbers := (List.map_append ▸ sound.numbers).of_append_left

/-- The order of pairs does not matter for soundness. -/
theorem IsConfiguration.perm (perm : pairs.Perm pairs') (sound : IsConfiguration pairs) :
    IsConfiguration pairs' where
  small pair member := sound.small pair (perm.mem_iff.mpr member)
  names := (perm.map Prod.fst).nodup_iff.mp sound.names
  numbers := (perm.map Prod.snd).nodup_iff.mp sound.numbers

/-! ## What a table names -/

/-- A table is known from what it names. -/
theorem Names.unique (names : table.Names pairs) (names' : table'.Names pairs')
    (same : ∀ pair, pair ∈ pairs ↔ pair ∈ pairs') : table = table' := by
  refine congrArg mk (Std.ExtTreeMap.ext_getElem? fun ns => Option.ext fun name => ?_)
  exact (names ns name).trans ((same _).trans (names' ns name).symm)

theorem Names.contains_iff (names : table.Names pairs) (ns : NamespaceId) :
    table.contains ns = true ↔ ∃ name, (name, ns) ∈ pairs := by
  rw [contains, Std.ExtTreeMap.contains_eq_isSome_getElem?, Option.isSome_iff_exists]
  exact exists_congr (names ns)

theorem Names.mem_values (names : table.Names pairs) (name : String) :
    name ∈ table.names.values ↔ name ∈ pairs.map Prod.fst := by
  rw [Graph.values_eq_map_toList]
  simpa [name?] using exists_congr fun ns => names ns name

/-- The slots of a table with names end with the largest number that has one. -/
theorem Names.slots (names : table.Names pairs) (some : pairs ≠ []) :
    ∃ pair ∈ pairs, table.slots = pair.2.toNat + 1 ∧
      ∀ other ∈ pairs, other.2.toNat ≤ pair.2.toNat := by
  have below : ∀ other ∈ pairs, other.2.toNat < table.slots := fun other member =>
    toNat_lt_slots ((names.contains_iff _).mpr ⟨_, member⟩)
  unfold NamespaceTable.slots at below ⊢
  split at below
  · next largest last =>
    have key := Std.ExtTreeMap.mem_keys.mp (List.mem_of_getLast? last)
    obtain ⟨name, member⟩ := (names.contains_iff largest).mp (Std.ExtTreeMap.contains_iff_mem.mpr key)
    exact ⟨_, member, rfl, fun other among => Nat.le_of_lt_succ (below other among)⟩
  · obtain ⟨pair, member⟩ := List.exists_mem_of_ne_nil _ some
    exact absurd (below pair member) (Nat.not_lt_zero _)

theorem Names.holds (names : table.Names pairs) (some : pairs ≠ []) : table.Holds pairs :=
  ⟨names.contains_iff, names, names.slots some⟩

theorem names_empty : (⟨∅⟩ : NamespaceTable).Names [] := by
  intro ns name
  simp [name?]

/-- A name for a new number is added to what a table names. -/
theorem Names.insert (names : table.Names seen) (fresh : pair.2 ∉ seen.map Prod.snd) :
    (⟨table.names.insert pair.2 pair.1⟩ : NamespaceTable).Names (seen ++ [pair]) := by
  intro ns name
  have before := names ns name
  rw [name?] at before ⊢
  rw [Std.ExtTreeMap.getElem?_insert, List.mem_append, List.mem_singleton]
  split
  · next same =>
    have same : pair.2 = ns := Std.LawfulEqOrd.eq_of_compare same
    subst same
    have absent : (name, pair.2) ∉ seen := fun member => fresh (List.mem_map.mpr ⟨_, member, rfl⟩)
    simp [absent, Prod.ext_iff, eq_comm]
  · next different =>
    have different : ns ≠ pair.2 := fun same => different (same ▸ Std.ReflOrd.compare_self)
    simp [before, Prod.ext_iff, different]

/-! ## Adding pairs -/

/-- A pair is added exactly when it goes with the pairs before it; then the table names it too. -/
theorem addPair_splits (names : table.Names seen) (sound : IsConfiguration seen)
    (pair : String × NamespaceId) :
    (IsConfiguration (seen ++ [pair]) ∧
        ∃ after, addPair table pair = .ok after ∧ after.Names (seen ++ [pair])) ∨
      (¬IsConfiguration (seen ++ [pair]) ∧
        ∃ error, addPair table pair = .error error ∧ error.kind = .config) := by
  rw [isConfiguration_concat, addPair]
  split
  · next large => exact .inr ⟨fun fits => Nat.not_lt.mpr large fits.2.1, _, rfl, rfl⟩
  · next small =>
    split
    · next named =>
      have known := (names.mem_values pair.1).mp (List.contains_iff_mem.mp named)
      exact .inr ⟨fun fits => fits.2.2.1 known, _, rfl, rfl⟩
    · next unnamed =>
      split
      · next taken =>
        obtain ⟨name, member⟩ := (names.contains_iff pair.2).mp taken
        exact .inr ⟨fun fits => fits.2.2.2 (List.mem_map.mpr ⟨_, member, rfl⟩), _, rfl, rfl⟩
      · next free =>
        have newName : pair.1 ∉ seen.map Prod.fst := fun known =>
          unnamed (List.contains_iff_mem.mpr ((names.mem_values pair.1).mpr known))
        have newNumber : pair.2 ∉ seen.map Prod.snd := fun known => by
          obtain ⟨⟨name, _⟩, member, rfl⟩ := List.mem_map.mp known
          exact free ((names.contains_iff _).mpr ⟨name, member⟩)
        exact .inl ⟨⟨sound, Nat.lt_of_not_le small, newName, newNumber⟩, _, rfl,
          names.insert newNumber⟩

/-- Pairs are added, one after the other, exactly when all of them go together. -/
theorem foldlM_addPair_splits (names : table.Names seen) (sound : IsConfiguration seen)
    (rest : List (String × NamespaceId)) :
    (IsConfiguration (seen ++ rest) ∧
        ∃ last, rest.foldlM addPair table = .ok last ∧ last.Names (seen ++ rest)) ∨
      (¬IsConfiguration (seen ++ rest) ∧
        ∃ error, rest.foldlM addPair table = .error error ∧ error.kind = .config) := by
  induction rest generalizing table seen with
  | nil =>
      rw [List.append_nil]
      exact .inl ⟨sound, table, rfl, names⟩
  | cons pair rest ih =>
      rw [List.foldlM_cons, List.append_cons]
      rcases addPair_splits names sound pair with ⟨fits, after, step, named⟩ | ⟨clash, error, step, kind⟩
      · rw [step]
        exact ih named fits
      · rw [step]
        exact .inr ⟨fun whole => clash whole.of_append, error, rfl, kind⟩

theorem orDefault_ne_nil (pairs : List (String × NamespaceId)) : orDefault pairs ≠ [] := by
  cases pairs <;> exact List.cons_ne_nil _ _

theorem names_single : single.Names [(defaultName, 0)] :=
  @Names.insert [] (defaultName, 0) ⟨∅⟩ names_empty List.not_mem_nil

/-- A configuration makes a table that names what it says, unless it is refused for not being
sound. -/
theorem ofPairs_splits (pairs : List (String × NamespaceId)) :
    (IsConfiguration pairs ∧ ∃ table, ofPairs pairs = .ok table ∧ table.Names (orDefault pairs)) ∨
      (¬IsConfiguration pairs ∧ ∃ error, ofPairs pairs = .error error ∧ error.kind = .config) := by
  have none : IsConfiguration [] := ⟨by simp, List.nodup_nil, List.nodup_nil⟩
  rcases foldlM_addPair_splits names_empty none pairs with
    ⟨sound, last, fold, names⟩ | ⟨clash, error, fold, kind⟩
  · refine .inl ⟨sound, _, by rw [ofPairs, fold]; rfl, ?_⟩
    cases pairs with
    | nil => exact names_single
    | cons pair pairs => exact names
  · exact .inr ⟨clash, error, by rw [ofPairs, fold]; rfl, kind⟩

theorem exists_ofPairs_iff : (∃ table, ofPairs pairs = .ok table) ↔ IsConfiguration pairs := by
  rcases ofPairs_splits pairs with ⟨sound, table, run, -⟩ | ⟨clash, error, run, -⟩
  · exact iff_of_true ⟨table, run⟩ sound
  · refine iff_of_false (fun ⟨table, run'⟩ => ?_) clash
    cases run.symm.trans run'

theorem names_of_ofPairs (run : ofPairs pairs = .ok table) : table.Names (orDefault pairs) := by
  rcases ofPairs_splits pairs with ⟨-, found, run', names⟩ | ⟨-, error, run', -⟩
  · cases run.symm.trans run'
    exact names
  · cases run.symm.trans run'

theorem kind_of_ofPairs {error : Error} (run : ofPairs pairs = .error error) :
    error.kind = .config := by
  rcases ofPairs_splits pairs with ⟨-, found, run', -⟩ | ⟨-, error', run', kind⟩
  · cases run.symm.trans run'
  · cases run.symm.trans run'
    exact kind

theorem mem_orDefault_perm (perm : pairs.Perm pairs') (pair : String × NamespaceId) :
    pair ∈ orDefault pairs ↔ pair ∈ orDefault pairs' := by
  cases pairs with
  | nil => rw [perm.nil_eq]
  | cons first pairs =>
      cases pairs' with
      | nil => cases perm.eq_nil
      | cons first' pairs' => exact perm.mem_iff

/-- Pairs in another order make the same table, or none. -/
theorem toOption_ofPairs_perm (perm : pairs.Perm pairs') :
    (ofPairs pairs).toOption = (ofPairs pairs').toOption := by
  rcases ofPairs_splits pairs with ⟨sound, table, run, names⟩ | ⟨clash, error, run, -⟩
  · obtain ⟨table', run'⟩ := exists_ofPairs_iff.mpr (sound.perm perm)
    rw [run, run', names.unique (names_of_ofPairs run') (mem_orDefault_perm perm)]
  · rcases ofPairs_splits pairs' with ⟨sound, -⟩ | ⟨-, error', run', -⟩
    · exact absurd (sound.perm perm.symm) clash
    · rw [run, run']
      rfl

end Pairs

/-! ## Lines -/

/-- What a line says: nothing when it is silent; else its words are a name and a number of 16
bits. -/
inductive Says : List Char → Option (String × NamespaceId) → Prop
  | nothing {line} (silent : Silent line) : Says line none
  | pair {line number name ns} (speaks : ¬Silent line)
      (spaced : Spaced line [String.toList name, number])
      (natural : NaturalText number (UInt16.toNat ns)) : Says line (some (name, ns))

/-- The pairs that a text lists: it is made of lines with line feeds between them, each of which
says something or nothing. -/
inductive Lists : List Char → List (String × NamespaceId) → Prop
  | last {line said} (unbroken : '\n' ∉ line) (told : Says line said) : Lists line said.toList
  | next {line said rest pairs} (unbroken : '\n' ∉ line) (told : Says line said)
      (others : Lists rest pairs) : Lists (line ++ '\n' :: rest) (said.toList ++ pairs)

section Lines

variable {line : List Char} {said : Option (String × NamespaceId)}

theorem says_of_silent (silent : Silent line) : Says line said ↔ said = none := by
  constructor
  · intro told
    cases told with
    | nothing => rfl
    | pair speaks => exact absurd silent speaks
  · rintro rfl
    exact .nothing silent

/-- A line that is not silent says something when it has two words, the second of which is read as a
number. -/
theorem says_of_speaks (speaks : ¬Silent line) :
    Says line said ↔ ∃ name number ns, words (trim line) = [name, number] ∧
      readNat? UInt16.size number = some ns ∧
        said = some (String.ofList name, UInt16.ofNat ns) := by
  have words : ∀ found, words (trim line) = found ↔ Spaced line found := fun found => by
    rw [← words_eq_iff, (trims_trim line).words_eq]
  constructor
  · intro told
    cases told with
    | nothing silent => exact absurd silent speaks
    | @pair number name ns _ spaced natural =>
        refine ⟨_, number, ns.toNat, (words _).mpr spaced,
          readNat?_eq_some_iff.mpr ⟨natural, ns.toNat_lt⟩, ?_⟩
        rw [String.ofList_toList, UInt16.ofNat_toNat]
  · rintro ⟨name, number, ns, found, read, rfl⟩
    obtain ⟨natural, below⟩ := readNat?_eq_some_iff.mp read
    have same : (UInt16.ofNat ns).toNat = ns := UInt16.toNat_ofNat_of_lt below
    refine .pair speaks ?_ (same.symm ▸ natural)
    rw [String.toList_ofList]
    exact (words _).mp found

/-- Exactly what a line says is read from it, wherever it stands. -/
theorem readLine_eq_ok_iff {position : Nat} :
    readLine (line, position) = .ok said ↔ Says line said := by
  rw [readLine]
  dsimp only
  split
  · next skipped =>
    rw [says_of_silent (silent_iff.mpr skipped)]
    exact ⟨fun run => by cases run; rfl, fun same => by rw [same]⟩
  · next visible =>
    rw [says_of_speaks fun silent => visible (silent_iff.mp silent)]
    split
    · next name number found =>
      split
      · next ns read =>
        constructor
        · rintro ⟨⟩
          exact ⟨name, number, ns, found, read, rfl⟩
        · rintro ⟨name', number', ns', found', read', rfl⟩
          cases found.symm.trans found'
          cases read.symm.trans read'
          rfl
      · next unread =>
        refine iff_of_false (fun run => nomatch run) ?_
        rintro ⟨name', number', ns', found', read', -⟩
        cases found.symm.trans found'
        cases unread.symm.trans read'
    · next other =>
      refine iff_of_false (fun run => nomatch run) ?_
      rintro ⟨name, number, ns, found, -⟩
      exact other name number found

theorem kind_of_readLine {position : Nat} {error : Error}
    (run : readLine (line, position) = .error error) : error.kind = .config := by
  rw [readLine] at run
  dsimp only at run
  split at run
  · cases run
  · split at run
    · split at run
      · cases run
      · cases run
        rfl
    · cases run
      rfl

/-- A line says what is left of it after trimming. -/
theorem says_congr {line' : List Char} (same : trim line = trim line') :
    Says line said ↔ Says line' said := by
  rw [← @readLine_eq_ok_iff line said 0, ← @readLine_eq_ok_iff line' said 0, readLine, readLine]
  dsimp only
  rw [same]

/-- The carriage return at the end of a line is a blank. -/
theorem trim_dropReturn (line : List Char) : trim (dropReturn line) = trim line := by
  rw [dropReturn]
  split
  · next last =>
    obtain ⟨before, rfl⟩ := List.getLast?_eq_some_iff.mp last
    rw [List.dropLast_concat]
    exact ((trims_trim before).append (by decide)).trim_eq.symm
  · rfl

end Lines

/-! ## Texts -/

section Texts

variable {line rest : List Char} (unbroken : '\n' ∉ line)
include unbroken

theorem ne_feed_of_unbroken : ∀ c ∈ line, (c != '\n') = true := by
  intro c member
  exact bne_iff_ne.mpr fun feed => unbroken (feed ▸ member)

/-- A text without a line feed is one line, or none when it is empty. -/
theorem lines_of_unbroken : lines line = if line.isEmpty then [] else [line] := by
  have takes := ne_feed_of_unbroken unbroken
  rw [lines, List.takeWhile_eq_self_iff.mpr takes]
  split
  · rfl
  · next found =>
    rw [List.dropWhile_eq_nil_iff.mpr takes] at found
    cases found

/-- The first line of a text ends at its first line feed. -/
theorem lines_append : lines (line ++ '\n' :: rest) = dropReturn line :: lines rest := by
  have takes := ne_feed_of_unbroken unbroken
  have stops : ∀ c ∈ ('\n' :: rest).head?, (c != '\n') = false := fun c here => by
    cases here
    rfl
  rw [lines, takeWhile_append_of_stops takes stops]
  split
  · next found =>
    rw [dropWhile_append_of_stops takes stops] at found
    cases found
  · next found =>
    rw [dropWhile_append_of_stops takes stops] at found
    cases found
    rfl

end Texts

section Reading

variable {pairs : List (String × NamespaceId)} {table : NamespaceTable}

theorem reduceOption_cons {α : Type} (first : Option α) (rest : List (Option α)) :
    (first :: rest).reduceOption = first.toList ++ rest.reduceOption := by
  cases first with
  | none => exact List.reduceOption_cons_of_none rest
  | some item => exact List.reduceOption_cons_of_some item rest

/-- The lines of a text that lists pairs say these pairs, in order. -/
theorem Lists.exists_told {text : List Char} (listed : Lists text pairs) :
    ∃ said, List.Forall₂ Says (lines text) said ∧ said.reduceOption = pairs := by
  induction listed with
  | @last line said unbroken told =>
      rw [lines_of_unbroken unbroken]
      cases line with
      | nil =>
          obtain rfl := (says_of_silent ⟨[], trims_trim [], .inl rfl⟩).mp told
          exact ⟨[], .nil, rfl⟩
      | cons c line => exact ⟨[said], .cons told .nil, List.reduceOption_singleton said⟩
  | @next line said rest pairs unbroken told others ih =>
      obtain ⟨later, all, rfl⟩ := ih
      rw [lines_append unbroken]
      exact ⟨said :: later, .cons ((says_congr (trim_dropReturn line)).mpr told) all,
        reduceOption_cons said later⟩

/-- A text lists what its lines say. Its first line is left alone by those after it, so this goes
from line feed to line feed. -/
theorem lists_of_told {text : List Char} {said : List (Option (String × NamespaceId))}
    (all : List.Forall₂ Says (lines text) said) : Lists text said.reduceOption := by
  by_cases broken : '\n' ∈ text
  · obtain ⟨line, rest, split, unbroken⟩ := List.eq_append_cons_of_mem broken
    rw [split, lines_append unbroken] at all
    obtain ⟨first, later, told, others, rfl⟩ := List.forall₂_cons_left_iff.mp all
    rw [split, reduceOption_cons]
    exact .next unbroken ((says_congr (trim_dropReturn line)).mp told) (lists_of_told others)
  · rw [lines_of_unbroken broken] at all
    cases text with
    | nil =>
        obtain rfl := List.forall₂_nil_left_iff.mp all
        exact .last broken (.nothing ⟨[], trims_trim [], .inl rfl⟩)
    | cons c text =>
        obtain ⟨first, later, told, none, rfl⟩ := List.forall₂_cons_left_iff.mp all
        obtain rfl := List.forall₂_nil_left_iff.mp none
        rw [List.reduceOption_singleton]
        exact .last broken told
termination_by text.length
decreasing_by
  rw [split, List.length_append, List.length_cons]
  omega

theorem mapM_readLine_eq_ok_iff {lines : List (List Char)}
    {said : List (Option (String × NamespaceId))} :
    (lines.zipIdx 1).mapM readLine = .ok said ↔ List.Forall₂ Says lines said := by
  have numbered : List.Forall₂ Says ((lines.zipIdx 1).map Prod.fst) said ↔
      List.Forall₂ (fun line said => Says line.1 said) (lines.zipIdx 1) said :=
    List.forall₂_map_left_iff
  rw [List.zipIdx_map_fst] at numbered
  rw [mapM_eq_ok_iff, numbered]
  exact ⟨fun all => all.imp fun _ _ => readLine_eq_ok_iff.mp,
    fun all => all.imp fun _ _ => readLine_eq_ok_iff.mpr⟩

/-- A text that lists pairs is read as the table of these pairs. -/
theorem read_eq_ofPairs {text : String} (listed : Lists text.toList pairs) :
    read text = ofPairs pairs := by
  obtain ⟨said, all, rfl⟩ := listed.exists_told
  rw [read, mapM_readLine_eq_ok_iff.mpr all]
  rfl

/-- Only a text that lists pairs is read. -/
theorem exists_lists_of_read {text : String} (run : read text = .ok table) :
    ∃ pairs, Lists text.toList pairs ∧ ofPairs pairs = .ok table := by
  obtain ⟨said, all, run⟩ := except_bind_eq_ok.mp run
  exact ⟨said.reduceOption, lists_of_told (mapM_readLine_eq_ok_iff.mp all), run⟩

theorem kind_of_read {text : String} {error : Error} (run : read text = .error error) :
    error.kind = .config := by
  rcases mapM_splits readLine ((lines text.toList).zipIdx 1) with
    ⟨said, all⟩ | ⟨_, ⟨line, position⟩, fault, _, bad, all, _⟩
  · rw [read, all] at run
    exact kind_of_ofPairs run
  · rw [read, all] at run
    cases run
    exact kind_of_readLine bad

end Reading

/-- **A table is its configuration.** Pairs of names and numbers make a table exactly when the numbers
are small and neither names nor numbers repeat. The table contains these numbers by these names and
nothing else, or the default namespace when there are no pairs; it has one slot more than the largest
number says; and pairs in another order make the same one. A text is read exactly when it lists such
pairs, and as the table of these pairs. All other pairs and texts are refused as bad
configurations. -/
theorem tables_match_configurations :
    (∀ pairs, ((∃ table, ofPairs pairs = .ok table) ↔ IsConfiguration pairs) ∧
      (∀ table, ofPairs pairs = .ok table → table.Holds (orDefault pairs)) ∧
      ∀ error, ofPairs pairs = .error error → error.kind = .config) ∧
    (∀ pairs pairs', pairs.Perm pairs' →
      (ofPairs pairs).toOption = (ofPairs pairs').toOption) ∧
    ∀ text, ((∃ table, read text = .ok table) ↔
        ∃ pairs, Lists text.toList pairs ∧ IsConfiguration pairs) ∧
      (∀ pairs, Lists text.toList pairs → read text = ofPairs pairs) ∧
      ∀ error, read text = .error error → error.kind = .config := by
  refine ⟨fun pairs => ⟨exists_ofPairs_iff, fun table run => ?_, fun error => kind_of_ofPairs⟩,
    fun pairs pairs' => toOption_ofPairs_perm,
    fun text => ⟨⟨?_, ?_⟩, fun pairs => read_eq_ofPairs, fun error => kind_of_read⟩⟩
  · exact (names_of_ofPairs run).holds (orDefault_ne_nil pairs)
  · rintro ⟨table, run⟩
    obtain ⟨pairs, listed, made⟩ := exists_lists_of_read run
    exact ⟨pairs, listed, exists_ofPairs_iff.mp ⟨table, made⟩⟩
  · rintro ⟨pairs, listed, sound⟩
    obtain ⟨table, made⟩ := exists_ofPairs_iff.mpr sound
    exact ⟨table, (read_eq_ofPairs listed).trans made⟩

/-- Two namespaces with a number between them that has no name. -/
def gappedPairs : List (String × NamespaceId) := [("user", 0), ("item", 2)]

/-- A note, the two namespaces with an empty line between them, and a plus before one number. -/
def gappedText : String := "# types\nuser 0\r\n\n  item\t+2\n"

/-- The pairs make a table with three slots, the text is read as the same table, and so are the pairs
in the other order. Two names for one number make no table, and a name alone is not read. -/
theorem tables_match_configurations_gapped :
    IsConfiguration gappedPairs ∧ gappedPairs.Perm gappedPairs.reverse ∧
    Lists gappedText.toList gappedPairs ∧
    (∃ table, ofPairs gappedPairs = .ok table ∧ table.slots = 3 ∧
      table.name? 2 = some "item" ∧ table.contains 1 = false ∧
      (ofPairs gappedPairs.reverse).toOption = some table ∧ read gappedText = .ok table) ∧
    (∃ error, ofPairs [("user", 0), ("item", 0)] = .error error ∧ error.kind = .config) ∧
    ∃ error, read "user" = .error error ∧ error.kind = .config := by
  obtain ⟨makes, orders, reads⟩ := tables_match_configurations
  have sound : IsConfiguration gappedPairs := ⟨by decide, by decide, by decide⟩
  have perm : gappedPairs.Perm gappedPairs.reverse := by decide
  have all : ((lines gappedText.toList).zipIdx 1).mapM readLine =
      .ok [none, some ("user", 0), none, some ("item", 2)] :=
    except_toOption_eq_some.mp (by decide +kernel)
  have listed : Lists gappedText.toList gappedPairs :=
    lists_of_told (mapM_readLine_eq_ok_iff.mp all)
  obtain ⟨table, run⟩ := (makes gappedPairs).1.mpr sound
  have holds := (makes gappedPairs).2.1 table run
  have slots : table.slots = 3 := by
    obtain ⟨pair, member, slots, largest⟩ := holds.slots
    have above := largest ("item", 2) (by decide)
    have most : ∀ pair ∈ gappedPairs, pair.2.toNat ≤ 2 := by decide
    have most := most pair member
    change 2 ≤ pair.2.toNat at above
    omega
  have absent : table.contains 1 = false := by
    refine Bool.eq_false_iff.mpr fun found => ?_
    obtain ⟨name, member⟩ := (holds.contains 1).mp found
    have numbers : ∀ pair ∈ gappedPairs, pair.2 ≠ 1 := by decide
    exact numbers _ member rfl
  have clash : ¬IsConfiguration [("user", 0), ("item", 0)] := fun sound => by
    exact absurd sound.numbers (by decide)
  refine ⟨sound, perm, listed, ⟨table, run, slots, (holds.names 2 "item").mpr (by decide), absent, ?_,
    ((reads gappedText).2.1 gappedPairs listed).trans run⟩, ?_, ?_⟩
  · rw [← orders gappedPairs gappedPairs.reverse perm, run]
    rfl
  · cases refused : ofPairs [("user", 0), ("item", 0)] with
    | ok table => exact absurd ((makes _).1.mp ⟨table, refused⟩) clash
    | error error => exact ⟨error, rfl, (makes _).2.2 error refused⟩
  · cases refused : read "user" with
    | ok table =>
        have none : (read "user").toOption.isSome = false := by decide +kernel
        rw [refused] at none
        cases none
    | error error => exact ⟨error, rfl, (reads "user").2.2 error refused⟩

end ShardedGraph.NamespaceTable
