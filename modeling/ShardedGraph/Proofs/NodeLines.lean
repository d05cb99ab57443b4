import ShardedGraph.Graph.Line
import ShardedGraph.Proofs.Numerals
import ShardedGraph.Proofs.Running

/-!
# Which lines say something about a node

A line of a graph file is silent when nothing is left of it after trimming, or something that begins
with `#` (`NodeLine.Silent`). It says something about a node when it is made of the number of the
node and of pairs (`NodeLine.Tells`). No line is both, because no number begins with `#`.

Reading a line decides between the two, and refuses all other lines as bad data
(`NodeLine.read_spec`). Both ways are needed: what says something is read, and nothing else is.

**Layout.** A line that is laid out from a node and pairs says them, whatever blanks stand between
its words and around them, and whatever text that reads as a value stands for it
(`NodeLine.tells_rendered`).
-/

set_option autoImplicit false

namespace ShardedGraph.NodeLine

open Number Text

/-! ## Lines -/

/-- A pair of a number and a value, with a colon between them that is the first one. -/
inductive PairText : List Char → UInt64 × Single → Prop
  | pair {number value : List Char} {pair : UInt64 × Single} {decimal : Decimal}
      (first : ':' ∉ number) (natural : NaturalText number pair.1.toNat)
      (text : DecimalText value decimal) (rounded : decimal.nearest = pair.2) :
      PairText (number ++ ':' :: value) pair

/-- A line that says nothing. -/
def Silent (line : List Char) : Prop :=
  ∃ text, Trims line text ∧ (text = [] ∨ text.head? = some '#')

/-- A line that says something: its words are the number of a node, and pairs in order. -/
def Tells (line : List Char) (said : NodeLine) : Prop :=
  ∃ first tokens, Spaced line (first :: tokens) ∧ NaturalText first said.node.toNat ∧
    List.Forall₂ PairText tokens said.pairs

/-! ## Tokens -/

theorem readWord?_eq_some_iff {text : List Char} {word : UInt64} :
    readWord? text = some word ↔ NaturalText text word.toNat := by
  rw [readWord?, Option.map_eq_some_iff]
  constructor
  · rintro ⟨n, found, rfl⟩
    obtain ⟨natural, below⟩ := readNat?_eq_some_iff.mp found
    have same : (UInt64.ofNat n).toNat = n := UInt64.toNat_ofNat_of_lt below
    rwa [same]
  · intro natural
    exact ⟨word.toNat, readNat?_eq_some_iff.mpr ⟨natural, word.toNat_lt⟩, UInt64.ofNat_toNat⟩

/-- Exactly the texts of pairs are read as pairs. -/
theorem readPair?_eq_some_iff {token : List Char} {pair : UInt64 × Single} :
    readPair? token = some pair ↔ PairText token pair := by
  constructor
  · intro found
    have whole : token = token.takeWhile (· != ':') ++ token.dropWhile (· != ':') :=
      List.takeWhile_append_dropWhile.symm
    have absent : ':' ∉ token.takeWhile (· != ':') := fun member => by
      simpa using List.mem_takeWhile_imp member
    have stops := stops_dropWhile (· != ':') token
    rw [readPair?] at found
    generalize token.takeWhile (· != ':') = number, token.dropWhile (· != ':') = rest at *
    subst whole
    split at found
    · cases found
    · next colon value =>
      have same : colon = ':' := by simpa using stops colon rfl
      subst same
      obtain ⟨word, read, rest⟩ := Option.bind_eq_some_iff.mp found
      obtain ⟨x, read', done⟩ := Option.bind_eq_some_iff.mp rest
      cases done
      obtain ⟨decimal, text, rounded⟩ := (Binary.read?_eq_some_iff (by decide)).mp read'
      exact .pair absent (readWord?_eq_some_iff.mp read) text rounded
  · rintro @⟨number, value, pair, decimal, first, natural, text, rounded⟩
    have takes : ∀ c ∈ number, (c != ':') = true := fun c member =>
      bne_iff_ne.mpr fun colon => first (colon ▸ member)
    have stops : ∀ c ∈ (':' :: value).head?, (c != ':') = false := fun c here => by
      cases here
      rfl
    have read := readWord?_eq_some_iff.mpr natural
    have read' := (Binary.read?_eq_some_iff (by decide)).mpr ⟨decimal, text, rounded⟩
    rw [readPair?, dropWhile_append_of_stops takes stops, takeWhile_append_of_stops takes stops]
    dsimp only
    rw [read, read']
    rfl

theorem readPair_eq_ok_iff {node : NodeId} {token : List Char} {pair : UInt64 × Single} :
    readPair node token = .ok pair ↔ PairText token pair := by
  rw [← readPair?_eq_some_iff, readPair]
  cases readPair? token with
  | none => exact iff_of_false (fun run => nomatch run) (fun found => nomatch found)
  | some found => exact ⟨fun run => by cases run; rfl, fun same => by cases same; rfl⟩

theorem kind_of_readPair {node : NodeId} {token : List Char} {error : Error}
    (run : readPair node token = .error error) : error.kind = .data := by
  rw [readPair] at run
  split at run
  · cases run
  · cases run
    rfl

/-! ## Reading -/

theorem silent_iff {line : List Char} :
    Silent line ↔ ((trim line).isEmpty || (trim line).head? == some '#') = true := by
  simp [Silent, ← trim_eq_iff]

/-- A line that is not silent has a first word, which must be the number of a node. -/
theorem read_of_not_silent {line : List Char} (speaks : ¬Silent line) :
    ∃ first tokens, Spaced line (first :: tokens) ∧
      read line = match readWord? first with
        | none => .error (.badNode (String.ofList (trim line)))
        | some node => (fun pairs => some ⟨node, pairs⟩) <$> tokens.mapM (readPair node) := by
  have trims := trims_trim line
  rw [silent_iff] at speaks
  cases text : trim line with
  | nil => exact absurd (by rw [text]; rfl) speaks
  | cons c rest =>
      rw [text] at trims
      obtain ⟨later, found⟩ := @exists_words_of_visible rest c (trims.begins c rfl)
      refine ⟨c :: firstWord rest, later, words_eq_iff.mp (trims.words_eq.trans found), ?_⟩
      rw [read]
      dsimp only
      rw [if_neg speaks, text, found]
      dsimp only
      cases readWord? (c :: firstWord rest) with
      | none => rfl
      | some node =>
          dsimp only
          cases later.mapM (readPair node) with
          | error error => rfl
          | ok pairs => rfl

theorem read_of_silent {line : List Char} (silent : Silent line) : read line = .ok none := by
  rw [read]
  dsimp only
  rw [if_pos (silent_iff.mp silent)]
  rfl

/-- A line that says something is not silent: its first word is a number, and none begins with
`#`. -/
theorem Tells.not_silent {line : List Char} {said : NodeLine} (tells : Tells line said) :
    ¬Silent line := by
  rintro ⟨text, trims, nothing⟩
  obtain ⟨first, tokens, spaced, natural, -⟩ := tells
  have found : words text = first :: tokens := trims.words_eq.symm.trans spaced.words_eq
  rcases nothing with rfl | head
  · cases (words_of_nil rfl).symm.trans found
  · obtain ⟨rest, rfl⟩ := List.head?_eq_some_iff.mp head
    obtain ⟨later, own⟩ := @exists_words_of_visible rest '#' rfl
    obtain ⟨rfl, -⟩ := List.cons.inj (own.symm.trans found)
    rcases natural.begins '#' rfl with digit | plus
    · cases digit
    · exact absurd plus (by decide)

theorem read_eq_none_iff {line : List Char} : read line = .ok none ↔ Silent line := by
  refine ⟨fun run => ?_, read_of_silent⟩
  by_contra speaks
  obtain ⟨first, tokens, -, same⟩ := read_of_not_silent speaks
  rw [run] at same
  cases word : readWord? first with
  | none =>
      rw [word] at same
      cases same
  | some node =>
      rw [word] at same
      obtain ⟨pairs, -, said⟩ := except_map_eq_ok.mp same.symm
      cases said

theorem read_eq_some_iff {line : List Char} {said : NodeLine} :
    read line = .ok (some said) ↔ Tells line said := by
  by_cases silent : Silent line
  · rw [read_of_silent silent]
    exact iff_of_false (fun run => nomatch run) fun tells => tells.not_silent silent
  · obtain ⟨first, tokens, spaced, same⟩ := read_of_not_silent silent
    rw [same]
    constructor
    · intro run
      cases word : readWord? first with
      | none =>
          rw [word] at run
          cases run
      | some node =>
          rw [word] at run
          obtain ⟨pairs, read, told⟩ := except_map_eq_ok.mp run
          cases told
          exact ⟨first, tokens, spaced, readWord?_eq_some_iff.mp word,
            (mapM_eq_ok_iff.mp read).imp fun _ _ => readPair_eq_ok_iff.mp⟩
    · rintro ⟨first', tokens', spaced', natural, pairs⟩
      obtain ⟨rfl, rfl⟩ := List.cons.inj (spaced.words_eq.symm.trans spaced'.words_eq)
      rw [readWord?_eq_some_iff.mpr natural]
      exact except_map_eq_ok.mpr ⟨said.pairs, mapM_eq_ok_iff.mpr
        (pairs.imp fun _ _ => readPair_eq_ok_iff.mpr), rfl⟩

/-- A line that is not read is bad data. -/
theorem kind_of_read {line : List Char} {error : Error} (run : read line = .error error) :
    error.kind = .data := by
  by_cases silent : Silent line
  · rw [read_of_silent silent] at run
    cases run
  · obtain ⟨first, tokens, -, same⟩ := read_of_not_silent silent
    rw [run] at same
    cases word : readWord? first with
    | none =>
        rw [word] at same
        cases same
        rfl
    | some node =>
        rw [word] at same
        dsimp only at same
        rcases mapM_splits (readPair node) tokens with
          ⟨pairs, read⟩ | ⟨_, token, fault, _, bad, read, _⟩
        · rw [read] at same
          cases same
        · rw [read] at same
          cases same
          exact kind_of_readPair bad

/-! ## Layouts -/

/-- The text of a pair, with a text for its value. -/
def printPair (print : Single → List Char) (pair : UInt64 × Single) : List Char :=
  Nat.toDigits 10 pair.1.toNat ++ ':' :: print pair.2

/-- The line of a node and of pairs, each after a gap, with blanks before and behind. -/
def rendered (print : Single → List Char) (lead : List Char) (node : NodeId)
    (items : List (List Char × UInt64 × Single)) (trail : List Char) : List Char :=
  lead ++ (Nat.toDigits 10 node.toNat ++
    layout (items.map fun item => (item.1, printPair print item.2)) trail)

/-- A text that reads as the value of a pair makes a text of the pair. -/
theorem pairText_printPair {print : Single → List Char} {pair : UInt64 × Single}
    (reads : Binary.read? (print pair.2) = some pair.2) : PairText (printPair print pair) pair := by
  obtain ⟨decimal, text, rounded⟩ := (Binary.read?_eq_some_iff (by decide)).mp reads
  refine .pair (fun member => ?_) (naturalText_toDigits _) text rounded
  exact absurd (isDigit_of_mem_toDigits member) (by decide)

theorem PairText.isWord {token : List Char} {pair : UInt64 × Single} (text : PairText token pair) :
    IsWord token := by
  cases text with
  | pair first natural text rounded =>
      exact ⟨List.append_ne_nil_of_left_ne_nil natural.isWord.1 _, List.forall_mem_append.mpr
        ⟨natural.isWord.2, List.forall_mem_cons.mpr ⟨rfl, text.isWord.2⟩⟩⟩

/-- A line says what it is laid out from. -/
theorem tells_rendered {print : Single → List Char} {lead trail : List Char} {node : NodeId}
    {items : List (List Char × UInt64 × Single)} (before : IsBlanks lead) (after : IsBlanks trail)
    (gaps : ∀ item ∈ items, IsBlanks item.1 ∧ item.1 ≠ [])
    (reads : ∀ item ∈ items, Binary.read? (print item.2.2) = some item.2.2) :
    Tells (rendered print lead node items trail) ⟨node, items.map Prod.snd⟩ := by
  have natural := naturalText_toDigits node.toNat
  have texts : ∀ item ∈ items, PairText (printPair print item.2) item.2 := fun item member =>
    pairText_printPair (reads item member)
  obtain ⟨spaced, apart⟩ := @spaced_layout
    (items.map fun item => (item.1, printPair print item.2)) trail
    (List.forall_mem_map.mpr gaps)
    (List.forall_mem_map.mpr fun item member => (texts item member).isWord) after
  refine ⟨_, _, .word before natural.isWord apart spaced, natural, ?_⟩
  rw [List.map_map, List.forall₂_map_left_iff, List.forall₂_map_right_iff, List.forall₂_same]
  exact texts

/-- **What a line says.** A line is read as saying nothing exactly when it is silent, and as saying
something about a node exactly when it is made of this node and these pairs; every other line is
refused as bad data. So a line that is laid out from a node and pairs, whose values are printed as
texts that read as the values, is read as this node and these pairs. -/
theorem read_spec :
    (∀ line, (read line = .ok none ↔ Silent line) ∧
      (∀ said, read line = .ok (some said) ↔ Tells line said) ∧
      (¬Silent line → (∀ said, ¬Tells line said) →
        ∃ error, read line = .error error ∧ error.kind = .data)) ∧
    ∀ print lead node items trail, IsBlanks lead → IsBlanks trail →
      (∀ item ∈ items, IsBlanks item.1 ∧ item.1 ≠ []) →
      (∀ item ∈ items, Binary.read? (print item.2.2) = some item.2.2) →
        read (rendered print lead node items trail) = .ok (some ⟨node, items.map Prod.snd⟩) := by
  refine ⟨fun line => ⟨read_eq_none_iff, fun said => read_eq_some_iff, fun speaks tells => ?_⟩, ?_⟩
  · cases run : read line with
    | error error => exact ⟨error, rfl, kind_of_read run⟩
    | ok found =>
        cases found with
        | none => exact absurd (read_eq_none_iff.mp run) speaks
        | some said => exact absurd (read_eq_some_iff.mp run) (tells said)
  · intro print lead node items trail before after gaps reads
    exact read_eq_some_iff.mpr (tells_rendered before after gaps reads)

/-- Two pairs, after a tab and after two spaces. -/
def gappedPairs : List (List Char × UInt64 × Single) :=
  [(['\t'], 1, .ofDyadic 1 1), ([' ', ' '], 2, 1)]

/-- Two pairs between wide blanks are read back, a line that begins with `#` is silent, and a hyphen
is no colon. -/
theorem read_spec_gapped :
    IsBlanks [' '] ∧ IsBlanks ['\r'] ∧
    (∀ item ∈ gappedPairs, IsBlanks item.1 ∧ item.1 ≠ []) ∧
    (∀ item ∈ gappedPairs, Binary.read? item.2.2.text.toList = some item.2.2) ∧
    read (rendered (·.text.toList) [' '] 7 gappedPairs ['\r']) =
      .ok (some ⟨7, gappedPairs.map Prod.snd⟩) ∧
    Silent " # note".toList ∧ ¬Silent "1 2-3".toList ∧ (∀ said, ¬Tells "1 2-3".toList said) ∧
    ∃ error, read "1 2-3".toList = .error error ∧ error.kind = .data := by
  obtain ⟨decides, lays⟩ := read_spec
  have before : IsBlanks [' '] := by decide
  have after : IsBlanks ['\r'] := by decide
  have gaps : ∀ item ∈ gappedPairs, IsBlanks item.1 ∧ item.1 ≠ [] := by decide +kernel
  have reads : ∀ item ∈ gappedPairs, Binary.read? item.2.2.text.toList = some item.2.2 := by
    have numbers : ∀ item ∈ gappedPairs, item.2.2.isNaN = false := by decide +kernel
    exact fun item member => Binary.read?_text (by decide) (numbers item member)
  obtain ⟨none, some, refuses⟩ := decides "1 2-3".toList
  have refused : (read "1 2-3".toList).toOption = .none := by decide +kernel
  have speaks : ¬Silent "1 2-3".toList := fun silent => by
    rw [none.mpr silent] at refused
    cases refused
  have tells : ∀ said, ¬Tells "1 2-3".toList said := fun said tells => by
    rw [(some said).mpr tells] at refused
    cases refused
  exact ⟨before, after, gaps, reads, lays _ _ _ _ _ before after gaps reads,
    (decides " # note".toList).1.mp (by decide +kernel), speaks, tells, refuses speaks tells⟩

end ShardedGraph.NodeLine
