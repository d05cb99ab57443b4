import Mathlib.Data.List.TakeWhile
import ShardedGraph.Text.Blank

/-!
# Texts made of blanks and words

A text is made of words that are kept apart by blanks (`Text.Spaced`). Blanks may stand before the
first word and after the last one, and at least one stands between two words; how many and which
ones is open. The reverse direction has no such choice: the words of a text are the only list that
it is made of (`Text.words_eq_iff`), and the trimmed text is the only part of it that blanks surround
and that neither begins nor ends with one (`Text.trim_eq_iff`).

So a text that is laid out from words reads as these words, however it is laid out, and outer blanks
may be added or trimmed off (`Text.Trims.words_eq`).
-/

set_option autoImplicit false

namespace ShardedGraph.Text

/-- Only blanks. -/
def IsBlanks (text : List Char) : Prop := ∀ c ∈ text, isBlank c = true

/-- At least one character, and no blank. -/
def IsWord (text : List Char) : Prop := text ≠ [] ∧ ∀ c ∈ text, isBlank c = false

instance (text : List Char) : Decidable (IsBlanks text) :=
  decidable_of_iff (text.all isBlank = true) List.all_eq_true

instance (text : List Char) : Decidable (IsWord text) :=
  decidable_of_iff (text ≠ [] ∧ (text.all fun c => !isBlank c) = true) (by simp [IsWord])

/-- A text that is made of words: blanks alone, or blanks and a word, after which the text ends or
goes on with a blank. -/
inductive Spaced : List Char → List (List Char) → Prop
  | blanks {text} (blank : IsBlanks text) : Spaced text []
  | word {lead word rest words} (blank : IsBlanks lead) (isWord : IsWord word)
      (apart : ∀ c ∈ rest.head?, isBlank c = true) (others : Spaced rest words) :
      Spaced (lead ++ (word ++ rest)) (word :: words)

/-- A line around which blanks have been trimmed off. -/
structure Trims (line text : List Char) : Prop where
  surrounded : ∃ lead trail, IsBlanks lead ∧ IsBlanks trail ∧ line = lead ++ (text ++ trail)
  begins : ∀ c ∈ text.head?, isBlank c = false
  ends : ∀ c ∈ text.getLast?, isBlank c = false

/-! ## Beginnings -/

section Beginnings

variable {α : Type} {p : α → Bool} {first rest : List α}

/-- What a test drops from a list goes on with an entry that fails it. -/
theorem stops_dropWhile (p : α → Bool) (list : List α) :
    ∀ x ∈ (list.dropWhile p).head?, p x = false := by
  intro x here
  have stops := List.head?_dropWhile_not p list
  rw [Option.mem_def.mp here] at stops
  exact stops

/-- Entries that pass a test, before one that does not, are those that the test takes. -/
theorem takeWhile_append_of_stops (all : ∀ x ∈ first, p x = true)
    (stops : ∀ x ∈ rest.head?, p x = false) : (first ++ rest).takeWhile p = first := by
  rw [List.takeWhile_append_of_pos all]
  cases rest with
  | nil => rw [List.takeWhile_nil, List.append_nil]
  | cons x rest =>
      rw [List.takeWhile_cons_of_neg (Bool.eq_false_iff.mp (stops x rfl)), List.append_nil]

theorem dropWhile_append_of_stops (all : ∀ x ∈ first, p x = true)
    (stops : ∀ x ∈ rest.head?, p x = false) : (first ++ rest).dropWhile p = rest := by
  rw [List.dropWhile_append_of_pos all]
  cases rest with
  | nil => rfl
  | cons x rest => exact List.dropWhile_cons_of_neg (Bool.eq_false_iff.mp (stops x rfl))

end Beginnings

/-! ## Words -/

theorem words_of_nil {text : List Char} (none : trimLeft text = []) : words text = [] := by
  rw [words]
  split
  · rfl
  · next found => rw [none] at found; cases found

theorem words_of_cons {text rest : List Char} {c : Char} (some : trimLeft text = c :: rest) :
    words text = (c :: firstWord rest) :: words (afterWord rest) := by
  rw [words]
  split
  · next found => rw [some] at found; cases found
  · next found => rw [some] at found; cases found; rfl

/-- A text is made of its words. -/
theorem spaced_words (text : List Char) : Spaced text (words text) := by
  fun_induction words text with
  | case1 text none => exact .blanks (List.dropWhile_eq_nil_iff.mp none)
  | case2 text c rest some ih =>
      have visible : isBlank c = false := stops_dropWhile isBlank text c (by
        change c ∈ (trimLeft text).head?
        rw [some]
        rfl)
      have whole : text = text.takeWhile isBlank ++ ((c :: firstWord rest) ++ afterWord rest) := by
        rw [firstWord, afterWord, List.cons_append, List.takeWhile_append_dropWhile, ← some]
        exact List.takeWhile_append_dropWhile.symm
      rw [whole]
      refine .word (fun c member => List.mem_takeWhile_imp member) ⟨List.cons_ne_nil _ _, ?_⟩ ?_ ih
      · refine List.forall_mem_cons.mpr ⟨visible, fun c member => ?_⟩
        simpa using List.mem_takeWhile_imp member
      · intro c here
        simpa using stops_dropWhile (fun c => !isBlank c) rest c here

/-- A text is made of no other words than its own. -/
theorem Spaced.words_eq {text : List Char} {found : List (List Char)} (spaced : Spaced text found) :
    words text = found := by
  induction spaced with
  | blanks blank => exact words_of_nil (List.dropWhile_eq_nil_iff.mpr blank)
  | @word lead word rest found blank isWord apart others ih =>
      obtain ⟨some, visible⟩ := isWord
      obtain ⟨c, word, rfl⟩ := List.exists_cons_of_ne_nil some
      obtain ⟨first, later⟩ := List.forall_mem_cons.mp visible
      have reached : trimLeft (lead ++ (c :: word ++ rest)) = c :: (word ++ rest) :=
        dropWhile_append_of_stops blank fun x here => Option.some.inj here ▸ first
      have takes : ∀ x ∈ word, (!isBlank x) = true := fun x member => by simp [later x member]
      have stops : ∀ x ∈ rest.head?, (!isBlank x) = false := fun x here => by simp [apart x here]
      rw [words_of_cons reached, firstWord, afterWord, takeWhile_append_of_stops takes stops,
        dropWhile_append_of_stops takes stops, ih]

/-- The words of a text are the only ones that it is made of. -/
theorem words_eq_iff {text : List Char} {found : List (List Char)} :
    words text = found ↔ Spaced text found :=
  ⟨fun same => same ▸ spaced_words text, Spaced.words_eq⟩

/-- A text begins with its first word when it does not begin with a blank. -/
theorem exists_words_of_visible {rest : List Char} {c : Char} (visible : isBlank c = false) :
    ∃ later, words (c :: rest) = (c :: firstWord rest) :: later :=
  ⟨_, words_of_cons (List.dropWhile_cons_of_neg (Bool.eq_false_iff.mp visible))⟩

/-! ## Layouts -/

/-- Words, each after a gap, and blanks at the end. -/
def layout (items : List (List Char × List Char)) (trail : List Char) : List Char :=
  items.flatMap (fun item => item.1 ++ item.2) ++ trail

/-- A layout of words is made of the words when their gaps are not empty. -/
theorem spaced_layout {items : List (List Char × List Char)} {trail : List Char}
    (gaps : ∀ item ∈ items, IsBlanks item.1 ∧ item.1 ≠ []) (isWords : ∀ item ∈ items, IsWord item.2)
    (blank : IsBlanks trail) :
    Spaced (layout items trail) (items.map Prod.snd) ∧
      ∀ c ∈ (layout items trail).head?, isBlank c = true := by
  induction items with
  | nil => exact ⟨.blanks blank, fun c here => blank c (List.mem_of_mem_head? here)⟩
  | cons item items ih =>
      obtain ⟨gap, others⟩ := List.forall_mem_cons.mp gaps
      obtain ⟨isWord, later⟩ := List.forall_mem_cons.mp isWords
      obtain ⟨spaced, apart⟩ := ih others later
      have laid : layout (item :: items) trail = item.1 ++ (item.2 ++ layout items trail) := by
        rw [layout, List.flatMap_cons, List.append_assoc, List.append_assoc]
        rfl
      rw [laid]
      refine ⟨.word gap.1 isWord apart spaced, fun c here => gap.1 c ?_⟩
      obtain ⟨first, rest, blanks⟩ := List.exists_cons_of_ne_nil gap.2
      rw [blanks] at here ⊢
      exact List.mem_of_mem_head? here

/-! ## Outer blanks -/

theorem IsBlanks.append {first second : List Char} (left : IsBlanks first)
    (right : IsBlanks second) : IsBlanks (first ++ second) :=
  List.forall_mem_append.mpr ⟨left, right⟩

theorem Spaced.prepend {lead text : List Char} {words : List (List Char)} (blank : IsBlanks lead)
    (spaced : Spaced text words) : Spaced (lead ++ text) words := by
  cases spaced with
  | blanks others => exact .blanks (blank.append others)
  | word others isWord apart spaced =>
      rw [← List.append_assoc]
      exact .word (blank.append others) isWord apart spaced

theorem Spaced.append {trail text : List Char} {words : List (List Char)}
    (spaced : Spaced text words) (blank : IsBlanks trail) : Spaced (text ++ trail) words := by
  induction spaced with
  | blanks others => exact .blanks (IsBlanks.append others blank)
  | @word lead word rest words others isWord apart spaced ih =>
      rw [List.append_assoc, List.append_assoc]
      refine .word others isWord (fun c here => ?_) ih
      cases rest with
      | nil => exact blank c (List.mem_of_mem_head? here)
      | cons first rest => exact apart c here

/-- Trimming leaves the words. -/
theorem Trims.words_eq {line text : List Char} (trims : Trims line text) :
    words line = words text := by
  obtain ⟨lead, trail, before, after, rfl⟩ := trims.surrounded
  exact Spaced.words_eq (((spaced_words text).append after).prepend before)

theorem trims_trim (line : List Char) : Trims line (trim line) := by
  have left : line = line.takeWhile isBlank ++ trimLeft line :=
    List.takeWhile_append_dropWhile.symm
  have right : trimLeft line =
      trim line ++ ((trimLeft line).reverse.takeWhile isBlank).reverse := by
    rw [trim, trimRight, ← List.reverse_append, List.takeWhile_append_dropWhile,
      List.reverse_reverse]
  refine ⟨⟨_, _, fun c member => List.mem_takeWhile_imp member, fun c member =>
    List.mem_takeWhile_imp (List.mem_reverse.mp member), by rw [← right]; exact left⟩, ?_, ?_⟩
  · intro c here
    refine stops_dropWhile isBlank line c ?_
    change c ∈ (trimLeft line).head?
    rw [right, List.head?_append, Option.mem_def.mp here]
    rfl
  · intro c here
    refine stops_dropWhile isBlank (trimLeft line).reverse c ?_
    rwa [trim, trimRight, List.getLast?_reverse] at here

theorem Trims.trim_eq {line text : List Char} (trims : Trims line text) : trim line = text := by
  obtain ⟨⟨lead, trail, before, after, rfl⟩, begins, ends⟩ := trims
  have behind : ∀ c ∈ trail.reverse, isBlank c = true := fun c member =>
    after c (List.mem_reverse.mp member)
  rw [trim, trimLeft, List.dropWhile_append_of_pos before]
  cases text with
  | nil =>
      rw [List.nil_append, List.dropWhile_eq_nil_iff.mpr after]
      rfl
  | cons c rest =>
      rw [List.cons_append, List.dropWhile_cons_of_neg (Bool.eq_false_iff.mp (begins c rfl)),
        ← List.cons_append, trimRight, List.reverse_append,
        dropWhile_append_of_stops behind (by rwa [List.head?_reverse]), List.reverse_reverse]

/-- Blanks that are added at the end are trimmed off. -/
theorem Trims.append {line text trail : List Char} (trims : Trims line text)
    (blank : IsBlanks trail) : Trims (line ++ trail) text := by
  obtain ⟨⟨lead, behind, before, after, rfl⟩, begins, ends⟩ := trims
  refine ⟨⟨lead, behind ++ trail, before, after.append blank, ?_⟩, begins, ends⟩
  rw [List.append_assoc, List.append_assoc]

/-- The trimmed line is the only text that is left when outer blanks are trimmed off. -/
theorem trim_eq_iff {line text : List Char} : trim line = text ↔ Trims line text :=
  ⟨fun same => same ▸ trims_trim line, Trims.trim_eq⟩

/-- A text without blanks has no outer blanks. -/
theorem trim_of_not_blank {text : List Char} (visible : ∀ c ∈ text, isBlank c = false) :
    trim text = text := by
  refine Trims.trim_eq ⟨⟨[], [], fun c member => absurd member List.not_mem_nil,
    fun c member => absurd member List.not_mem_nil, (List.append_nil text).symm⟩, ?_, ?_⟩
  · exact fun c here => visible c (List.mem_of_mem_head? here)
  · exact fun c here => visible c (List.mem_of_mem_getLast? here)

theorem isBlank_of_isDigit {c : Char} (digit : c.isDigit = true) : isBlank c = false := by
  rw [Char.isDigit, Bool.and_eq_true, decide_eq_true_iff, decide_eq_true_iff] at digit
  have low : 48 ≤ c.toNat := digit.1
  have high : c.toNat ≤ 57 := digit.2
  simp only [isBlank, Bool.or_eq_false_iff, Bool.and_eq_false_iff, decide_eq_false_iff_not,
    beq_eq_false_iff_ne]
  omega

end ShardedGraph.Text
