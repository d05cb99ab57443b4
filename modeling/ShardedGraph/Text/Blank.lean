/-!
# Blanks and words

A blank is a character with the Unicode property White_Space. A text without its
outer blanks is trimmed, and its words are its longest runs without a blank.

Both readings work on lists of characters, so that laws about them are laws about
lists. Words are found one at a time: skip blanks, take a word, go on with the
shorter rest.
-/

set_option autoImplicit false

namespace ShardedGraph.Text

/-! ## Blanks -/

/-- The characters with the property White_Space. -/
def isBlank (c : Char) : Bool :=
  let n := c.toNat
  (decide (9 ≤ n) && decide (n ≤ 13)) || n == 0x20 || n == 0x85 || n == 0xA0 || n == 0x1680
    || (decide (0x2000 ≤ n) && decide (n ≤ 0x200A)) || n == 0x2028 || n == 0x2029
    || n == 0x202F || n == 0x205F || n == 0x3000

/-- The text without leading blanks. -/
def trimLeft (text : List Char) : List Char := text.dropWhile isBlank

/-- The text without trailing blanks. -/
def trimRight (text : List Char) : List Char := (text.reverse.dropWhile isBlank).reverse

/-- The text without outer blanks. -/
def trim (text : List Char) : List Char := trimRight (trimLeft text)

/-! ## Words -/

/-- The longest beginning of the text without a blank. -/
def firstWord (text : List Char) : List Char := text.takeWhile fun c => !isBlank c

/-- The text after its first word. -/
def afterWord (text : List Char) : List Char := text.dropWhile fun c => !isBlank c

/-- Dropping from the front of a list does not make it longer. -/
theorem length_dropWhile_le {α : Type _} (p : α → Bool) (l : List α) :
    (l.dropWhile p).length ≤ l.length :=
  (List.dropWhile_suffix p).length_le

/-- The longest runs without a blank, in order. -/
def words (text : List Char) : List (List Char) :=
  match _found : trimLeft text with
  | [] => []
  | c :: rest => (c :: firstWord rest) :: words (afterWord rest)
termination_by text.length
decreasing_by
  have shorter : (trimLeft text).length ≤ text.length := length_dropWhile_le _ _
  have shorterRest : (afterWord rest).length ≤ rest.length := length_dropWhile_le _ _
  simp only [_found, List.length_cons] at shorter
  omega

end ShardedGraph.Text
