import ShardedGraph.Json.Number
import ShardedGraph.Text.Hexadecimal

/-!
# Tokens of JSON text

A JSON text is a list of tokens between blanks: punctuation, the three words, numbers
and strings. A string keeps its escaped code units apart from its characters, because
whether two units form a character only matters where the string is used
(`characters?`).

A string holds no control characters, and its escapes are the eight with a letter and
`\u` with four hexadecimal digits.
-/

set_option autoImplicit false

namespace ShardedGraph.Json

/-! ## Strings -/

/-- A part of a string. -/
inductive Piece where
  /-- A character that stands for itself or has an escape letter. -/
  | char (c : Char)
  /-- An escaped code unit of 16 bits. -/
  | unit (value : Nat)
  deriving DecidableEq, Repr

/-- The character of an escape letter. -/
def escapeLetter? : Char → Option Char
  | '"' => some '"'
  | '\\' => some '\\'
  | '/' => some '/'
  | 'b' => some '\x08'
  | 'f' => some '\x0c'
  | 'n' => some '\n'
  | 'r' => some '\r'
  | 't' => some '\t'
  | _ => none

/-- Reads a string after its opening quote; `done` holds its parts in reverse. -/
def readString? (done : List Piece) : List Char → Option (List Piece × List Char)
  | [] => none
  | '"' :: rest => some (done.reverse, rest)
  | '\\' :: 'u' :: a :: b :: c :: d :: rest =>
      match Text.readHex? [a, b, c, d] with
      | some value => readString? (.unit value :: done) rest
      | none => none
  | '\\' :: letter :: rest =>
      match escapeLetter? letter with
      | some c => readString? (.char c :: done) rest
      | none => none
  | c :: rest => if c.toNat < 0x20 then none else readString? (.char c :: done) rest

theorem length_of_readString? {text rest : List Char} {done pieces : List Piece}
    (h : readString? done text = some (pieces, rest)) : rest.length < text.length := by
  fun_induction readString? done text <;> simp_all <;> omega

/-- Joins escaped code units to characters. A high unit needs a low unit right after it,
and a low unit stands nowhere else. -/
def characters? : List Piece → Option (List Char)
  | [] => some []
  | .char c :: rest => (characters? rest).map (c :: ·)
  | .unit high :: rest =>
      if 0xDC00 ≤ high ∧ high < 0xE000 then none
      else if 0xD800 ≤ high ∧ high < 0xDC00 then
        match rest with
        | .unit low :: after =>
            if 0xDC00 ≤ low ∧ low < 0xE000 then
              (characters? after).map
                (Char.ofNat (0x10000 + (high - 0xD800) * 0x400 + (low - 0xDC00)) :: ·)
            else none
        | _ => none
      else (characters? rest).map (Char.ofNat high :: ·)

/-! ## Tokens -/

/-- The smallest parts of a JSON text that mean something. -/
inductive Token where
  | openArray
  | closeArray
  | openObject
  | closeObject
  | comma
  | colon
  | null
  | bool (value : Bool)
  | number (text : NumberText)
  | string (pieces : List Piece)
  deriving DecidableEq, Repr

/-- The blanks between tokens. -/
def isBlank (c : Char) : Bool := c == ' ' || c == '\n' || c == '\t' || c == '\r'

/-- A token of one character. -/
def punctuation? : Char → Option Token
  | '[' => some .openArray
  | ']' => some .closeArray
  | '\x7b' => some .openObject
  | '\x7d' => some .closeObject
  | ',' => some .comma
  | ':' => some .colon
  | _ => none

/-- A word at the beginning of a text, and the text after it. -/
def readWord? : List Char → Option (Token × List Char)
  | 'n' :: 'u' :: 'l' :: 'l' :: rest => some (.null, rest)
  | 't' :: 'r' :: 'u' :: 'e' :: rest => some (.bool true, rest)
  | 'f' :: 'a' :: 'l' :: 's' :: 'e' :: rest => some (.bool false, rest)
  | _ => none

/-- A token at the beginning of a text without leading blanks, and the text after it. -/
def readToken? : List Char → Option (Token × List Char)
  | [] => none
  | c :: rest =>
      match punctuation? c with
      | some token => some (token, rest)
      | none =>
          if c == '"' then (readString? [] rest).map fun (pieces, after) => (.string pieces, after)
          else if c == '-' || c.isDigit then
            (readNumber? (c :: rest)).map fun (n, after) => (.number n, after)
          else readWord? (c :: rest)

theorem length_of_readWord? {text rest : List Char} {token : Token}
    (h : readWord? text = some (token, rest)) : rest.length < text.length := by
  unfold readWord? at h
  split at h <;> simp_all <;> omega

/-- A token takes at least one character. -/
theorem length_of_readToken? {text rest : List Char} {token : Token}
    (h : readToken? text = some (token, rest)) : rest.length < text.length := by
  unfold readToken? at h
  split at h
  · simp at h
  · next c after =>
    split at h
    · simp only [Option.some.injEq, Prod.mk.injEq] at h
      simp [h.2]
    · split at h
      · simp only [Option.map_eq_some_iff, Prod.mk.injEq] at h
        obtain ⟨⟨pieces, left⟩, found, equal⟩ := h
        have shorter := length_of_readString? found
        simp only [List.length_cons]
        rw [← equal.2]
        simp only
        omega
      · split at h
        · simp only [Option.map_eq_some_iff, Prod.mk.injEq] at h
          obtain ⟨⟨n, left⟩, found, equal⟩ := h
          have shorter := length_of_readNumber? found
          rw [← equal.2]
          exact shorter
        · exact length_of_readWord? h

/-- The tokens of a text; `done` holds the tokens before it in reverse. -/
def tokensFrom? (done : List Token) (text : List Char) : Option (List Token) :=
  match _start : text.dropWhile isBlank with
  | [] => some done.reverse
  | c :: rest =>
      match _found : readToken? (c :: rest) with
      | none => none
      | some (token, after) => tokensFrom? (token :: done) after
termination_by text.length
decreasing_by
  have skipped : (text.dropWhile isBlank).length ≤ text.length :=
    (List.dropWhile_suffix _).length_le
  have shorter := length_of_readToken? _found
  rw [_start] at skipped
  omega

/-- The tokens of a text. -/
def tokens? (text : List Char) : Option (List Token) := tokensFrom? [] text

end ShardedGraph.Json
