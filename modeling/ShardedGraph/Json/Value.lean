import ShardedGraph.Json.Token

/-!
# JSON values

A value is read from tokens by a machine with a stack of unfinished arrays and objects,
so that a value may nest to any depth. The machine is a fold over the tokens: each token
either fits the state and gives the next one or ends the reading without a value.

Strings and numbers stay as they are written. Which strings and numbers are acceptable
depends on their use, and a value that nobody uses may hold any.
-/

set_option autoImplicit false

namespace ShardedGraph.Json

/-- A JSON value. Members of an object keep their order and may repeat. -/
inductive Value where
  | null
  | bool (value : Bool)
  | number (text : NumberText)
  | string (pieces : List Piece)
  | array (items : List Value)
  | object (members : List (List Piece × Value))

/-- An unfinished value; what it holds so far is in reverse. -/
inductive Frame where
  | array (done : List Value)
  | object (done : List (List Piece × Value)) (key : List Piece)

/-- What may come next. -/
inductive Awaiting where
  /-- A value. -/
  | value
  /-- A value, or the end of the array that was just opened. -/
  | firstItem
  /-- A key, or the end of the object that was just opened. -/
  | firstKey
  /-- A key of the object with these members. -/
  | key (done : List (List Piece × Value))
  /-- The colon after this key of the object with these members. -/
  | colon (done : List (List Piece × Value)) (key : List Piece)
  /-- A comma or an end, after this value. -/
  | after (value : Value)

/-- The state of the reading: the unfinished values, innermost first. -/
structure Reading where
  frames : List Frame
  awaiting : Awaiting

namespace Reading

/-- The value that a token is by itself. -/
def atom? : Token → Option Value
  | .null => some .null
  | .bool value => some (.bool value)
  | .number text => some (.number text)
  | .string pieces => some (.string pieces)
  | _ => none

/-- Takes a token where a value begins. -/
def beginValue? (frames : List Frame) : Token → Option Reading
  | .openArray => some ⟨.array [] :: frames, .firstItem⟩
  | .openObject => some ⟨frames, .firstKey⟩
  | token => (atom? token).map fun value => ⟨frames, .after value⟩

/-- Takes a token after a value. -/
def continueAfter? (frames : List Frame) (value : Value) (token : Token) : Option Reading :=
  match frames, token with
  | .array done :: outer, .comma => some ⟨.array (value :: done) :: outer, .value⟩
  | .array done :: outer, .closeArray =>
      some ⟨outer, .after (.array (value :: done).reverse)⟩
  | .object done key :: outer, .comma => some ⟨outer, .key ((key, value) :: done)⟩
  | .object done key :: outer, .closeObject =>
      some ⟨outer, .after (.object ((key, value) :: done).reverse)⟩
  | _, _ => none

/-- Takes one token. -/
def step? (reading : Reading) (token : Token) : Option Reading :=
  match reading.awaiting, token with
  | .firstItem, .closeArray => some ⟨reading.frames.drop 1, .after (.array [])⟩
  | .value, token | .firstItem, token => beginValue? reading.frames token
  | .firstKey, .closeObject => some ⟨reading.frames, .after (.object [])⟩
  | .firstKey, .string key => some ⟨reading.frames, .colon [] key⟩
  | .key done, .string key => some ⟨reading.frames, .colon done key⟩
  | .colon done key, .colon => some ⟨.object done key :: reading.frames, .value⟩
  | .after value, token => continueAfter? reading.frames value token
  | _, _ => none

/-- The value that a finished reading has. -/
def result? : Reading → Option Value
  | ⟨[], .after value⟩ => some value
  | _ => none

end Reading

/-- The value of a JSON text. -/
def read? (text : List Char) : Option Value := do
  let tokens ← tokens? text
  let reading ← tokens.foldlM Reading.step? ⟨[], .value⟩
  reading.result?

end ShardedGraph.Json
