/-!
# Separated text

A text with separators consists of the parts between them. There is one part more than
there are separators, and parts may be empty.
-/

set_option autoImplicit false

namespace ShardedGraph.Text

/-- The parts of a text between separators. -/
def separated (separator : Char) (text : List Char) : List (List Char) :=
  text.foldr
    (fun c parts =>
      if c == separator then [] :: parts
      else
        match parts with
        | [] => [[c]]
        | part :: others => (c :: part) :: others)
    [[]]

end ShardedGraph.Text
