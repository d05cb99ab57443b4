/-!
# Lines

A line ends at a line feed; a carriage return right before the line feed belongs to
the end of the line and not to its content. A text that ends with a line feed has no
empty line after it, and a last line without a line feed keeps all of its characters.
-/

set_option autoImplicit false

namespace ShardedGraph.Text

/-- The content of a finished line: one trailing carriage return is dropped. -/
def dropReturn (line : List Char) : List Char :=
  if line.getLast? = some '\r' then line.dropLast else line

/-- The lines of a text, without their ends. -/
def lines (text : List Char) : List (List Char) :=
  let first := text.takeWhile (· != '\n')
  match _found : text.dropWhile (· != '\n') with
  | [] => if first.isEmpty then [] else [first]
  | _ :: rest => dropReturn first :: lines rest
termination_by text.length
decreasing_by
  have shorter : (text.dropWhile (· != '\n')).length ≤ text.length :=
    (List.dropWhile_suffix _).length_le
  simp only [_found, List.length_cons] at shorter
  omega

end ShardedGraph.Text
