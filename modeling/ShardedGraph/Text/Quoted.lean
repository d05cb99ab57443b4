import ShardedGraph.Text.Hexadecimal
import ShardedGraph.Text.Visible

/-!
# Quoted text

A text in messages about data stands between double quotes. The quote and the
backslash are escaped with a backslash, four controls have a letter (`\t`, `\r`,
`\n`, `\0`), and every other character that is not visible is its code point in
lower-case hexadecimal digits, as in `\u{7f}`.
-/

set_option autoImplicit false

namespace ShardedGraph.Text

/-- How one character stands between quotes. -/
def quoteChar (c : Char) : List Char :=
  match c with
  | '"' => ['\\', '"']
  | '\\' => ['\\', '\\']
  | '\t' => ['\\', 't']
  | '\r' => ['\\', 'r']
  | '\n' => ['\\', 'n']
  | '\x00' => ['\\', '0']
  | _ =>
      if isVisible c then [c]
      else ['\\', 'u', '\x7b'] ++ hexDigits c.toNat ++ ['\x7d']

/-- A text between quotes. -/
def quote (text : String) : String :=
  String.ofList ('"' :: text.toList.flatMap quoteChar ++ ['"'])

end ShardedGraph.Text
