/-!
# Durations

A duration of whole milliseconds below one second is a number of milliseconds. A
longer one is a number of seconds with as many decimal places as it needs.
-/

set_option autoImplicit false

namespace ShardedGraph.Text

/-- The digits of a number of thousandths, without trailing zeros. -/
def thousandths (n : Nat) : List Char :=
  let digits := (Nat.toDigits 10 (1000 + n)).drop 1
  (digits.reverse.dropWhile (· == '0')).reverse

/-- A number of milliseconds as a duration. -/
def duration (milliseconds : Nat) : String :=
  if milliseconds = 0 then "0ns"
  else if milliseconds < 1000 then s!"{milliseconds}ms"
  else
    let places := thousandths (milliseconds % 1000)
    let point := if places.isEmpty then [] else '.' :: places
    toString (milliseconds / 1000) ++ String.ofList point ++ "s"

end ShardedGraph.Text
