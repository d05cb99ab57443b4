import ShardedGraph.Error
import ShardedGraph.Number.Decimal
import ShardedGraph.Text.Blank
import ShardedGraph.Text.Lines
import Std.Data.ExtTreeMap

/-!
# Namespace tables

A namespace table gives names to namespaces. It is read from lines `name number`;
lines without words and lines that begin with `#` are skipped. No name and no number
occurs twice, and no number exceeds what the top bits of a node can hold.

**Slots.** Data by namespace is kept in lists with one slot for every number up to the
largest configured one (`NamespaceTable.slots`), so numbers between may be unnamed.
A table without entries is the table of one default namespace with number 0.
-/

set_option autoImplicit false

namespace ShardedGraph

/-- Names of namespaces, by number. -/
structure NamespaceTable where
  names : Std.ExtTreeMap NamespaceId String

namespace NamespaceTable

/-! ## Reading a table -/

/-- The name of the default namespace. -/
def defaultName : String := "EMPTY_CONFIG_FILE"

/-- The table of the default namespace. -/
def single : NamespaceTable := ⟨(∅ : Std.ExtTreeMap NamespaceId String).insert 0 defaultName⟩

/-- Whether a number has a name. -/
def contains (table : NamespaceTable) (ns : NamespaceId) : Bool := table.names.contains ns

/-- The name of a number. -/
def name? (table : NamespaceTable) (ns : NamespaceId) : Option String := table.names[ns]?

/-- The named numbers in ascending order, with their names. -/
def entries (table : NamespaceTable) : List (NamespaceId × String) := table.names.toList

/-- One more than the largest named number. -/
def slots (table : NamespaceTable) : Nat :=
  match table.names.keys.getLast? with
  | some largest => largest.toNat + 1
  | none => 0

/-! ## Making a table -/

/-- Adds a name with its number, both of which must be new. -/
def addPair (table : NamespaceTable) (pair : String × NamespaceId) :
    Except Error NamespaceTable :=
  let (name, ns) := pair
  if namespaceLimit ≤ ns.toNat then .error (.namespaceTooLarge ns)
  else if table.names.values.contains name then .error (.repeatedName name)
  else if table.contains ns then .error (.repeatedNamespace ns)
  else .ok ⟨table.names.insert ns name⟩

/-- The table of a list of names with their numbers. -/
def ofPairs (pairs : List (String × NamespaceId)) : Except Error NamespaceTable := do
  let table ← pairs.foldlM addPair ⟨∅⟩
  return if pairs.isEmpty then single else table

/-- Whether a trimmed line holds no entry. -/
def isSkipped (line : List Char) : Bool := line.isEmpty || line.head? == some '#'

/-- Reads a numbered line; a skipped line gives nothing. -/
def readLine (line : List Char × Nat) : Except Error (Option (String × NamespaceId)) :=
  let text := Text.trim line.1
  if isSkipped text then .ok none
  else
    match Text.words text with
    | [name, number] =>
        match Number.readNat? UInt16.size number with
        | some ns => .ok (some (String.ofList name, UInt16.ofNat ns))
        | none => .error (.badNamespaceNumber line.2 (String.ofList number))
    | _ => .error (.badNamespaceLine line.2 (String.ofList text))

/-- Reads a table from its lines. -/
def read (text : String) : Except Error NamespaceTable := do
  let pairs ← ((Text.lines text.toList).zipIdx 1).mapM readLine
  ofPairs (pairs.filterMap id)

end NamespaceTable

end ShardedGraph
