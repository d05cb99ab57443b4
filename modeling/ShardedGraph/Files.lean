import ShardedGraph.Error

/-!
# Files

A folder holds files with their octets, by name. Of the place where it lies nothing is
known but the length of the path that leads there. Reading a path gives the octets of the
file or says why there are none.

**Length.** A whole path must not be too long. A path that starts with a slash is whole;
any other one continues the path of the folder.

**Walking.** A path is walked step by step from the folder, or from above it when the path
starts with a slash. The first step that cannot be taken decides: a file has nothing below
it, not even itself; a name must be short enough; and no name is known above the folder.
A walk that ends in a folder reads nothing.
-/

set_option autoImplicit false

namespace ShardedGraph

/-- The files of a folder. -/
structure Folder where
  files : List (String × List UInt8)
  deriving DecidableEq, Repr

/-- Where a walk along a path has come to. -/
inductive Place where
  | above
  | folder
  /-- A file with its octets. -/
  | file (octets : List UInt8)
  deriving DecidableEq, Repr

namespace Folder

/-! ## Walking -/

/-- How many octets a name may have. -/
def nameLimit : Nat := 255

/-- How many octets a whole path may have. -/
def pathLimit : Nat := 4095

/-- How many octets the path of the folder has, with the slash at its end. -/
def ownLength : Nat := 16

/-- Whether a path starts above all folders. -/
def isWhole (path : String) : Bool := path.startsWith "/"

/-- How many octets the whole path has that a path stands for. -/
def wholeLength (path : String) : Nat :=
  if isWhole path then path.utf8ByteSize else ownLength + path.utf8ByteSize

/-- The octets of the file with the given name. -/
def find? (folder : Folder) (name : String) : Option (List UInt8) :=
  (folder.files.find? fun file => file.1 == name).map Prod.snd

/-- The place that a name leads to. -/
def enter (folder : Folder) (place : Place) (name : String) : Except FileFault Place :=
  if nameLimit < name.utf8ByteSize then .error .tooLong
  else
    match place, folder.find? name with
    | .folder, some octets => .ok (.file octets)
    | _, _ => .error .missing

/-- One step of a walk. -/
def step (folder : Folder) (place : Place) (name : String) : Except FileFault Place :=
  match place with
  | .file _ => .error .notInFolder
  | place =>
      if name = "" || name = "." then .ok place
      else if name = ".." then .ok .above
      else folder.enter place name

/-- The place at the end of a path. -/
def walk (folder : Folder) (path : String) : Except FileFault Place :=
  if path.toList.contains (Char.ofNat 0) then .error .nullCharacter
  else if pathLimit < wholeLength path then .error .tooLong
  else (path.splitOn "/").foldlM folder.step (if isWhole path then .above else .folder)

/-! ## Reading -/

/-- The octets of the file at a path. -/
def read (folder : Folder) (path : String) : Except Error (List UInt8) :=
  match folder.walk path with
  | .error fault => .error (.file fault)
  | .ok (.file octets) => .ok octets
  | .ok _ => .error (.file .folder)

/-- The text of the file at a path. -/
def readText (folder : Folder) (path : String) : Except Error String := do
  match Text.readUtf8 (← folder.read path) with
  | .ok text => return text
  | .error _ => throw (.file .notText)

end Folder

end ShardedGraph
