/-!
# Files

**The tree** (`FileTree`). Some paths of a file system hold a directory or the bytes of a file, and
every directory above them exists. A path is a list of names from the root.

**Looking up** (`lookup`). The text of a path is walked name by name from the working directory, or
from the root if it starts with a slash. A step from something that is no directory fails, even a
step to nowhere such as a slash at the end.

**Opening for appending** (`openForAppend`). Here the text of the path is simplified first, name by
name and without a look at the tree; the directory has to exist, and the file comes into being.
-/

namespace SemverRange

/-- What a path can hold. -/
inductive Entry where
  | directory
  | file (bytes : ByteArray)

/-- Files and directories by path, and the working directory. -/
structure FileTree where
  entries : List (List String × Entry)
  workingDirectory : List String

/-- What is found at a path. -/
inductive Lookup where
  | absent
  | notADirectory
  | nameTooLong
  | unusable
  | directory
  | file (bytes : ByteArray)

/-- Why a file cannot be opened. -/
inductive OpenError where
  | absent
  | isADirectory
  | notADirectory
  | nameTooLong
  /-- The path holds the character of code zero. -/
  | unusable
  deriving DecidableEq

namespace OpenError

/-- The number and wording of the error, if it comes from the file system. -/
def reason? : OpenError → Option (Nat × String)
  | absent => some (2, "No such file or directory")
  | isADirectory => some (21, "Is a directory")
  | notADirectory => some (20, "Not a directory")
  | nameTooLong => some (36, "File name too long")
  | unusable => none

end OpenError

namespace FileTree

/-- What is at a path of names. -/
def contents? (t : FileTree) (path : List String) : Option Entry :=
  match t.entries.lookup path with
  | some e => some e
  | none =>
    if path.isEmpty || path.isPrefixOf t.workingDirectory ||
        t.entries.any (path.isPrefixOf ·.1) then some .directory
    else none

/-- The greatest number of bytes in one name. -/
def nameLimit : Nat := 255

/-- The greatest number of bytes in the text of a path. -/
def pathLimit : Nat := 4095

/-- What is found on a walk along `names` that has come to `here`. -/
def walk (t : FileTree) (here : List String) : List String → Lookup
  | [] =>
    match t.contents? here with
    | none => .absent
    | some .directory => .directory
    | some (.file bytes) => .file bytes
  | name :: names =>
    match t.contents? here with
    | none => .absent
    | some (.file _) => .notADirectory
    | some .directory =>
      if name == "" || name == "." then t.walk here names
      else if name == ".." then t.walk here.dropLast names
      else if nameLimit < name.utf8ByteSize then .nameTooLong
      else t.walk (here ++ [name]) names

def names (path : String) : List String := (path.toList.splitOn '/').map String.ofList

/-- Where the walk along the text of a path starts. -/
def start (t : FileTree) (path : String) : List String :=
  if path.toList.head? == some '/' then [] else t.workingDirectory

def lookup (t : FileTree) (path : String) : Lookup :=
  if path.toList.contains '\x00' then .unusable
  else if path.isEmpty then .absent
  else if pathLimit < path.utf8ByteSize then .nameTooLong
  else t.walk (t.start path) (names path)

def hasFile (t : FileTree) (path : String) : Bool :=
  match t.lookup path with
  | .file _ => true
  | _ => false

def read (t : FileTree) (path : String) : Except OpenError ByteArray :=
  match t.lookup path with
  | .file bytes => .ok bytes
  | .directory => .error .isADirectory
  | .absent => .error .absent
  | .notADirectory => .error .notADirectory
  | .nameTooLong => .error .nameTooLong
  | .unusable => .error .unusable

/-! ## Opening for appending -/

/-- The path from `here` along `names`, by the names alone. -/
def simplify (here : List String) : List String → List String
  | [] => here
  | name :: names =>
    if name == "" || name == "." then simplify here names
    else if name == ".." then simplify here.dropLast names
    else simplify (here ++ [name]) names

/-- The simplified path, and what the file there holds so far. -/
def openForAppend (t : FileTree) (path : String) : Except OpenError (List String × ByteArray) :=
  if path.toList.contains '\x00' then .error .unusable
  else
    let target := simplify (t.start path) (names path)
    match t.walk [] target with
    | .file bytes => .ok (target, bytes)
    | .directory => .error .isADirectory
    | .notADirectory => .error .notADirectory
    | .nameTooLong => .error .nameTooLong
    | .unusable => .error .unusable
    | .absent =>
      match t.walk [] target.dropLast with
      | .directory => .ok (target, ByteArray.empty)
      | .file _ => .error .notADirectory
      | _ => .error .absent

/-- The tree in which the path of names holds a file with the given bytes. -/
def withFile (t : FileTree) (path : List String) (bytes : ByteArray) : FileTree :=
  { t with entries := (path, .file bytes) :: t.entries }

end FileTree

end SemverRange
