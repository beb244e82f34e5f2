import SymbolIndex.Entries
import SymbolIndex.FilePath

/-!
# Trees of files

A file system as a value: files with their bytes, in directories with named
entries.  Paths are followed step by step from the working directory, and every
step but the last has to end at a directory.  A path that ends with a slash
names a directory or nothing.
-/

namespace SymbolIndex

inductive FileError where
  | notFound
  | notDirectory
  | isDirectory
  | alreadyExists
  | busy
  | nameTooLong
  | nulInPath
  /-- Bytes that were expected to be text and are not. -/
  | notText
  /-- A reason of the machine's own. -/
  | other (reason : String)
  deriving DecidableEq, Repr

namespace FileError

def message : FileError → String
  | notFound => "No such file or directory (os error 2)"
  | notDirectory => "Not a directory (os error 20)"
  | isDirectory => "Is a directory (os error 21)"
  | alreadyExists => "File exists (os error 17)"
  | busy => "Device or resource busy (os error 16)"
  | nameTooLong => "File name too long (os error 36)"
  | nulInPath => "file name contained an unexpected NUL byte"
  | notText => "stream did not contain valid UTF-8"
  | other reason => reason

end FileError

inductive EntryKind where
  | file
  | directory
  deriving DecidableEq, Repr

inductive FileNode where
  | file (content : ByteArray)
  | directory (entries : List (String × FileNode))

namespace FileNode

def kind : FileNode → EntryKind
  | file _ => .file
  | directory _ => .directory

/-- The node reached through the given names. -/
def find? : FileNode → List String → Option FileNode
  | node, [] => some node
  | directory entries, name :: rest =>
    match entries.lookup name with
    | some inner => inner.find? rest
    | none => none
  | file _, _ :: _ => none

/-- A node with `value` at the given place.  Directories on the way have to be
there already. -/
def put : FileNode → FileNode → List String → FileNode
  | _, value, [] => value
  | directory entries, value, [name] => directory (setEntry name value entries)
  | directory entries, value, name :: rest =>
    match entries.lookup name with
    | some inner => directory (setEntry name (inner.put value rest) entries)
    | none => directory entries
  | file content, _, _ :: _ => file content

def remove : FileNode → List String → FileNode
  | node, [] => node
  | directory entries, [name] => directory (entries.filter fun entry => entry.1 ≠ name)
  | directory entries, name :: rest =>
    match entries.lookup name with
    | some inner => directory (setEntry name (remove inner rest) entries)
    | none => directory entries
  | file content, _ :: _ => file content

mutual

/-- A node and all nodes below it, with paths that go on from `path`. -/
def walk (path : FilePath) : FileNode → List (FilePath × EntryKind)
  | file _ => [(path, .file)]
  | directory entries => (path, .directory) :: walkEntries path entries

def walkEntries (path : FilePath) : List (String × FileNode) → List (FilePath × EntryKind)
  | [] => []
  | (name, node) :: rest => walk (path.child name) node ++ walkEntries path rest

end

end FileNode

/-- A file system: the top directory, and the names that lead to the working
directory. -/
structure FileTree where
  top : FileNode
  workingDirectory : List String

namespace FileTree

def maxNameSize : Nat := 255

def maxPathSize : Nat := 4095

def workingPath (tree : FileTree) : FilePath :=
  ⟨"/" ++ String.intercalate "/" tree.workingDirectory⟩

/-- The place after one more piece of a path.  The place before it has to be a
directory, and an entry that the piece names has to be there. -/
def step (tree : FileTree) (place : List String) (piece : String) :
    Except FileError (List String) :=
  match tree.top.find? place with
  | none => .error .notFound
  | some (.file _) => .error .notDirectory
  | some (.directory entries) =>
    if piece = "" || piece = "." then .ok place
    else if piece = ".." then .ok place.dropLast
    else if piece.utf8ByteSize > maxNameSize then .error .nameTooLong
    else if (entries.lookup piece).isSome then .ok (place ++ [piece])
    else .error .notFound

/-- The place that a path starts from, and its pieces.  A path without
characters, with NUL, or of too many bytes starts nowhere. -/
def start (tree : FileTree) (path : FilePath) :
    Except FileError (List String × List String) :=
  if path.text = "" then .error .notFound
  else if path.text.toList.contains '\x00' then .error .nulInPath
  else if path.text.utf8ByteSize > maxPathSize then .error .nameTooLong
  else .ok (if path.isAbsolute then [] else tree.workingDirectory, path.pieces)

/-- The place that a path leads to, where there has to be something. -/
def locate (tree : FileTree) (path : FilePath) : Except FileError (List String) := do
  let (place, pieces) ← tree.start path
  pieces.foldlM tree.step place

def node (tree : FileTree) (path : FilePath) : Except FileError FileNode := do
  let place ← tree.locate path
  match tree.top.find? place with
  | some node => .ok node
  | none => .error .notFound

def kind? (tree : FileTree) (path : FilePath) : Option EntryKind :=
  (tree.node path).toOption.map FileNode.kind

def read (tree : FileTree) (path : FilePath) : Except FileError ByteArray := do
  match ← tree.node path with
  | .file content => .ok content
  | .directory _ => .error .isDirectory

def list (tree : FileTree) (path : FilePath) :
    Except FileError (List (String × EntryKind)) := do
  match ← tree.node path with
  | .file _ => .error .notDirectory
  | .directory entries => .ok (entries.map fun (name, node) => (name, node.kind))

/-- What a path leads to and everything below it, with paths that go on from
the given one. -/
def walk (tree : FileTree) (path : FilePath) :
    Except FileError (List (FilePath × EntryKind)) := do
  return (← tree.node path).walk path

/-- The last piece of a path that is not empty, with the pieces before it. -/
def splitTarget (pieces : List String) : List String × Option String :=
  match pieces.reverse.dropWhile (· = "") with
  | [] => (pieces, none)
  | last :: before => (before.reverse, some last)

/-- The directory in which a path names an entry, and the entry's name.  The
entry need not be there.  A path whose last piece is a dot or two names no
entry. -/
def target (tree : FileTree) (path : FilePath) :
    Except FileError (Option (List String × String)) := do
  let (place, pieces) ← tree.start path
  match splitTarget pieces with
  | (_, none) => .ok none
  | (before, some last) =>
    let place ← before.foldlM tree.step place
    match tree.top.find? place with
    | some (.directory _) =>
      if last = "." || last = ".." then .ok none
      else if last.utf8ByteSize > maxNameSize then .error .nameTooLong
      else .ok (some (place, last))
    | _ => .error .notDirectory

def putAt (tree : FileTree) (place : List String) (node : FileNode) : FileTree :=
  { tree with top := tree.top.put node place }

def makeDirectory (tree : FileTree) (path : FilePath) : Except FileError FileTree := do
  match ← tree.target path with
  | none => .error .alreadyExists
  | some (place, name) =>
    match tree.top.find? (place ++ [name]) with
    | some _ => .error .alreadyExists
    | none => .ok (tree.putAt (place ++ [name]) (.directory []))

/-- Makes the first path of a list a directory.  Each path is followed by the
path of the directory that holds it. -/
def makeDirectoriesAlong : List FilePath → FileTree → Except FileError Unit × FileTree
  | [], tree => (.error .notFound, tree)
  | path :: above, tree =>
    if path.text = "" then (.ok (), tree)
    else
      let settle := fun (tree : FileTree) (error : FileError) =>
        if tree.kind? path = some .directory then (.ok (), tree) else (.error error, tree)
      match tree.makeDirectory path with
      | .ok tree => (.ok (), tree)
      | .error .notFound =>
        match makeDirectoriesAlong above tree with
        | (.ok (), tree) =>
          match tree.makeDirectory path with
          | .ok tree => (.ok (), tree)
          | .error error => settle tree error
        | failed => failed
      | .error error => settle tree error

/-- Makes a path a directory, with the directories above it that are missing.
Directories made before an error stay. -/
def makeDirectories (tree : FileTree) (path : FilePath) : Except FileError Unit × FileTree :=
  makeDirectoriesAlong path.ancestors tree

/-- A tree in which a file has the given bytes.  The file is made if it is not
there. -/
def write (tree : FileTree) (path : FilePath) (content : ByteArray) :
    Except FileError FileTree := do
  match ← tree.target path with
  | none => .error .isDirectory
  | some (place, name) =>
    match tree.top.find? (place ++ [name]) with
    | some (.directory _) => .error .isDirectory
    | _ =>
      if path.endsWithSlash then .error .isDirectory
      else .ok (tree.putAt (place ++ [name]) (.file content))

/-- The first name of a series that no entry has, tried at most so often. -/
def freshName (entries : List (String × FileNode)) : Nat → Nat → String
  | 0, number => s!".tmp{number}"
  | fuel + 1, number =>
    let name := s!".tmp{number}"
    if (entries.lookup name).isSome then freshName entries fuel (number + 1) else name

/-- A tree with a new empty file in a directory, and the file's path. -/
def makeTemporary (tree : FileTree) (dir : FilePath) :
    Except FileError (FilePath × FileTree) := do
  let place ← tree.locate dir
  match tree.top.find? place with
  | some (.directory entries) =>
    let path := dir.child (freshName entries entries.length 0)
    return (path, ← tree.write path .empty)
  | _ => .error .notDirectory

def removeFile (tree : FileTree) (path : FilePath) : Except FileError FileTree := do
  match ← tree.target path with
  | none => .error .isDirectory
  | some (place, name) =>
    match tree.top.find? (place ++ [name]) with
    | some (.file _) => .ok { tree with top := tree.top.remove (place ++ [name]) }
    | some (.directory _) => .error .isDirectory
    | none => .error .notFound

/-- A tree in which a file has moved to another path, in place of a file that
may be there. -/
def rename (tree : FileTree) (source destination : FilePath) :
    Except FileError FileTree := do
  match ← tree.target source, ← tree.target destination with
  | some (oldPlace, oldName), some (place, name) =>
    match tree.top.find? (oldPlace ++ [oldName]), tree.top.find? (place ++ [name]) with
    | none, _ => .error .notFound
    | some (.directory _), _ => .error .isDirectory
    | some _, some (.directory _) => .error .isDirectory
    | some moved, _ =>
      if destination.endsWithSlash then .error .notDirectory
      else if place ++ [name] = oldPlace ++ [oldName] then .ok tree
      else
        let top := (tree.top.remove (oldPlace ++ [oldName])).put moved (place ++ [name])
        .ok { tree with top }
  | _, _ => .error .busy

end FileTree

end SymbolIndex
