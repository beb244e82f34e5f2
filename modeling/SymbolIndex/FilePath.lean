import SymbolIndex.Text.Lines

/-!
# Paths

A path is the text that names a file.  Two spellings of a path can name the
same steps: `components` reads a path as the list of its steps, where repeated
and trailing slashes and inner dots disappear.  Paths are compared by their
components, so `a/b` comes before `a-b`.  `clean` gives the shortest spelling
that is found without looking at any file.
-/

namespace SymbolIndex

/-- A path as it is spelled. -/
structure FilePath where
  text : String
  deriving DecidableEq, Repr, Inhabited

namespace FilePath

inductive Component where
  /-- The directory at the top, named by a leading slash. -/
  | root
  /-- The directory that the path starts from, named by a leading dot. -/
  | here
  | up
  | name (entry : String)
  deriving DecidableEq, Repr

namespace Component

def rank : Component → Nat
  | root => 0
  | here => 1
  | up => 2
  | name _ => 3

/-- The order of steps: by shape, names by their characters. -/
def le : Component → Component → Bool
  | name a, name b => a ≤ b
  | a, b => a.rank ≤ b.rank

def text : Component → String
  | root => "/"
  | here => "."
  | up => ".."
  | name entry => entry

end Component

def pieces (path : FilePath) : List String :=
  (Text.splitOnChar '/' path.text.toList).map String.ofList

def isAbsolute (path : FilePath) : Bool :=
  path.text.toList.head? = some '/'

def endsWithSlash (path : FilePath) : Bool :=
  path.text.toList.getLast? = some '/'

/-- The step that a piece stands for, if it stands for one. -/
def stepOfPiece (piece : String) : Option Component :=
  if piece = "" || piece = "." then none
  else if piece = ".." then some .up
  else some (.name piece)

def components (path : FilePath) : List Component :=
  match path.pieces with
  | "" :: rest =>
    if path.text = "" then [] else .root :: rest.filterMap stepOfPiece
  | "." :: rest => .here :: rest.filterMap stepOfPiece
  | pieces => pieces.filterMap stepOfPiece

def sameSteps (a b : FilePath) : Bool :=
  a.components = b.components

/-- The order of lists of steps: step by step, a shorter list first. -/
def stepsLe : List Component → List Component → Bool
  | [], _ => true
  | _ :: _, [] => false
  | a :: as, b :: bs => if a = b then stepsLe as bs else a.le b

def le (a b : FilePath) : Bool :=
  stepsLe a.components b.components

/-- A path followed by another.  An absolute second path takes the place of
the first, and an empty one leaves a trailing slash. -/
def join (base path : FilePath) : FilePath :=
  if path.isAbsolute then path
  else if base.text = "" || base.endsWithSlash then ⟨base.text ++ path.text⟩
  else ⟨base.text ++ "/" ++ path.text⟩

def child (base : FilePath) (entry : String) : FilePath :=
  base.join ⟨entry⟩

def ofComponents (steps : List Component) : FilePath :=
  steps.foldl (fun path step => path.join ⟨step.text⟩) ⟨""⟩

def cleanStep (done : List Component) : Component → List Component
  | .here => done
  | .up =>
    match done with
    | .root :: _ => done
    | .name _ :: before => before
    | _ => .up :: done
  | step => step :: done

/-- The steps of a path with dots folded away and every `x/..` cancelled. -/
def cleanComponents (path : FilePath) : List Component :=
  (path.components.foldl cleanStep []).reverse

/-- The shortest spelling of a path that is found without looking at any file;
a dot if no step is left. -/
def clean (path : FilePath) : FilePath :=
  match path.cleanComponents with
  | [] => ⟨"."⟩
  | steps => ofComponents steps

/-- Whether a piece of a spelling stands for no step when it comes after others. -/
def isIdlePiece (piece : String) : Bool :=
  piece = "" || piece = "."

/-- The path of the directory that holds what a path names, spelled as in the
path itself.  The top directory and the empty path have none. -/
def parent? (path : FilePath) : Option FilePath :=
  match path.components with
  | [] | [.root] => none
  | _ =>
    -- the reversed pieces before the last step and without idle ones at the end
    match path.pieces with
    | [] => none
    | first :: rest =>
      match rest.reverse.dropWhile isIdlePiece with
      | [] => some ⟨""⟩
      | _ :: before =>
        match before.dropWhile isIdlePiece with
        | [] => some ⟨if first = "" then "/" else first⟩
        | kept => some ⟨String.intercalate "/" (first :: kept.reverse)⟩

/-- The directory in which a path's file is replaced: its parent, or the
working directory if the parent has no spelling. -/
def directory (path : FilePath) : FilePath :=
  match path.parent? with
  | some parent => if parent.text = "" then ⟨"."⟩ else parent
  | none => ⟨"."⟩

/-- A path, the directory that holds it, the one above, and so on, at most so
many. -/
def ancestorsWithin : Nat → FilePath → List FilePath
  | 0, path => [path]
  | fuel + 1, path =>
    match path.parent? with
    | some parent => path :: ancestorsWithin fuel parent
    | none => [path]

/-- A path, the directory that holds it, the one above, and so on. -/
def ancestors (path : FilePath) : List FilePath :=
  ancestorsWithin path.text.length path

def fileName? (path : FilePath) : Option String :=
  match path.components.getLast? with
  | some (.name entry) => some entry
  | _ => none

/-- What follows the last dot of a name, unless the name starts with it. -/
def extensionOfName (entry : String) : Option String :=
  let reversed := entry.toList.reverse
  match reversed.dropWhile (· ≠ '.') with
  | '.' :: _ :: _ => some (String.ofList (reversed.takeWhile (· ≠ '.')).reverse)
  | _ => none

def extension? (path : FilePath) : Option String :=
  path.fileName?.bind extensionOfName

/-- How many first steps two paths share. -/
def sharedSteps : List Component → List Component → Nat
  | a :: as, b :: bs => if a = b then sharedSteps as bs + 1 else 0
  | _, _ => 0

/-- A path as it is spelled from a directory: up to the steps that both share,
and down from there. -/
def relativeTo (path base : FilePath) : FilePath :=
  let shared := sharedSteps base.components path.components
  let ups := List.replicate (base.components.length - shared) Component.up
  ofComponents (ups ++ path.components.drop shared)

/-- The absolute form of a path that is read from `workingDirectory`.  Steps
up stay as they are, and so does a trailing slash.  Exactly two leading slashes
stay two. -/
def absoluteFrom (path workingDirectory : FilePath) : FilePath :=
  let steps :=
    match path.components with
    | .here :: rest | .root :: rest => rest
    | steps => steps
  let start : FilePath :=
    if path.isAbsolute then
      match path.text.toList with
      | '/' :: '/' :: '/' :: _ => ⟨"/"⟩
      | '/' :: '/' :: _ => ⟨"//"⟩
      | _ => ⟨"/"⟩
    else workingDirectory
  let whole := steps.foldl (fun built step => built.join ⟨step.text⟩) start
  if path.text = "" then path
  else if path.endsWithSlash then whole.join ⟨""⟩
  else whole

end FilePath

end SymbolIndex
