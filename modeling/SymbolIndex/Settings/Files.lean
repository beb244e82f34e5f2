import SymbolIndex.Settings.Variable
import SymbolIndex.Settings.Writer
import SymbolIndex.Toml.Reader

/-!
# Settings of a workspace

Where settings come from: first what is usual, over it what a file sets, and
over that what environment variables set.  The settings of a workspace are in
its directory `.symdex`, which marks it as one.
-/

namespace SymbolIndex

inductive SettingsError where
  | unreadable (shown : FilePath) (error : FileError)
  | malformed (shown : FilePath) (fault : String)
  | meaningless
  deriving DecidableEq

namespace SettingsError

def message : SettingsError → String
  | unreadable shown error => s!"{error.message} in {shown.text} TOML file"
  | malformed shown fault => s!"{fault} in {shown.text} TOML file"
  | meaningless => "invalid type or value of a setting"

end SettingsError

inductive SaveError where
  | noDirectory
  | files (error : FileError)
  | unprintable
  | alreadyThere
  deriving DecidableEq

namespace SaveError

def message : SaveError → String
  | noDirectory => "Invalid path"
  | files error => error.message
  | unprintable => "value is out of range"
  | alreadyThere =>
    "Configuration file already exists. Use --force to overwrite"

end SaveError

namespace Settings

/-- The directory that marks a workspace. -/
def directoryName : String := ".symdex"

def fileIn (dir : FilePath) : FilePath :=
  (dir.child directoryName).child "settings.toml"

def usualFile : FilePath :=
  FilePath.child ⟨directoryName⟩ "settings.toml"

def firstFile : List FilePath → Session (Option FilePath)
  | [] => return none
  | path :: rest => do
    if ← Session.isFile path then return some path else firstFile rest

/-- The file that a path leads to from the working directory, or from one of the
directories above it. -/
def findFile (path : FilePath) : Session (Option FilePath) := do
  if path.isAbsolute then firstFile [path]
  else
    let start ← Session.workingDirectory
    firstFile (start.ancestors.map (·.join path))

/-- A path as messages show it: from the working directory if that is shorter. -/
def showPath (workingDirectory path : FilePath) : FilePath :=
  let shown := path.relativeTo workingDirectory
  if shown.components.length < path.components.length then shown else path

/-- What the file at a path sets.  A file that is not there sets nothing. -/
def fileSettings (path : FilePath) : Attempt SettingsError SettingValue := do
  match ← (findFile path : Session _) with
  | none => return .table []
  | some file =>
    let shown := showPath (← Session.workingDirectory) file
    let text ← Attempt.ofSession (.unreadable shown) (Session.readText file)
    match Toml.read text with
    | .ok document => return .ofToml document
    | .error fault => throw (.malformed shown (fault.render text))

/-- Settings put over one another: what is usual, what a file sets, and what
environment variables set. -/
def layered? (processors : Nat) (file : SettingValue) (environment : List (String × String)) :
    Option Settings :=
  let below := (usual processors).toSetting
  ofSetting? (usual processors) ((below.overlaid file).overlaid (.ofEnvironment environment))

def loadFile (path : FilePath) : Attempt SettingsError Settings := do
  let file ← fileSettings path
  let processors ← Session.processors
  match layered? processors file (← Session.environment) with
  | some settings => return settings
  | none => throw .meaningless

def firstWorkspace : List FilePath → Session (Option FilePath)
  | [] => return none
  | dir :: rest => do
    if ← Session.isDirectory (dir.child directoryName) then return some dir
    else firstWorkspace rest

def workspaceRoot? : Session (Option FilePath) := do
  let start ← Session.workingDirectory
  firstWorkspace start.ancestors

def load : Attempt SettingsError Settings := do
  let root ← workspaceRoot?
  let settings ← loadFile ((root.map fileIn).getD usualFile)
  return { settings with workspaceRoot := settings.workspaceRoot <|> root }

def save (path : FilePath) (settings : Settings) : Attempt SaveError Unit := do
  match path.parent? with
  | none => throw .noDirectory
  | some dir =>
    Attempt.ofSession .files (Session.makeDirectories dir)
    match settings.print? with
    | none => throw .unprintable
    | some text => Attempt.ofSession .files (Session.writeFile path text.toUTF8)

/-- Makes the working directory a workspace with the usual settings.  Settings
that are there already are replaced only by force. -/
def create (force : Bool) : Attempt SaveError FilePath := do
  let isThere ← Session.pathExists usualFile
  if isThere && !force then throw .alreadyThere
  let root ← Session.workingDirectory
  save usualFile { usual (← Session.processors) with workspaceRoot := some root }
  return usualFile

end Settings

end SymbolIndex
