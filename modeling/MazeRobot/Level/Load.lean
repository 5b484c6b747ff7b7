import MazeRobot.Files.Path
import MazeRobot.Files.Store
import MazeRobot.Level.Document

/-! # Levels in files

Levels that are kept in files, one document a file.

* `Level.load`: the level of a file.
* `Level.loadAll`: the levels of a folder, in the order of their numbers. -/

namespace MazeRobot.Level

/-- Why levels cannot be had from files. -/
inductive LoadError where
  /-- The file cannot be read. -/
  | unreadable (path : String) (fault : FileFault)
  /-- The folder cannot be listed. -/
  | unlistable (path : String) (fault : FileFault)
  /-- The document in the file gives no level. -/
  | document (path : String) (error : ParseError)
  /-- Two levels have the same number. -/
  | duplicate (found : Duplicate)
  deriving DecidableEq, Repr

namespace LoadError

/-- What is said about the error. -/
def message : LoadError → String
  | unreadable path fault => "level: read " ++ path ++ ": " ++ fault.message
  | unlistable path fault => "level: read dir " ++ path ++ ": " ++ fault.message
  | document path error => path ++ ": " ++ error.message
  | duplicate found => found.message

end LoadError

/-- The level that the bytes of a file give. -/
def ofBytes (path : String) (bytes : List UInt8) : Except LoadError Level :=
  match String.fromUTF8? ⟨bytes.toArray⟩ with
  | some text => (parse text).mapError (.document path)
  | none => .error (.document path .malformed)

/-- Whether a file name is that of a level. -/
def isLevelName (name : String) : Bool :=
  let ending := Text.lower (Path.extension name)
  ending = ".yaml" || ending = ".yml"

section Load

variable {m : Type → Type} [Monad m] [FileStore m]

/-- The level of a file. -/
def load (path : String) : m (Except LoadError Level) := do
  match ← FileStore.readFile path with
  | .ok bytes => return ofBytes path bytes
  | .error fault => return .error (.unreadable path fault)

/-- The levels of several files; the first error wins. -/
def loadEach : List String → m (Except LoadError (List Level))
  | [] => return .ok []
  | path :: rest => do
    match ← load path with
    | .error error => return .error error
    | .ok level =>
      match ← loadEach rest with
      | .error error => return .error error
      | .ok levels => return .ok (level :: levels)

/-- The levels of a folder, in the order of their numbers. Folders inside it, and files with other
names than levels have, do not count. -/
def loadAll (folder : String) : m (Except LoadError (List Level)) := do
  match ← FileStore.listFolder folder with
  | .error fault => return .error (.unlistable folder fault)
  | .ok entries =>
    let names := (entries.filter fun e => !e.isFolder && isLevelName e.name).map (·.name)
    match ← loadEach (names.map (Path.inside folder)) with
    | .error error => return .error error
    | .ok levels => return (arrange levels).mapError .duplicate

end Load

end MazeRobot.Level
