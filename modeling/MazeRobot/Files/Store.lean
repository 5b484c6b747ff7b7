/-! # File stores

What a program asks of the place where files are kept: to read a file, to list a folder, to write a
file. A request that cannot be met gives the reason.

* `FileFault`: a request that cannot be met.
* `FileStore`: the requests. -/

namespace MazeRobot

/-- Why a request on a path cannot be met. -/
inductive FileReason where
  /-- There is nothing at the path. -/
  | missing
  /-- A part of the path that should be a folder is none. -/
  | notFolder
  /-- There is a folder where a file should be. -/
  | isFolder
  /-- The path, or one of its parts, is too long. -/
  | tooLong
  /-- The path has a character that no path may have. -/
  | invalid
  /-- Something else. -/
  | other (message : String)
  deriving DecidableEq, Repr

/-- The words for a reason. -/
def FileReason.message : FileReason → String
  | missing => "no such file or directory"
  | notFolder => "not a directory"
  | isFolder => "is a directory"
  | tooLong => "file name too long"
  | invalid => "invalid argument"
  | other message => message

/-- A request that cannot be met. -/
structure FileFault where
  /-- What was being done. -/
  action : String
  /-- The path as it was given. -/
  path : String
  /-- Why it could not be done. -/
  reason : FileReason
  deriving DecidableEq, Repr

/-- What is said about a request that cannot be met. -/
def FileFault.message (fault : FileFault) : String :=
  fault.action ++ " " ++ fault.path ++ ": " ++ fault.reason.message

/-- An entry of a folder. -/
structure FolderEntry where
  /-- The name of the entry. -/
  name : String
  /-- Whether the entry is a folder itself. -/
  isFolder : Bool
  deriving DecidableEq, Repr

/-- A place where files are kept. -/
class FileStore (m : Type → Type) where
  /-- The bytes of a file. -/
  readFile : String → m (Except FileFault (List UInt8))
  /-- The entries of a folder, in the order of their names. -/
  listFolder : String → m (Except FileFault (List FolderEntry))
  /-- Makes a file hold the given bytes. -/
  writeFile : String → List UInt8 → m (Except FileFault Unit)

end MazeRobot
