import MazeRobot.Files.Path
import MazeRobot.Files.Store
import MazeRobot.Text.Utf8

/-! # File trees

A file store as a value: the folder in which a program works, with all that is in it. Nothing is
known of what lies outside of this folder but that there are folders above it.

* `FileTree`: the files and folders.
* `FileTree.locate`: where a path leads.
* `FileTree.readFile`, `FileTree.listFolder`, `FileTree.writeFile`: the requests on a tree. -/

namespace MazeRobot

/-- The files and folders of a working folder. A location is the list of names that leads to it. -/
structure FileTree where
  /-- The files with their bytes. -/
  files : List (List String × List UInt8)
  /-- Folders, also empty ones. The folders above a file or folder need not be listed. -/
  folders : List (List String)
  deriving DecidableEq, Repr

namespace FileTree

/-- The working folder with nothing in it. -/
def empty : FileTree := ⟨[], []⟩

/-- The bytes of the file at a location. -/
def file? (tree : FileTree) (location : List String) : Option (List UInt8) :=
  tree.files.lookup location

/-- Whether there is a folder at a location. -/
def isFolder (tree : FileTree) (location : List String) : Bool :=
  location.isEmpty || tree.folders.any (location.isPrefixOf ·) ||
    tree.files.any fun (path, _) => location.isPrefixOf path && location ≠ path

/-- The tree in which the file at a location holds the given bytes. -/
def put (tree : FileTree) (location : List String) (bytes : List UInt8) : FileTree :=
  { tree with files := (location, bytes) :: tree.files.filter (·.1 ≠ location) }

/-- `file?` finds the bytes that `put` has put there. -/
@[simp] theorem file?_put_self (tree : FileTree) (location : List String) (bytes : List UInt8) :
    (tree.put location bytes).file? location = some bytes := by
  simp [file?, put]

/-- The tree with a folder at a location. -/
def addFolder (tree : FileTree) (location : List String) : FileTree :=
  { tree with folders := location :: tree.folders }

/-! ## Paths in a tree -/

/-- Where a path leads. -/
inductive Place where
  /-- A folder of the tree. -/
  | folder (location : List String)
  /-- A file of the tree. -/
  | file (location : List String) (bytes : List UInt8)
  /-- A place in a folder of the tree at which there is nothing. -/
  | vacant (location : List String)
  /-- A folder outside of the tree. -/
  | outside
  deriving DecidableEq, Repr

/-- The greatest number of bytes of a name. -/
def maxNameLength : Nat := 255

/-- The greatest number of bytes of a path. -/
def maxPathLength : Nat := 4095

/-- Follows names from a folder, whose location is given innermost name first; `none` stands for a
folder outside of the tree. -/
def follow (tree : FileTree) : Option (List String) → List String → Except FileReason Place
  | none, [] => .ok .outside
  | some above, [] => .ok (.folder above.reverse)
  | none, name :: rest =>
    if name = "" || name = "." || name = ".." then tree.follow none rest
    else if maxNameLength < Text.byteLength name then .error .tooLong
    else .error .missing
  | some above, name :: rest =>
    if name = "" || name = "." then tree.follow (some above) rest
    else if name = ".." then tree.follow above.tail? rest
    else if maxNameLength < Text.byteLength name then .error .tooLong
    else
      let location := (name :: above).reverse
      match tree.file? location with
      | some bytes => if rest.isEmpty then .ok (.file location bytes) else .error .notFolder
      | none =>
        if tree.isFolder location then tree.follow (some (name :: above)) rest
        else if rest.isEmpty then .ok (.vacant location)
        else .error .missing

/-- Where a path leads. -/
def locate (tree : FileTree) (path : String) : Except FileReason Place :=
  if path.isEmpty then .error .missing
  else if path.toList.contains (Char.ofNat 0) then .error .invalid
  else if maxPathLength < Text.byteLength path then .error .tooLong
  else if Path.isAbsolute path then tree.follow none (Path.parts path)
  else tree.follow (some []) (Path.parts path)

/-! ## Requests -/

/-- The bytes of a file. -/
def readFile (tree : FileTree) (path : String) : Except FileFault (List UInt8) :=
  match tree.locate path with
  | .error reason => .error ⟨"open", path, reason⟩
  | .ok (.file _ bytes) => .ok bytes
  | .ok (.vacant _) => .error ⟨"open", path, .missing⟩
  | .ok (.folder _) | .ok .outside => .error ⟨"read", path, .isFolder⟩

/-- The names of the entries of a folder, each once and in order. -/
def entryNames (tree : FileTree) (location : List String) : List String :=
  let below := (tree.files.map (·.1) ++ tree.folders).filterMap fun path =>
    if location.isPrefixOf path then (path.drop location.length).head? else none
  below.eraseDups.mergeSort

/-- The entries of a folder, in the order of their names. -/
def listFolder (tree : FileTree) (path : String) : Except FileFault (List FolderEntry) :=
  match tree.locate path with
  | .error reason => .error ⟨"open", path, reason⟩
  | .ok (.file _ _) => .error ⟨"open", path, .notFolder⟩
  | .ok (.vacant _) => .error ⟨"open", path, .missing⟩
  | .ok .outside => .ok []
  | .ok (.folder location) =>
    .ok ((tree.entryNames location).map fun name => ⟨name, tree.isFolder (location ++ [name])⟩)

/-- The tree in which the file at a path holds the given bytes. -/
def writeFile (tree : FileTree) (path : String) (bytes : List UInt8) :
    Except FileFault FileTree :=
  match tree.locate path with
  | .error reason => .error ⟨"open", path, reason⟩
  | .ok (.file location _) | .ok (.vacant location) => .ok (tree.put location bytes)
  | .ok (.folder _) | .ok .outside => .error ⟨"open", path, .isFolder⟩

end FileTree

/-- A file tree that changes serves as a file store. -/
instance : FileStore (StateM FileTree) where
  readFile path := do return (← get).readFile path
  listFolder path := do return (← get).listFolder path
  writeFile path bytes := do
    match (← get).writeFile path bytes with
    | .ok tree => set tree; return .ok ()
    | .error fault => return .error fault

end MazeRobot
