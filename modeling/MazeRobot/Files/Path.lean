import MazeRobot.Text.LowerCase

/-! # Paths

Paths are texts whose parts stand between slashes.

* `Path.parts`: the parts of a path.
* `Path.clean`: the shortest path with the same meaning, going by its text alone.
* `Path.inside`: the path of an entry of a folder.
* `Path.extension`: what a file name ends with, from its last dot on. -/

namespace MazeRobot.Path

/-- The pieces of a list of characters between slashes. -/
def split : List Char → List (List Char)
  | [] => [[]]
  | c :: rest =>
    if c = '/' then [] :: split rest
    else
      match split rest with
      | [] => [[c]]
      | part :: parts => (c :: part) :: parts

/-- The parts of a path between slashes, also empty ones. -/
def parts (path : String) : List String := (split path.toList).map String.ofList

/-- Whether a path starts at the root. -/
def isAbsolute (path : String) : Bool := path.toList.head? = some '/'

/-- The parts that matter, innermost first. A part for the folder above takes back the part before
it; at the root there is nothing above. -/
def reduce (absolute : Bool) (kept : List String) : List String → List String
  | [] => kept
  | part :: rest =>
    if part = "" || part = "." then reduce absolute kept rest
    else if part = ".." then
      match kept with
      | [] => reduce absolute (if absolute then [] else [".."]) rest
      | last :: outer =>
        if last = ".." then reduce absolute (".." :: kept) rest else reduce absolute outer rest
    else reduce absolute (part :: kept) rest

/-- The shortest path with the same meaning, going by its text alone. -/
def clean (path : String) : String :=
  let absolute := isAbsolute path
  let kept := String.intercalate "/" (reduce absolute [] (parts path)).reverse
  if absolute then "/" ++ kept else if kept.isEmpty then "." else kept

/-- The path of an entry of a folder. -/
def inside (folder name : String) : String :=
  if folder.isEmpty then clean name else clean (folder ++ "/" ++ name)

/-- What a name ends with, from its last dot on; nothing where it has no dot. -/
def extension (name : String) : String :=
  let cs := name.toList.reverse
  if cs.contains '.' then String.ofList ('.' :: (cs.takeWhile (· ≠ '.')).reverse) else ""

end MazeRobot.Path
