/-! # Edit distance

The least number of insertions, deletions and replacements of single characters that turn one text
into another.

* `editDistance`: the distance, computed row by row. -/

namespace MazeRobot.Text

/-- The next row of the distance table. The row above holds the distances from the shorter source to
every prefix of the target; `left` is the entry just written, `diagonal` the entry above it. -/
def nextDistances (c : Char) (left diagonal : Nat) : List Char → List Nat → List Nat
  | t :: target, above :: rest =>
    let entry := min (min (above + 1) (left + 1)) (if c = t then diagonal else diagonal + 1)
    entry :: nextDistances c entry above target rest
  | _, _ => []

/-- The distances from a source to every prefix of the target, given those from the source without
its last character. -/
def distanceRow (target : List Char) (row : List Nat) (c : Char) : List Nat :=
  match row with
  | first :: rest => (first + 1) :: nextDistances c (first + 1) first target rest
  | [] => []

/-- The edit distance between two character sequences. -/
def editDistanceChars (source target : List Char) : Nat :=
  (source.foldl (distanceRow target) (List.range (target.length + 1))).getLastD 0

/-- The edit distance between two texts, counted in characters. -/
def editDistance (source target : String) : Nat :=
  editDistanceChars source.toList target.toList

end MazeRobot.Text
