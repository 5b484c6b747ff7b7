import MazeRobot.Proofs.Fog
import MazeRobot.Proofs.Placement

/-! # Fog only lifts

The picture of a maze has a row for each row of the maze and a character for each cell, with the fog
and without it. Where the robot has been or has stood next to, both pictures show the same; all
other cells, and only these, lie in the fog. What the robot has once been near stays out of it.

* `pictured`: the rows of characters in a picture.
* `Robot.pictured_picture`: what is seen in a picture is what was drawn.
* `Robot.stands_fog_iff`: the fog covers what the robot has not been near.
* `Robot.fog_only_lifts`: the fog through a whole run. -/

namespace MazeRobot

/-! ## Pictures as rows of characters -/

/-- The rows of characters in a picture. -/
def pictured (picture : String) : List (List Char) := picture.toList.splitOn '\n'

/-- `pictured` finds the rows that are joined by line breaks. -/
theorem pictured_intercalate {rows : List (List Char)} (inhabited : rows ≠ [])
    (unbroken : ∀ row ∈ rows, '\n' ∉ row) :
    pictured (String.intercalate "\n" (rows.map String.ofList)) = rows := by
  have joined : (String.intercalate "\n" (rows.map String.ofList)).toList =
      ['\n'].intercalate rows := by
    simp [String.toList_intercalate, Function.comp_def]
  rw [pictured, joined, List.splitOn_intercalate '\n' unbroken inhabited]

namespace Robot

variable {robot : Robot} {fog : Bool} {p : Position} {c : Cell}

/-- The rows of characters that are drawn. -/
def pictureRows (robot : Robot) (fog : Bool) : List (List Char) :=
  robot.grid.rows.zipIdx.map fun (row, y) =>
    row.zipIdx.map fun (c, x) => robot.pictureChar fog ⟨x, y⟩ c

/-- What `Stands` in a picture draws what stands in the maze. -/
theorem stands_pictureRows_iff {char : Char} :
    Stands (robot.pictureRows fog) p char ↔
      ∃ c, Stands robot.grid.rows p c ∧ robot.pictureChar fog p c = char :=
  Stands.map_zipIdx_iff

/-- `pictureRows` draws one character for each cell. -/
theorem lengths_pictureRows (robot : Robot) (fog : Bool) :
    (robot.pictureRows fog).map List.length = robot.grid.rows.map List.length := by
  have lengths : robot.grid.rows.map List.length =
      robot.grid.rows.zipIdx.map fun (row, _) => row.length := by
    conv_lhs => rw [← List.zipIdx_map_fst 0 robot.grid.rows, List.map_map]
    rfl
  rw [lengths, pictureRows, List.map_map]
  simp

/-- `pictureChar` is no line break. -/
theorem pictureChar_ne_lineBreak : robot.pictureChar fog p c ≠ '\n' := by
  unfold pictureChar
  split_ifs
  · cases robot.heading <;> decide
  · decide
  · decide
  · cases c <;> simp [Cell.char]

/-- What is `pictured` in the `picture` of a maze with rows is what was drawn. -/
theorem pictured_picture (inhabited : robot.grid.rows ≠ []) (fog : Bool) :
    pictured (robot.picture fog) = robot.pictureRows fog := by
  have drawn : robot.picture fog =
      String.intercalate "\n" ((robot.pictureRows fog).map String.ofList) := by
    rw [picture, pictureRows, List.map_map]
    rfl
  rw [drawn]
  refine pictured_intercalate (by simpa [pictureRows] using inhabited) fun row member broken => ?_
  obtain ⟨⟨cells, y⟩, -, rfl⟩ := List.mem_map.mp member
  obtain ⟨⟨c, x⟩, -, isBreak⟩ := List.mem_map.mp broken
  exact pictureChar_ne_lineBreak isBreak

/-! ## What the fog covers -/

/-- What the robot has been `Near` looks the same in the fog. -/
theorem pictureChar_of_near (near : robot.Near p) :
    robot.pictureChar true p c = robot.pictureChar false p c := by
  simp [pictureChar, reveals_iff.mpr near]

/-- `pictureChar` is the sign of the fog where the robot has not been `Near`. -/
theorem pictureChar_eq_fog_iff (been : robot.hasVisited robot.position = true) :
    robot.pictureChar true p c = '?' ↔ ¬ robot.Near p := by
  constructor
  · intro covered near
    -- Without the fog, everything is drawn by a sign of its own.
    rw [pictureChar_of_near near] at covered
    simp only [pictureChar, Bool.false_and, Bool.false_eq_true, if_false] at covered
    split_ifs at covered
    · cases heading : robot.heading <;> simp [heading, arrow] at covered
    · simp at covered
    · cases c <;> simp [Cell.char] at covered
  · intro far
    have elsewhere : p ≠ robot.position := by
      rintro rfl
      exact far (.inl been)
    have hidden : robot.reveals p = false := by
      rw [← Bool.not_eq_true, reveals_iff]
      exact far
    simp [pictureChar, elsewhere, hidden]

/-- The sign of the fog `Stands` on all cells that the robot has not been `Near`, and on no
others. -/
theorem stands_fog_iff (been : robot.hasVisited robot.position = true) :
    Stands (robot.pictureRows true) p '?' ↔ robot.grid.inBounds p = true ∧ ¬ robot.Near p := by
  simp only [stands_pictureRows_iff, pictureChar_eq_fog_iff been, exists_and_right,
    ← Grid.cell?_eq_some_iff, Grid.inBounds, Option.isSome_iff_exists]

/-! ## A whole run -/

/-- A `Consistent` robot has been `Near` the positions of its path and those next to them. -/
theorem Consistent.near_iff {g : Grid} {origin : Position}
    (consistent : Consistent g origin robot) :
    robot.Near p ↔ p ∈ robot.path ∨ ∃ q ∈ robot.path, q.Adjacent p := by
  simp only [Near, consistent.hasVisited]

/-- **Fog only lifts, and hides exactly what was never near the path.** Let a robot start in a maze,
and make any calls. The pictures with and without the fog have the rows of the maze, with one
character to a cell. They show the same at each position that is on the `path` or one step from it.
All other cells, and no others, are covered by the fog. Whatever is called later, no cell is covered
that was not covered before. -/
theorem fog_only_lifts (g : Grid) (origin : Position) (inside : g.inBounds origin = true)
    (heading : Heading) (calls : List Call) :
    let robot := (start g origin heading).after calls
    let near := fun p => p ∈ robot.path ∨ ∃ q ∈ robot.path, q.Adjacent p
    (∀ fog, (pictured (robot.picture fog)).map List.length = g.rows.map List.length) ∧
    (∀ p, near p → ∀ char,
      Stands (pictured (robot.picture true)) p char ↔
        Stands (pictured (robot.picture false)) p char) ∧
    (∀ p, Stands (pictured (robot.picture true)) p '?' ↔ g.inBounds p = true ∧ ¬ near p) ∧
    ∀ later p, Stands (pictured ((robot.after later).picture true)) p '?' →
      Stands (pictured (robot.picture true)) p '?' := by
  intro robot near
  have inhabited : g.rows ≠ [] := by
    intro none
    simp [Grid.inBounds, Grid.cell?, none] at inside
  have consistent : Consistent g origin robot := (Consistent.of_start g origin heading).after calls
  have seen {robot : Robot} (consistent : Consistent g origin robot) (fog : Bool) :
      pictured (robot.picture fog) = robot.pictureRows fog :=
    pictured_picture (consistent.grid ▸ inhabited) fog
  refine ⟨fun fog => ?_, fun p close char => ?_, fun p => ?_, fun later p covered => ?_⟩
  · rw [seen consistent, lengths_pictureRows, consistent.grid]
  · simp only [seen consistent, stands_pictureRows_iff,
      pictureChar_of_near (consistent.near_iff.mpr close)]
  · rw [seen consistent, stands_fog_iff consistent.hasVisited_position, consistent.near_iff,
      consistent.grid]
  · have consistent' := consistent.after later
    rw [seen consistent', stands_fog_iff consistent'.hasVisited_position,
      consistent'.grid] at covered
    rw [seen consistent, stands_fog_iff consistent.hasVisited_position, consistent.grid]
    exact ⟨covered.1, fun close => covered.2 (close.after later)⟩

/-- The fog over a maze with uneven rows, while a robot goes along the first one, and after it has
run into a wall. -/
theorem fog_only_lifts_alongRow :
    let g : Grid := ⟨[[.start, .empty, .empty, .goal], [.wall, .wall], [.empty]]⟩
    let robot := (start g ⟨0, 0⟩ .east).after [.execute "forward"]
    let later : List Call := [.sense 0, .execute "forward", .execute "right", .execute "forward"]
    g.inBounds ⟨0, 0⟩ = true ∧ robot.picture true = "S>.?\n##\n?" ∧
      (robot.after later).picture true = "SovE\n##\n?" ∧
      (pictured (robot.picture true)).map List.length = [4, 2, 1] ∧
      ∀ p, Stands (pictured ((robot.after later).picture true)) p '?' →
        Stands (pictured (robot.picture true)) p '?' := by
  intro g robot later
  have inside : g.inBounds ⟨0, 0⟩ = true := by decide
  obtain ⟨lengths, -, -, lifts⟩ := fog_only_lifts g ⟨0, 0⟩ inside .east [.execute "forward"]
  exact ⟨inside, by decide +kernel, by decide +kernel, lengths true, lifts later⟩

end Robot

end MazeRobot
