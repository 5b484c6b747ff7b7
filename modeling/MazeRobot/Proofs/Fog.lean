import MazeRobot.Proofs.Distance
import MazeRobot.Proofs.Journey

/-! # Fog hides what the robot has not been near

A robot in the fog moves, senses and fails; it is not asked for distances, and the maze is drawn
with the fog only. Two mazes of one shape that agree on every cell which the robot has visited or
stood next to are the same to it: it answers alike, ends up alike and looks alike.

* `Grid.SameShape`: grids with rows of the same lengths.
* `Robot.Near`: the positions that have been visited or are next to a visited one.
* `Robot.Alike`: a robot that cannot tell its maze from another one.
* `Robot.Alike.respond_inGrid`, `Robot.Alike.after_inGrid`: one call, and any number of calls, lead
  to the same answers.
* `Robot.fog_hides`: what lies outside has no influence. -/

namespace MazeRobot

/-! ## Grids of one shape -/

namespace Grid

/-- Whether two grids have the same number of rows and the same row lengths. -/
def SameShape (g g' : Grid) : Prop := g.rows.map List.length = g'.rows.map List.length

/-- What is `inBounds` is told by the lengths of the rows. -/
theorem inBounds_eq (g : Grid) (p : Position) :
    g.inBounds p = (!(p.x < 0 || p.y < 0) &&
      (g.rows.map List.length)[p.y.toNat]?.any fun length => p.x.toNat < length) := by
  unfold inBounds cell?
  by_cases outside : (p.x < 0 || p.y < 0) = true
  · rw [if_pos outside, outside]
    rfl
  · rw [if_neg outside, Bool.eq_false_iff.mpr outside, List.getElem?_map]
    cases g.rows[p.y.toNat]? with
    | none => rfl
    | some row =>
      rw [Bool.eq_iff_iff]
      simp

/-- Grids of `SameShape` have the same positions `inBounds`. -/
theorem SameShape.inBounds_eq {g g' : Grid} (shape : g.SameShape g') (p : Position) :
    g.inBounds p = g'.inBounds p := by
  rw [Grid.inBounds_eq, Grid.inBounds_eq, shape]

/-- Grids of `SameShape` that hold the same `inBounds` hold the same everywhere. -/
theorem SameShape.cell_eq {g g' : Grid} (shape : g.SameShape g') {p : Position}
    (same : g.inBounds p = true → g.cell p = g'.cell p) : g.cell p = g'.cell p := by
  cases inside : g.inBounds p with
  | true => exact same inside
  | false =>
    have inside' := (shape.inBounds_eq p).symm.trans inside
    rw [inBounds, Option.isSome_eq_false_iff, Option.isNone_iff_eq_none] at inside inside'
    rw [cell, cell, inside, inside']

/-- The `cell` in a row and a column. -/
theorem cell_mk {g : Grid} {x y : Nat} (hy : y < g.rows.length) (hx : x < g.rows[y].length) :
    g.cell ⟨x, y⟩ = g.rows[y][x] := by
  simp [cell, cell?_natCast, hy, hx]

end Grid

namespace Robot

/-! ## What the robot has been near -/

/-- Whether a position has been visited or is next to a visited one. -/
def Near (robot : Robot) (p : Position) : Prop :=
  robot.hasVisited p = true ∨ ∃ q, robot.hasVisited q = true ∧ q.Adjacent p

/-- The picture `reveals` what the robot has been `Near`. -/
theorem reveals_iff {robot : Robot} {p : Position} : robot.reveals p = true ↔ robot.Near p := by
  rw [reveals, Bool.or_eq_true, List.any_eq_true, Near]
  refine or_congr_right ⟨?_, ?_⟩
  · rintro ⟨q, neighbour, visited⟩
    exact ⟨q, visited, (Position.mem_neighbours.mp neighbour).symm⟩
  · rintro ⟨q, visited, adjacent⟩
    exact ⟨q, Position.mem_neighbours.mpr adjacent.symm, visited⟩

/-- A `Consistent` robot has visited where it is. -/
theorem Consistent.hasVisited_position {g : Grid} {origin : Position} {robot : Robot}
    (consistent : Consistent g origin robot) : robot.hasVisited robot.position = true :=
  (consistent.hasVisited _).mpr (List.mem_of_getLast? consistent.here)

/-- A `Consistent` robot is `Near` the next position in any direction. -/
theorem Consistent.near_step {g : Grid} {origin : Position} {robot : Robot}
    (consistent : Consistent g origin robot) (heading : Heading) :
    robot.Near (robot.position.step heading) :=
  .inr ⟨robot.position, consistent.hasVisited_position, Position.adjacent_step _ _⟩

/-- `advance` only adds to the visited positions. -/
theorem visited_subset_advance (robot : Robot) : robot.visited ⊆ robot.advance.1.visited := by
  simp only [advance]
  by_cases blocked : robot.grid.blocked (robot.position.step robot.heading) = true
  · rw [if_pos blocked]
    exact List.Subset.refl _
  · rw [if_neg blocked]
    by_cases been : robot.visited.contains (robot.position.step robot.heading) = true
    · simp only [been, if_true]
      exact List.Subset.refl _
    · simp only [been]
      exact List.subset_cons_self _ _

/-- `perform` only adds to the visited positions. -/
theorem visited_subset_perform (robot : Robot) (command : Command) :
    robot.visited ⊆ (robot.perform command).1.visited := by
  cases ended : robot.done with
  | true =>
    rw [perform_of_done ended]
    exact List.Subset.refl _
  | false =>
    unfold perform
    rw [ended, if_neg Bool.false_ne_true]
    cases command with
    | forward => exact robot.visited_subset_advance
    | turnLeft =>
      obtain ⟨grid, position, heading, trail, visited, completed, failure?, sensors⟩ := robot
      exact List.Subset.refl _
    | turnRight =>
      obtain ⟨grid, position, heading, trail, visited, completed, failure?, sensors⟩ := robot
      exact List.Subset.refl _

/-- `execute` only adds to the visited positions. -/
theorem visited_subset_execute (robot : Robot) (instruction : String) :
    robot.visited ⊆ (robot.execute instruction).1.visited := by
  unfold execute
  cases robot.done with
  | true => exact List.Subset.refl _
  | false =>
    cases Command.ofInstruction? instruction with
    | none => exact List.Subset.refl _
    | some command => exact robot.visited_subset_perform command

/-- `respond` only adds to the visited positions. -/
theorem visited_subset_respond (robot : Robot) (call : Call) :
    robot.visited ⊆ (robot.respond call).1.visited := by
  cases call with
  | execute instruction => exact robot.visited_subset_execute instruction
  | fail message =>
    rw [respond, fail]
    split <;> exact List.Subset.refl _
  | sense quarterTurns => exact List.Subset.refl _
  | isCloser quarterTurns => exact List.Subset.refl _
  | distance => exact List.Subset.refl _
  | picture fog => exact List.Subset.refl _

/-- What the robot has been `Near` it has been near after a call. -/
theorem Near.respond {robot : Robot} {p : Position} (near : robot.Near p) (call : Call) :
    (robot.respond call).1.Near p := by
  have kept : ∀ q, robot.hasVisited q = true → (robot.respond call).1.hasVisited q = true := by
    intro q visited
    rw [hasVisited, List.contains_iff_mem] at visited ⊢
    exact robot.visited_subset_respond call visited
  rcases near with here | ⟨q, visited, adjacent⟩
  · exact .inl (kept p here)
  · exact .inr ⟨q, kept q visited, adjacent⟩

/-- What the robot has been `Near` it has been near after any calls. -/
theorem Near.after {robot : Robot} {p : Position} (near : robot.Near p) (calls : List Call) :
    (robot.after calls).Near p := by
  induction calls generalizing robot with
  | nil => exact near
  | cons call calls ih => exact ih (near.respond call)

/-! ## Two mazes -/

/-- The robot in another maze. -/
def inGrid (robot : Robot) (g : Grid) : Robot := { robot with grid := g }

/-- A robot that cannot tell its maze from another one: they have one shape and hold the same
wherever the robot has been near. -/
structure Alike (robot : Robot) (g' : Grid) : Prop where
  /-- The mazes have one shape. -/
  shape : robot.grid.SameShape g'
  /-- They hold the same near the robot's path. -/
  cells : ∀ p, robot.Near p → robot.grid.cell p = g'.cell p

/-- Whether a call may be made in the fog: it asks for no distance, and does not draw what the fog
covers. -/
def Call.inFog : Call → Bool
  | .execute _ => true
  | .fail _ => true
  | .sense _ => true
  | .isCloser _ => false
  | .distance => false
  | .picture fog => fog

/-- The answers to some calls in a row. -/
def answers (robot : Robot) : List Call → List Answer
  | [] => []
  | call :: calls => (robot.respond call).2 :: (robot.respond call).1.answers calls

namespace Alike

variable {g g' : Grid} {origin : Position} {robot : Robot}

/-- In mazes that are `Alike` to the robot, the next position in any direction is `blocked` in both
or in neither. -/
theorem blocked_step (alike : robot.Alike g') (consistent : Consistent g origin robot)
    (heading : Heading) :
    g'.blocked (robot.position.step heading) =
      robot.grid.blocked (robot.position.step heading) := by
  rw [Grid.blocked, Grid.blocked, alike.cells _ (consistent.near_step heading)]

/-- `advance` is the same in both mazes. -/
theorem advance_inGrid (alike : robot.Alike g') (consistent : Consistent g origin robot) :
    (robot.inGrid g').advance = (robot.advance.1.inGrid g', robot.advance.2) := by
  have blocked := alike.blocked_step consistent robot.heading
  have cell := alike.cells _ (consistent.near_step robot.heading)
  simp only [advance, inGrid, blocked, ← cell]
  split <;> rfl

/-- `execute` does the same in both mazes. -/
theorem execute_inGrid (alike : robot.Alike g') (consistent : Consistent g origin robot)
    (instruction : String) :
    (robot.inGrid g').execute instruction =
      ((robot.execute instruction).1.inGrid g', (robot.execute instruction).2) := by
  have same : (robot.inGrid g').done = robot.done := rfl
  rw [execute, execute, same]
  cases ended : robot.done with
  | true => rfl
  | false =>
    rw [if_neg Bool.false_ne_true, if_neg Bool.false_ne_true]
    cases Command.ofInstruction? instruction with
    | none => rfl
    | some command =>
      dsimp only
      unfold perform
      rw [same, ended, if_neg Bool.false_ne_true, if_neg Bool.false_ne_true]
      cases command with
      | forward => exact alike.advance_inGrid consistent
      | turnLeft => rfl
      | turnRight => rfl

/-- `sense` shows the same in both mazes. -/
theorem sense_inGrid (alike : robot.Alike g') (consistent : Consistent g origin robot)
    (quarterTurns : Int64) :
    (robot.inGrid g').sense quarterTurns =
      ((robot.sense quarterTurns).1.inGrid g', (robot.sense quarterTurns).2) := by
  have reading : (robot.inGrid g').senses quarterTurns = robot.senses quarterTurns :=
    alike.blocked_step consistent _
  rw [sense, sense, reading]
  rfl

/-- The `picture` with the fog is the same in both mazes. -/
theorem picture_inGrid (alike : robot.Alike g') :
    (robot.inGrid g').picture true = robot.picture true := by
  have rows : g'.rows.length = robot.grid.rows.length := by
    simpa using (congrArg List.length alike.shape).symm
  have lengths : ∀ y (h : y < robot.grid.rows.length) (h' : y < g'.rows.length),
      g'.rows[y].length = robot.grid.rows[y].length := by
    intro y h h'
    have same := congrArg (·[y]?) alike.shape
    simpa [h, h'] using same.symm
  -- A place is covered by the robot, by the fog, or holds the same in both mazes.
  have drawn : ∀ p, (robot.inGrid g').pictureChar true p (g'.cell p) =
      robot.pictureChar true p (robot.grid.cell p) := by
    intro p
    have same : ∀ c, (robot.inGrid g').pictureChar true p c = robot.pictureChar true p c :=
      fun _ => rfl
    rw [same]
    cases revealed : robot.reveals p with
    | true => rw [alike.cells p (reveals_iff.mp revealed)]
    | false => simp [pictureChar, revealed]
  unfold picture
  refine congrArg (String.intercalate "\n") (List.ext_getElem ?_ fun y h h' => ?_)
  · simpa [inGrid] using rows
  · have hy' : y < g'.rows.length := by simpa [inGrid] using h
    have hy : y < robot.grid.rows.length := by simpa using h'
    simp only [inGrid, List.getElem_map, List.getElem_zipIdx, Nat.zero_add]
    refine congrArg String.ofList (List.ext_getElem ?_ fun x i i' => ?_)
    · simpa using lengths y hy hy'
    · have hx' : x < g'.rows[y].length := by simpa using i
      have hx : x < robot.grid.rows[y].length := by simpa using i'
      simp only [List.getElem_map, List.getElem_zipIdx, Nat.zero_add]
      rw [← Grid.cell_mk hy hx, ← Grid.cell_mk hy' hx']
      exact drawn _

/-- **A call in the fog gets the same `respond` in both mazes.** -/
theorem respond_inGrid (alike : robot.Alike g') (consistent : Consistent g origin robot)
    {call : Call} (fog : call.inFog = true) :
    (robot.inGrid g').respond call =
      ((robot.respond call).1.inGrid g', (robot.respond call).2) := by
  cases call with
  | execute instruction => rw [respond, alike.execute_inGrid consistent]; rfl
  | fail message =>
    have same : (robot.inGrid g').done = robot.done := rfl
    rw [respond, respond, fail, fail, same]
    split <;> rfl
  | sense quarterTurns => rw [respond, alike.sense_inGrid consistent]; rfl
  | isCloser quarterTurns => cases fog
  | distance => cases fog
  | picture covered =>
    obtain rfl : covered = true := fog
    rw [respond, alike.picture_inGrid]
    rfl

/-- **Calls in the fog do the same in both mazes**, if these are `Alike` to the robot afterwards:
what it has been near before is among what it has been near in the end. -/
theorem after_inGrid (consistent : Consistent g origin robot) {calls : List Call}
    (fog : ∀ call ∈ calls, call.inFog = true) (alike : (robot.after calls).Alike g') :
    (robot.inGrid g').after calls = (robot.after calls).inGrid g' ∧
      (robot.inGrid g').answers calls = robot.answers calls := by
  induction calls generalizing robot with
  | nil => exact ⟨rfl, rfl⟩
  | cons call calls ih =>
    have grid : (robot.after (call :: calls)).grid = robot.grid :=
      (consistent.after (call :: calls)).grid.trans consistent.grid.symm
    have before : robot.Alike g' := by
      refine ⟨grid ▸ alike.shape, fun p near => ?_⟩
      rw [← grid]
      exact alike.cells p (near.after (call :: calls))
    have first := before.respond_inGrid consistent (fog call List.mem_cons_self)
    obtain ⟨same, answers⟩ := ih (consistent.respond call)
      (fun other member => fog other (List.mem_cons_of_mem call member)) alike
    refine ⟨?_, ?_⟩
    · rw [after_cons, after_cons, first]
      exact same
    · rw [Robot.answers, Robot.answers, first]
      exact congrArg _ answers

end Alike

/-- **Fog hides what the robot has not been `Near`.** Take two mazes of `SameShape`, one start and
any calls that move the robot, make it fail, let it sense or draw it in the fog. If the mazes agree
on the cells that are visited or next to a visited position at the end in the first one, then all
calls are answered alike, the robots end up alike in everything but the maze around them, and they
look alike in the fog. -/
theorem fog_hides (g g' : Grid) (shape : g.SameShape g') (origin : Position) (heading : Heading)
    (calls : List Call) (fog : ∀ call ∈ calls, call.inFog = true)
    (agree : ∀ p, ((start g origin heading).after calls).Near p → g.inBounds p = true →
      g.cell p = g'.cell p) :
    let robot := (start g origin heading).after calls
    let robot' := (start g' origin heading).after calls
    (start g' origin heading).answers calls = (start g origin heading).answers calls ∧
      robot' = { robot with grid := g' } ∧ robot'.picture true = robot.picture true := by
  intro robot robot'
  have consistent := Consistent.of_start g origin heading
  have grid : robot.grid = g := (consistent.after calls).grid
  have alike : robot.Alike g' := by
    refine ⟨grid.symm ▸ shape, fun p near => ?_⟩
    rw [grid]
    exact shape.cell_eq (agree p near)
  obtain ⟨same, answers⟩ := Alike.after_inGrid consistent fog alike
  refine ⟨answers, same, ?_⟩
  exact (congrArg (fun robot => Robot.picture robot true) same).trans alike.picture_inGrid

/-- A robot that goes one step, runs into a wall beside its way and looks around does not see what
ends the row it is in. -/
theorem fog_hides_endOfRow :
    let g : Grid := ⟨[[.start, .empty, .empty, .goal], [.wall, .wall]]⟩
    let g' : Grid := ⟨[[.start, .empty, .empty, .wall], [.wall, .wall]]⟩
    let calls : List Call :=
      [.execute "forward", .sense 0, .picture true, .execute "right", .execute "forward", .sense 2]
    let robot := (start g ⟨0, 0⟩ .east).after calls
    let robot' := (start g' ⟨0, 0⟩ .east).after calls
    g ≠ g' ∧ g.SameShape g' ∧ (∀ call ∈ calls, call.inFog = true) ∧
      (∀ p, robot.Near p → g.inBounds p = true → g.cell p = g'.cell p) ∧
      robot.failure? = some wallHit ∧ robot' = { robot with grid := g' } ∧
      robot'.picture true = robot.picture true := by
  intro g g' calls robot robot'
  have shape : g.SameShape g' := rfl
  have fog : ∀ call ∈ calls, call.inFog = true := by decide +kernel
  have agree : ∀ p, robot.Near p → g.inBounds p = true → g.cell p = g'.cell p := by
    have all : ∀ p ∈ g.positions, robot.reveals p = true → g.cell p = g'.cell p := by decide +kernel
    exact fun p near inside => all p (Grid.mem_positions inside) (reveals_iff.mpr near)
  obtain ⟨-, same, picture⟩ := fog_hides g g' shape ⟨0, 0⟩ .east calls fog agree
  exact ⟨by decide +kernel, shape, fog, agree, by decide +kernel, same, picture⟩

end Robot

end MazeRobot
