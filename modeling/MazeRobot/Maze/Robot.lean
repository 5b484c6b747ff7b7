import MazeRobot.Maze.Distance
import MazeRobot.Program.Basic

/-! # Robots

A robot in a maze: where it stands and looks, where it has been, and whether its run is over. A run
is over when the robot reaches a goal or something goes wrong; after that nothing moves it.

* `Robot.perform`, `Robot.execute`: one command.
* `Robot.fail`: something went wrong outside.
* `Robot.sense`, `Robot.isCloser`, `Robot.distanceToGoal`: what a program can ask.
* `Robot.picture`: the maze with the robot, as text. -/

namespace MazeRobot

/-- How a run stands. -/
inductive Status where
  /-- It goes on. -/
  | running
  /-- The robot reached a goal. -/
  | completed
  /-- Something went wrong. -/
  | errored
  deriving DecidableEq, Repr

namespace Status

/-- All statuses, in the order of their numbers. -/
def all : List Status := [running, completed, errored]

/-- The name of a status. -/
def name : Status → String
  | running => "running"
  | completed => "completed"
  | errored => "errored"

/-- The name shown for a number, also one that numbers no status. -/
def nameOfCode (n : Int) : String :=
  if n < 0 then "unknown" else (all[n.toNat]?).elim "unknown" name

end Status

/-- The command that an instruction gives. Blanks at the ends and letter case do not count. -/
def Command.ofInstruction? (instruction : String) : Option Command :=
  match Text.lower (Text.trim instruction) with
  | "forward" | "move forward" | "move" => some .forward
  | "turn left" | "left" => some .turnLeft
  | "turn right" | "right" => some .turnRight
  | _ => none

/-- A robot in a maze. -/
structure Robot where
  /-- The maze. -/
  grid : Grid
  /-- Where the robot stands. -/
  position : Position
  /-- Where the robot looks. -/
  heading : Heading
  /-- The positions it has held, newest first. -/
  trail : List Position
  /-- The positions it has held, each once, in the reverse order of the first visits. -/
  visited : List Position
  /-- Whether it has reached a goal. -/
  completed : Bool
  /-- What went wrong. -/
  failure? : Option String
  /-- The latest sensor reading for each number of quarter turns. -/
  sensors : List (Int64 × Bool)
  deriving DecidableEq, Repr

namespace Robot

/-- A robot at the start of its run. -/
def start (grid : Grid) (position : Position) (heading : Heading) : Robot :=
  { grid, position, heading, trail := [position], visited := [position], completed := false,
    failure? := none, sensors := [] }

/-- Whether the run is over. -/
def done (robot : Robot) : Bool := robot.completed || robot.failure?.isSome

/-- How the run stands. -/
def status (robot : Robot) : Status :=
  if robot.completed then .completed else if robot.failure?.isSome then .errored else .running

/-- The positions that the robot has held, oldest first. -/
def path (robot : Robot) : List Position := robot.trail.reverse

/-- The positions that the robot has held, each once, in the order of the first visits. -/
def visitedPositions (robot : Robot) : List Position := robot.visited.reverse

/-- Whether the robot has been at a position. -/
def hasVisited (robot : Robot) (p : Position) : Bool := robot.visited.contains p

/-- A run is not `done` at its `start`. -/
@[simp] theorem done_start (grid : Grid) (position : Position) (heading : Heading) :
    (start grid position heading).done = false := rfl

/-- The `path` of a run at its `start` is its first position. -/
@[simp] theorem path_start (grid : Grid) (position : Position) (heading : Heading) :
    (start grid position heading).path = [position] := rfl

/-! ## Commands -/

/-- What is said when the robot runs into a wall. -/
def wallHit : String := "Can't move forward - hit a wall!"

/-- The robot one cell further, or stopped by a wall. -/
def advance (robot : Robot) : Robot × Bool :=
  let next := robot.position.step robot.heading
  if robot.grid.blocked next then
    ({ robot with failure? := some wallHit }, false)
  else
    ({ robot with
        position := next
        trail := next :: robot.trail
        visited := if robot.visited.contains next then robot.visited else next :: robot.visited
        completed := robot.completed || robot.grid.cell next = .goal },
      true)

/-- The robot after a command, and whether the command was carried out. -/
def perform (robot : Robot) (command : Command) : Robot × Bool :=
  if robot.done then (robot, false)
  else
    match command with
    | .forward => robot.advance
    | .turnLeft => ({ robot with heading := robot.heading.turn (-1) }, true)
    | .turnRight => ({ robot with heading := robot.heading.turn 1 }, true)

/-- `perform` does nothing once a run is `done`. -/
theorem perform_of_done {robot : Robot} (ended : robot.done = true) (command : Command) :
    robot.perform command = (robot, false) := by
  simp [perform, ended]

/-- `perform` does not change the maze. -/
theorem grid_perform (robot : Robot) (kind : Command) :
    (robot.perform kind).1.grid = robot.grid := by
  obtain ⟨grid, position, heading, trail, visited, completed, failure?, sensors⟩ := robot
  unfold perform
  split
  · rfl
  · cases kind with
    | forward =>
      simp only [advance]
      split <;> rfl
    | turnLeft => rfl
    | turnRight => rfl

/-- `perform` leaves the robot where it is, or takes it one `step` to a place that is not
`blocked`. -/
theorem position_perform (robot : Robot) (kind : Command) :
    (robot.perform kind).1.position = robot.position ∨
      robot.grid.blocked (robot.position.step robot.heading) = false ∧
        (robot.perform kind).1.position = robot.position.step robot.heading := by
  obtain ⟨grid, position, heading, trail, visited, completed, failure?, sensors⟩ := robot
  unfold perform
  split
  · exact .inl rfl
  · cases kind with
    | forward =>
      cases blocked : grid.blocked (position.step heading) with
      | true => exact .inl (by simp [advance, blocked])
      | false => exact .inr ⟨rfl, by simp [advance, blocked]⟩
    | turnLeft => exact .inl rfl
    | turnRight => exact .inl rfl

/-- A command with which a run is `completed` does not fail. -/
theorem failure?_perform {robot : Robot} (running : robot.done = false) (kind : Command)
    (reached : (robot.perform kind).1.completed = true) :
    (robot.perform kind).1.failure? = none := by
  obtain ⟨grid, position, heading, trail, visited, completed, failure?, sensors⟩ := robot
  have fine : failure? = none := by simp_all [done]
  unfold perform at reached ⊢
  rw [if_neg (by simp [running])] at reached ⊢
  cases kind with
  | forward =>
    cases blocked : grid.blocked (position.step heading) with
    | true => simp_all [advance, done]
    | false => simpa [advance, blocked] using fine
  | turnLeft => exact fine
  | turnRight => exact fine

/-- The robot after an instruction in words, and whether it was carried out. -/
def execute (robot : Robot) (instruction : String) : Robot × Bool :=
  if robot.done then (robot, false)
  else
    match Command.ofInstruction? instruction with
    | some command => robot.perform command
    | none => ({ robot with failure? := some ("Unknown command: " ++ instruction) }, false)

/-- The robot stopped by something that went wrong outside. A run that is over stays as it is, and
an empty message stops nothing. -/
def fail (robot : Robot) (message : String) : Robot :=
  if robot.done || message.isEmpty then robot else { robot with failure? := some message }

/-! ## Questions -/

/-- The neighbour some quarter turns to the right of where the robot looks. -/
def neighbour (robot : Robot) (quarterTurns : Int64) : Position :=
  robot.position.step (robot.heading.turn quarterTurns)

/-- Whether the neighbour in a direction is blocked. -/
def senses (robot : Robot) (quarterTurns : Int64) : Bool :=
  robot.grid.blocked (robot.neighbour quarterTurns)

/-- The robot with a fresh sensor reading, and the reading. -/
def sense (robot : Robot) (quarterTurns : Int64) : Robot × Bool :=
  let reading := robot.senses quarterTurns
  let others := robot.sensors.filter (·.1 ≠ quarterTurns)
  ({ robot with sensors := (quarterTurns, reading) :: others }, reading)

/-- The latest sensor reading in a direction. -/
def lastSensed? (robot : Robot) (quarterTurns : Int64) : Option Bool :=
  robot.sensors.lookup quarterTurns

/-- The distance to the nearest goal, `-1` where none can be reached. -/
def distanceToGoal (robot : Robot) : Int := robot.grid.distance robot.position

/-- Whether the neighbour in a direction is free and nearer to a goal. -/
def isCloser (robot : Robot) (quarterTurns : Int64) : Bool :=
  let target := robot.neighbour quarterTurns
  if robot.grid.blocked target then false
  else
    let here := robot.grid.distance robot.position
    let there := robot.grid.distance target
    0 ≤ here && 0 ≤ there && there < here

/-! ## Pictures -/

/-- The arrow that draws a robot. -/
def arrow : Heading → Char
  | .north => '^'
  | .east => '>'
  | .south => 'v'
  | .west => '<'

/-- Whether a position has been visited or is next to one that has. -/
def reveals (robot : Robot) (p : Position) : Bool :=
  robot.hasVisited p || p.neighbours.any robot.hasVisited

/-- The character that draws one place of the maze. The robot covers what is under it; fog covers
what the robot has not been near; a visited empty cell shows the path. -/
def pictureChar (robot : Robot) (fog : Bool) (p : Position) (c : Cell) : Char :=
  if p = robot.position then arrow robot.heading
  else if fog && !robot.reveals p then '?'
  else if c = .empty && robot.hasVisited p then 'o'
  else c.char

/-- The maze with the robot, row by row, with or without fog. -/
def picture (robot : Robot) (fog : Bool) : String :=
  String.intercalate "\n" (robot.grid.rows.zipIdx.map fun (row, y) =>
    String.ofList (row.zipIdx.map fun (c, x) => robot.pictureChar fog ⟨x, y⟩ c))

end Robot

end MazeRobot
