import MazeRobot.Proofs.Distance
import MazeRobot.Proofs.Journey
import MazeRobot.Proofs.Lockstep

/-! # Rotating a maze does not change a run

A maze is turned clockwise by a quarter, and with it the place where the robot starts and where it
looks. Steps and turns go along with the rotation, walls and goals come to lie where the steps lead,
and walks become walks of the same length. The search for a goal goes through the cells in another
order, but its result is the least length of a walk, so it is the same. A program only asks the
robot, and the robot in the rotated maze answers as before.

* `Heading.turn_turn`: turns add up, also where the sum of two words wraps around.
* `Position.quarterTurn`, `Grid.quarterTurn`, `Robot.quarterTurn`: rotation.
* `Grid.cell?_quarterTurn`, `Grid.distance_quarterTurn`: cells and distances go along.
* `Robot.answerAlike_quarterTurn`: a robot and its rotated twin answer alike.
* `Machine.run_quarterTurn`: the runs of a program. -/

namespace MazeRobot

/-! ## Turns -/

namespace Heading

/-- Headings with the same `code` are the same. -/
theorem eq_of_toInt_code {heading other : Heading}
    (same : heading.code.toInt = other.code.toInt) : heading = other := by
  rw [← ofCode_code heading, ← ofCode_code other, Int64.toInt_inj.mp same]

/-- A sum of words wraps around after a whole number of turns, so this does not show in its
remainder. -/
theorem toInt_add_emod (n m : Int64) : (n + m).toInt % 4 = (n.toInt + m.toInt) % 4 := by
  have wraps : ∀ {size : Nat}, (4 : Int) ∣ size → ∀ k : Int, k.bmod size % 4 = k % 4 := by
    intro size whole k
    rw [← Int.emod_emod_of_dvd _ whole, Int.bmod_emod, Int.emod_emod_of_dvd _ whole]
  rw [Int64.toInt_add, wraps (by decide)]

/-- The `code` of a heading after a `turn` is the sum of the numbers, reduced by whole turns. -/
theorem toInt_code_turn (heading : Heading) (quarterTurns : Int64) :
    (heading.turn quarterTurns).code.toInt = (heading.code.toInt + quarterTurns.toInt) % 4 := by
  have four : (4 : Int64).toInt = 4 := rfl
  rw [code_turn, ← toInt_add_emod]
  generalize heading.code + quarterTurns = n
  have above : -4 < n.toInt.tmod 4 := Int.lt_tmod_of_pos n.toInt (by omega)
  have below : n.toInt.tmod 4 < 4 := Int.tmod_lt_of_pos n.toInt (by omega)
  have lifted : (n % 4 + 4).toInt = n.toInt.tmod 4 + 4 := by
    rw [Int64.toInt_add, Int64.toInt_mod, four]
    exact Int.bmod_eq_of_le (by omega) (by omega)
  have parts := Int.mul_tdiv_add_tmod n.toInt 4
  rw [Int64.toInt_mod, lifted, four, Int.tmod_eq_emod_of_nonneg (by omega)]
  omega

/-- **`turn`s add up**, also where the sum wraps around. -/
theorem turn_turn (heading : Heading) (first second : Int64) :
    (heading.turn first).turn second = heading.turn (first + second) := by
  apply eq_of_toInt_code
  have sum := toInt_add_emod first second
  rw [toInt_code_turn, toInt_code_turn, toInt_code_turn]
  omega

/-- The order of two `turn`s does not matter. -/
theorem turn_comm (heading : Heading) (first second : Int64) :
    (heading.turn first).turn second = (heading.turn second).turn first := by
  rw [turn_turn, turn_turn, Int64.add_comm]

end Heading

/-! ## Positions -/

namespace Position

/-- Where a position comes to lie when a maze of the given height is turned clockwise by a
quarter. -/
def quarterTurn (height : Nat) (p : Position) : Position := ⟨height - 1 - p.y, p.x⟩

variable {height : Nat}

/-- `quarterTurn` takes different positions to different places. -/
theorem quarterTurn_injective : Function.Injective (quarterTurn height) := by
  intro p q same
  obtain ⟨px, py⟩ := p
  obtain ⟨qx, qy⟩ := q
  simp only [quarterTurn, mk.injEq] at same ⊢
  omega

/-- `quarterTurn` takes some position to every place. -/
theorem exists_quarterTurn_eq (q : Position) : ∃ p, quarterTurn height p = q := by
  refine ⟨⟨q.y, height - 1 - q.x⟩, ?_⟩
  obtain ⟨x, y⟩ := q
  simp only [quarterTurn, mk.injEq, and_true]
  omega

/-- A `step` goes along with the rotation if the heading does. -/
theorem quarterTurn_step (p : Position) (heading : Heading) :
    quarterTurn height (p.step heading) = (quarterTurn height p).step (heading.turn 1) := by
  have north : Heading.turn .north 1 = .east := by decide
  have east : Heading.turn .east 1 = .south := by decide
  have south : Heading.turn .south 1 = .west := by decide
  have west : Heading.turn .west 1 = .north := by decide
  cases heading with
  | north =>
    rw [north]
    simp only [step, quarterTurn, mk.injEq, and_true]
    omega
  | east =>
    rw [east]
    rfl
  | south =>
    rw [south]
    simp only [step, quarterTurn, mk.injEq, and_true]
    omega
  | west =>
    rw [west]
    rfl

/-- `quarterTurn` keeps positions `Adjacent`, and makes no others so. -/
theorem adjacent_quarterTurn {p q : Position} :
    (quarterTurn height p).Adjacent (quarterTurn height q) ↔ p.Adjacent q := by
  simp only [Adjacent, quarterTurn]
  omega

end Position

/-! ## Grids -/

namespace Grid

/-- Whether all rows of a grid have one length. -/
def Rectangular (g : Grid) : Prop := ∀ row ∈ g.rows, row.length = g.width

/-- The grid turned clockwise by a quarter: its rows are the columns from west to east, each read
from south to north. -/
def quarterTurn (g : Grid) : Grid :=
  ⟨(List.range g.width).map fun x => g.rows.reverse.map fun row => row.getD x .wall⟩

variable {g : Grid}

/-- The rows of a grid after `quarterTurn`. -/
theorem rows_quarterTurn (x : Nat) :
    g.quarterTurn.rows[x]? =
      if x < g.width then some (g.rows.reverse.map fun row => row.getD x .wall) else none := by
  by_cases inside : x < g.width <;> simp [quarterTurn, inside]

/-- The column and row of a grid after `quarterTurn`, counted from zero, are a row of the grid,
counted from the south, and a column. -/
theorem cell?_quarterTurn_natCast (x y : Nat) :
    g.quarterTurn.cell? ⟨y, x⟩ =
      if x < g.width then g.rows.reverse[y]?.map fun row => row.getD x .wall else none := by
  rw [cell?_natCast, rows_quarterTurn]
  by_cases inside : x < g.width
  · rw [if_pos inside, if_pos inside]
    exact List.getElem?_map
  · rw [if_neg inside, if_neg inside]
    rfl

/-- **`cell?` of a rectangular grid goes along with the rotation**, and what is off the grid stays
off the grid. -/
theorem cell?_quarterTurn (rectangular : g.Rectangular) (p : Position) :
    g.quarterTurn.cell? (p.quarterTurn g.height) = g.cell? p := by
  obtain ⟨x, y⟩ := p
  simp only [Position.quarterTurn, height]
  by_cases west : x < 0
  · rw [cell?_of_neg (.inr west), cell?_of_neg (.inl west)]
  obtain ⟨column, rfl⟩ := Int.eq_ofNat_of_zero_le (Int.not_lt.mp west)
  by_cases south : (g.rows.length : Int) ≤ y
  · -- Below the last row: the rotated position has a negative column.
    obtain ⟨row, rfl⟩ := Int.eq_ofNat_of_zero_le (show 0 ≤ y by omega)
    have beyond : g.rows.length ≤ row := by omega
    have left : (g.rows.length : Int) - 1 - row < 0 := by omega
    rw [cell?_of_neg (.inl left), cell?_natCast, List.getElem?_eq_none beyond]
    rfl
  obtain ⟨mirrored, place⟩ := Int.eq_ofNat_of_zero_le (show 0 ≤ g.rows.length - 1 - y by omega)
  rw [place, cell?_quarterTurn_natCast]
  by_cases north : y < 0
  · -- Above the first row: the rotated rows are too short.
    have beyond : g.rows.reverse.length ≤ mirrored := by
      rw [List.length_reverse]
      omega
    rw [cell?_of_neg (.inr north), List.getElem?_eq_none beyond]
    split <;> rfl
  obtain ⟨row, rfl⟩ := Int.eq_ofNat_of_zero_le (Int.not_lt.mp north)
  have inside : row < g.rows.length := by omega
  have last : mirrored < g.rows.length := by omega
  have back : g.rows.length - 1 - mirrored = row := by omega
  have width : g.rows[row].length = g.width := rectangular _ (List.getElem_mem inside)
  rw [cell?_natCast, List.getElem?_reverse last, back, List.getElem?_eq_getElem inside]
  by_cases east : column < g.width
  · simp [east, width]
  · have beyond : g.rows[row].length ≤ column := by omega
    simp [east, beyond]

/-- `cell` goes along with the rotation. -/
theorem cell_quarterTurn (rectangular : g.Rectangular) (p : Position) :
    g.quarterTurn.cell (p.quarterTurn g.height) = g.cell p := by
  rw [cell, cell, cell?_quarterTurn rectangular]

/-- `blocked` goes along with the rotation. -/
theorem blocked_quarterTurn (rectangular : g.Rectangular) (p : Position) :
    g.quarterTurn.blocked (p.quarterTurn g.height) = g.blocked p := by
  rw [blocked, blocked, cell_quarterTurn rectangular]

/-- What an origin `Reaches` goes along with the rotation. -/
theorem reaches_quarterTurn (rectangular : g.Rectangular) {origin p : Position} {n : Nat} :
    g.quarterTurn.Reaches (origin.quarterTurn g.height) n (p.quarterTurn g.height) ↔
      g.Reaches origin n p := by
  have free : ∀ q, g.quarterTurn.Free (q.quarterTurn g.height) ↔ g.Free q := by
    intro q
    rw [free_iff, free_iff, blocked_quarterTurn rectangular]
  constructor
  · intro reaches
    generalize turned : p.quarterTurn g.height = q at reaches
    induction reaches generalizing p with
    | start there =>
      obtain rfl := Position.quarterTurn_injective turned
      exact .start ((free p).mp there)
    | @step n q r _ adjacent there ih =>
      obtain ⟨before, rfl⟩ : ∃ p, Position.quarterTurn g.height p = q :=
        Position.exists_quarterTurn_eq q
      subst turned
      exact .step (ih rfl) (Position.adjacent_quarterTurn.mp adjacent) ((free p).mp there)
  · intro reaches
    induction reaches with
    | start here => exact .start ((free origin).mpr here)
    | @step n q r _ adjacent here ih =>
      exact .step ih (Position.adjacent_quarterTurn.mpr adjacent) ((free r).mpr here)

/-- **`distance` stays the same.** It is the least length of a walk to a goal, in whatever order the
search comes to the cells. -/
theorem distance_quarterTurn (rectangular : g.Rectangular) (origin : Position) :
    g.quarterTurn.distance (origin.quarterTurn g.height) = g.distance origin := by
  have same : ∀ n, (∃ p, g.quarterTurn.Reaches (origin.quarterTurn g.height) n p ∧
      g.quarterTurn.cell p = .goal) ↔ ∃ p, g.Reaches origin n p ∧ g.cell p = .goal := by
    intro n
    constructor
    · rintro ⟨q, reaches, goal⟩
      obtain ⟨p, rfl⟩ : ∃ p, Position.quarterTurn g.height p = q :=
        Position.exists_quarterTurn_eq q
      rw [cell_quarterTurn rectangular] at goal
      exact ⟨p, (reaches_quarterTurn rectangular).mp reaches, goal⟩
    · rintro ⟨p, reaches, goal⟩
      rw [← cell_quarterTurn rectangular] at goal
      exact ⟨_, (reaches_quarterTurn rectangular).mpr reaches, goal⟩
  have search : g.quarterTurn.distance? (origin.quarterTurn g.height) = g.distance? origin := by
    ext n
    simp only [distance?_eq_some_iff, same]
  rw [distance, distance, search]

end Grid

/-! ## Robots -/

namespace Robot

/-- The robot with its maze turned clockwise by a quarter: where it is and has been and where it
looks goes along. -/
def quarterTurn (robot : Robot) : Robot where
  grid := robot.grid.quarterTurn
  position := robot.position.quarterTurn robot.grid.height
  heading := robot.heading.turn 1
  trail := robot.trail.map (·.quarterTurn robot.grid.height)
  visited := robot.visited.map (·.quarterTurn robot.grid.height)
  completed := robot.completed
  failure? := robot.failure?
  sensors := robot.sensors

variable {robot : Robot}

/-- `neighbour` goes along with the rotation. -/
theorem neighbour_quarterTurn (quarterTurns : Int64) :
    robot.quarterTurn.neighbour quarterTurns =
      (robot.neighbour quarterTurns).quarterTurn robot.grid.height := by
  rw [neighbour, neighbour, Position.quarterTurn_step, Heading.turn_comm]
  rfl

/-- `senses` stays the same. -/
theorem senses_quarterTurn (rectangular : robot.grid.Rectangular) (quarterTurns : Int64) :
    robot.quarterTurn.senses quarterTurns = robot.senses quarterTurns := by
  rw [senses, senses, neighbour_quarterTurn]
  exact Grid.blocked_quarterTurn rectangular _

/-- `distanceToGoal` stays the same. -/
theorem distanceToGoal_quarterTurn (rectangular : robot.grid.Rectangular) :
    robot.quarterTurn.distanceToGoal = robot.distanceToGoal :=
  Grid.distance_quarterTurn rectangular _

/-- `isCloser` stays the same. -/
theorem isCloser_quarterTurn (rectangular : robot.grid.Rectangular) (quarterTurns : Int64) :
    robot.quarterTurn.isCloser quarterTurns = robot.isCloser quarterTurns := by
  have blocked := Grid.blocked_quarterTurn rectangular (robot.neighbour quarterTurns)
  have here := Grid.distance_quarterTurn rectangular robot.position
  have there := Grid.distance_quarterTurn rectangular (robot.neighbour quarterTurns)
  simp only [isCloser, neighbour_quarterTurn]
  simp only [quarterTurn, blocked, here, there]

/-- A robot has been at a position exactly if the rotated one has been where `quarterTurn` takes
it. -/
theorem contains_quarterTurn (height : Nat) (visited : List Position) (p : Position) :
    (visited.map (Position.quarterTurn height)).contains (p.quarterTurn height) =
      visited.contains p := by
  rw [Bool.eq_iff_iff, List.contains_iff_mem, List.contains_iff_mem,
    List.mem_map_of_injective Position.quarterTurn_injective]

/-- `advance` goes along with the rotation. -/
theorem advance_quarterTurn (rectangular : robot.grid.Rectangular) :
    robot.quarterTurn.advance = (robot.advance.1.quarterTurn, robot.advance.2) := by
  have next : (robot.position.quarterTurn robot.grid.height).step (robot.heading.turn 1) =
      (robot.position.step robot.heading).quarterTurn robot.grid.height :=
    (Position.quarterTurn_step _ _).symm
  have blocked := Grid.blocked_quarterTurn rectangular (robot.position.step robot.heading)
  have cell := Grid.cell_quarterTurn rectangular (robot.position.step robot.heading)
  have been := contains_quarterTurn robot.grid.height robot.visited
    (robot.position.step robot.heading)
  simp only [advance, quarterTurn, next, blocked, cell, been]
  split
  · rfl
  · refine congrArg (·, true) ?_
    split <;> rfl

/-- Another heading goes along with `quarterTurn`. -/
theorem quarterTurn_withHeading (robot : Robot) (heading : Heading) :
    ({ robot with heading } : Robot).quarterTurn =
      { robot.quarterTurn with heading := heading.turn 1 } := by
  obtain ⟨grid, position, _, trail, visited, completed, failure?, sensors⟩ := robot
  rfl

/-- `perform` goes along with the rotation. -/
theorem perform_quarterTurn (rectangular : robot.grid.Rectangular) (kind : Command) :
    robot.quarterTurn.perform kind =
      ((robot.perform kind).1.quarterTurn, (robot.perform kind).2) := by
  have same : robot.quarterTurn.done = robot.done := rfl
  unfold perform
  rw [same]
  cases robot.done with
  | true => rfl
  | false =>
    rw [if_neg Bool.false_ne_true, if_neg Bool.false_ne_true]
    cases kind with
    | forward => exact advance_quarterTurn rectangular
    | turnLeft =>
      have turned := robot.quarterTurn_withHeading (robot.heading.turn (-1))
      rw [Heading.turn_comm] at turned
      exact congrArg (·, true) turned.symm
    | turnRight =>
      have turned := robot.quarterTurn_withHeading (robot.heading.turn 1)
      exact congrArg (·, true) turned.symm

/-- Robots of which the first is in the given maze and the second is the same one with its maze
rotated. -/
def IsQuarterTurn (g : Grid) (robot robot' : Robot) : Prop :=
  robot.grid = g ∧ robot' = robot.quarterTurn

/-- **A robot in a rectangular maze and the one with its maze rotated `AnswerAlike`.** -/
theorem answerAlike_quarterTurn {g : Grid} (rectangular : g.Rectangular) :
    AnswerAlike (IsQuarterTurn g) where
  done := by
    rintro robot _ ⟨-, rfl⟩
    rfl
  perform := by
    rintro robot _ ⟨rfl, rfl⟩ kind
    refine ⟨robot.grid_perform kind, ?_⟩
    rw [perform_quarterTurn rectangular]
  fail := by
    rintro robot _ ⟨rfl, rfl⟩ message
    have same : robot.quarterTurn.done = robot.done := rfl
    rw [fail, fail, same]
    split
    · exact ⟨rfl, rfl⟩
    · exact ⟨rfl, rfl⟩
  sense := by
    rintro robot _ ⟨rfl, rfl⟩ direction
    have reading := senses_quarterTurn rectangular direction.quarterTurns
    refine ⟨⟨rfl, ?_⟩, reading⟩
    simp only [sense, reading]
    rfl
  isCloser := by
    rintro robot _ ⟨rfl, rfl⟩ direction
    exact isCloser_quarterTurn rectangular _
  distance := by
    rintro robot _ ⟨rfl, rfl⟩
    exact distanceToGoal_quarterTurn rectangular

/-- What two robots have in common of which the second is in the rotated maze: the path of the
second is the rotated path of the first, it looks a quarter turn further, it is as far with its run,
and it answers every question alike. -/
structure SameButTurned (height : Nat) (robot robot' : Robot) : Prop where
  /-- The path is the rotated path. -/
  path : robot'.path = robot.path.map (Position.quarterTurn height)
  /-- The position is the rotated position. -/
  position : robot'.position = robot.position.quarterTurn height
  /-- The heading is a quarter turn further. -/
  heading : robot'.heading = robot.heading.turn 1
  /-- The runs stand alike. -/
  status : robot'.status = robot.status
  /-- The same went wrong. -/
  failure : robot'.failure? = robot.failure?
  /-- The sensors show the same. -/
  senses : ∀ quarterTurns, robot'.senses quarterTurns = robot.senses quarterTurns
  /-- The same directions lead nearer to a goal. -/
  isCloser : ∀ quarterTurns, robot'.isCloser quarterTurns = robot.isCloser quarterTurns
  /-- The goal is equally far. -/
  distance : robot'.distanceToGoal = robot.distanceToGoal

/-- A robot and the one with its maze rotated are `SameButTurned`. -/
theorem IsQuarterTurn.sameButTurned {g : Grid} {robot robot' : Robot} (rectangular : g.Rectangular)
    (turned : IsQuarterTurn g robot robot') : SameButTurned g.height robot robot' := by
  obtain ⟨rfl, rfl⟩ := turned
  exact {
    path := List.map_reverse.symm
    position := rfl
    heading := rfl
    status := rfl
    failure := rfl
    senses := senses_quarterTurn rectangular
    isCloser := isCloser_quarterTurn rectangular
    distance := distanceToGoal_quarterTurn rectangular }

end Robot

/-! ## Runs -/

namespace Machine

/-- **Rotating a maze does not change a run.** Take a `Rectangular` maze, any start and any program,
and turn the maze, the start and the heading clockwise by a quarter, so that each cell goes where
its position goes. Then each step issues the same command with the same line and leaves as much to
do, and after each step the robots are `SameButTurned`: they stand alike, answer every question
alike, and the path of one is the rotated path of the other. The same holds of all machines of the
runs, also between the visits of a step. -/
theorem run_quarterTurn (g : Grid) (rectangular : g.Rectangular) (origin : Position)
    (heading : Heading) (program : Program) (limits : Limits) (tracing : Bool) :
    let start := load (.start g origin heading) limits tracing program
    let start' := load (.start g.quarterTurn (origin.quarterTurn g.height) (heading.turn 1)) limits
      tracing program
    (∀ p, g.quarterTurn.cell? (p.quarterTurn g.height) = g.cell? p) ∧
    (∀ n, (start'.stepped n).step.2 = (start.stepped n).step.2 ∧
      (start'.stepped n).hasMore = (start.stepped n).hasMore ∧
      Robot.SameButTurned g.height (start.stepped n).robot (start'.stepped n).robot) ∧
    ∀ m, start.Reaches m → ∃ m', start'.Reaches m' ∧ m'.frames = m.frames ∧
      Robot.SameButTurned g.height m.robot m'.robot := by
  intro start start'
  have alike := Robot.answerAlike_quarterTurn rectangular
  have same : start.Matches (Robot.IsQuarterTurn g) start' := ⟨⟨rfl, rfl⟩, rfl⟩
  refine ⟨Grid.cell?_quarterTurn rectangular, fun n => ?_, fun m reached => ?_⟩
  · have there := same.stepped alike n
    exact ⟨(there.step alike).2, there.hasMore_eq alike, there.robots.sameButTurned rectangular⟩
  · obtain ⟨m', reached', there⟩ := same.reaches alike reached
    exact ⟨m', reached', there.frames_eq, there.robots.sameButTurned rectangular⟩

/-- A robot that follows the wall of a corner to the goal, with its maze upright and turned. -/
theorem run_quarterTurn_corner :
    let g : Grid := ⟨[[.start, .empty], [.wall, .empty], [.wall, .goal]]⟩
    let g' : Grid := ⟨[[.wall, .wall, .start], [.goal, .empty, .empty]]⟩
    let program : Program :=
      ⟨[.loop (.distance 1)
        [.branch (some ⟨.sensor, false, .front, 2⟩) [.command .turnRight 2] 2,
          .command .forward 3] 1], 1⟩
    let start := load (.start g ⟨0, 0⟩ .east) ⟨256, 1000⟩ false program
    let start' := load (.start g' ⟨2, 0⟩ .south) ⟨256, 1000⟩ false program
    g.Rectangular ∧ g.quarterTurn = g' ∧
      (start.stepped 4).robot.path = [⟨0, 0⟩, ⟨1, 0⟩, ⟨1, 1⟩, ⟨1, 2⟩] ∧
      (start'.stepped 4).robot.path = [⟨2, 0⟩, ⟨2, 1⟩, ⟨1, 1⟩, ⟨0, 1⟩] ∧
      (start.stepped 4).robot.status = .completed ∧
      Robot.SameButTurned 3 (start.stepped 4).robot (start'.stepped 4).robot := by
  intro g g' program start start'
  have rectangular : g.Rectangular := by
    intro row member
    revert row
    decide
  have south : Heading.turn .east 1 = .south := by decide
  obtain ⟨-, steps, -⟩ := run_quarterTurn g rectangular ⟨0, 0⟩ .east program ⟨256, 1000⟩ false
  obtain ⟨-, -, same⟩ := steps 4
  rw [south] at same
  exact ⟨rectangular, by decide +kernel, by decide +kernel, by decide +kernel, by decide +kernel,
    same⟩

end Machine

end MazeRobot
