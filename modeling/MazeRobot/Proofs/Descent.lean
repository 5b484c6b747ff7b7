import MazeRobot.Maze.Robot
import MazeRobot.Proofs.Distance
import Mathlib.Logic.Function.Iterate

/-! # Going down the distance

From a position with a goal in reach there is always a neighbour that is one step nearer, and a
robot finds it with at most three turns to the right. A robot that only ever goes to nearer
positions is on a shortest walk to a goal.

* `Grid.exists_nearer`: there is a nearer neighbour.
* `Robot.isCloser_iff`: what a robot takes for nearer is nearer by one step.
* `Robot.Faces`: a robot that turns to the right until it faces a nearer position.
* `Robot.Approaches`: a robot on a shortest walk to a goal. -/

namespace MazeRobot

/-! ## Nearer neighbours -/

namespace Grid

variable {g : Grid} {origin p q : Position} {n k : Nat}

/-- A position that the origin `Reaches` in some steps is reached from a neighbour in one step
less. -/
theorem Reaches.exists_first (reaches : g.Reaches origin (n + 1) p) :
    ∃ q, origin.Adjacent q ∧ g.Reaches q n p := by
  induction n generalizing p with
  | zero =>
    cases reaches with
    | step before adjacent free =>
      cases before
      exact ⟨p, adjacent, .start free⟩
  | succ n ih =>
    cases reaches with
    | step before adjacent free =>
      obtain ⟨q, first, rest⟩ := ih before
      exact ⟨q, first, .step rest adjacent free⟩

/-- A position that a neighbour `Reaches` is reached from the origin in one step more. -/
theorem Reaches.after (reaches : g.Reaches q n p) (free : g.Free origin)
    (adjacent : origin.Adjacent q) : g.Reaches origin (n + 1) p := by
  induction reaches with
  | start free' => exact .step (.start free) adjacent free'
  | step _ adjacent' free' ih => exact .step ih adjacent' free'

/-- A position with a `distance?` is free. -/
theorem free_of_distance? (found : g.distance? p = some n) : g.Free p := by
  obtain ⟨goal, reaches, -⟩ := (distance?_eq_some_iff.mp found).1
  exact reaches.origin_free

/-- The `distance?` of no neighbour is smaller by more than one step. -/
theorem le_of_adjacent (here : g.distance? p = some n) (there : g.distance? q = some k)
    (adjacent : p.Adjacent q) : n ≤ k + 1 := by
  obtain ⟨goal, reaches, isGoal⟩ := (distance?_eq_some_iff.mp there).1
  exact (distance?_eq_some_iff.mp here).2
    ⟨goal, reaches.after (free_of_distance? here) adjacent, isGoal⟩

/-- Where a goal is some steps away, the `distance?` of a neighbour is one step less. -/
theorem exists_nearer (here : g.distance? p = some (k + 1)) :
    ∃ heading, g.distance? (p.step heading) = some k := by
  obtain ⟨⟨goal, reaches, isGoal⟩, least⟩ := distance?_eq_some_iff.mp here
  obtain ⟨q, adjacent, rest⟩ := reaches.exists_first
  obtain ⟨heading, rfl⟩ := adjacent.exists_step
  refine ⟨heading, distance?_eq_some_iff.mpr ⟨⟨goal, rest, isGoal⟩, ?_⟩⟩
  rintro m ⟨other, reaches', isGoal'⟩
  exact Nat.le_of_succ_le_succ
    (least ⟨other, reaches'.after (free_of_distance? here) adjacent, isGoal'⟩)

/-- The `distance?` is zero exactly at a goal. -/
theorem distance?_eq_zero_iff : g.distance? p = some 0 ↔ g.cell p = .goal := by
  rw [distance?_eq_some_iff]
  constructor
  · rintro ⟨⟨goal, reaches, isGoal⟩, -⟩
    cases reaches
    exact isGoal
  · intro goal
    exact ⟨⟨p, .start (free_of_cell_eq_goal goal), goal⟩, fun m _ => Nat.zero_le m⟩

end Grid

namespace Robot

/-- `isCloser` holds exactly where the `distance?` of the neighbour is one step less. -/
theorem isCloser_iff {robot : Robot} {k : Nat}
    (here : robot.grid.distance? robot.position = some (k + 1)) (turns : Int64) :
    robot.isCloser turns = true ↔ robot.grid.distance? (robot.neighbour turns) = some k := by
  have adjacent : robot.position.Adjacent (robot.neighbour turns) := Position.adjacent_step _ _
  have distance : robot.grid.distance robot.position = (k + 1 : Nat) :=
    Grid.distance_eq_natCast_iff.mpr here
  simp only [isCloser]
  constructor
  · intro closer
    split at closer
    · cases closer
    · simp only [Bool.and_eq_true, decide_eq_true_eq] at closer
      obtain ⟨⟨_, nonnegative⟩, less⟩ := closer
      obtain ⟨m, there⟩ := Int.eq_ofNat_of_zero_le nonnegative
      have found := Grid.distance_eq_natCast_iff.mp there
      -- Nearer is nearer by one step, since no neighbour is nearer by more.
      have most := Grid.le_of_adjacent here found adjacent
      rw [distance, there] at less
      obtain rfl : m = k := by omega
      exact found
  · intro there
    have free := Grid.free_iff.mp (Grid.free_of_distance? there)
    have distance' := Grid.distance_eq_natCast_iff.mpr there
    rw [free, if_neg Bool.false_ne_true, distance, distance']
    simp only [Bool.and_eq_true, decide_eq_true_eq]
    omega

/-! ## Turning to a nearer neighbour -/

/-- The robot after a quarter turn to the right. -/
def turnRight (robot : Robot) : Robot := { robot with heading := robot.heading.turn 1 }

/-- A robot that turns to the right until it faces a nearer position. -/
inductive Faces : Robot → Nat → Robot → Prop
  /-- The robot faces one. -/
  | here {robot : Robot} (closer : robot.isCloser 0 = true) : Faces robot 0 robot
  /-- The robot does not face one, and turns. -/
  | turn {robot last : Robot} {turns : Nat} (away : robot.isCloser 0 = false)
      (rest : Faces robot.turnRight turns last) : Faces robot (turns + 1) last

/-- If after some turns `isCloser` holds straight ahead, the robot `Faces` a nearer position after
the first such turn. -/
theorem exists_faces {robot : Robot} {turns : Nat}
    (closer : (turnRight^[turns] robot).isCloser 0 = true) :
    ∃ first last, first ≤ turns ∧ Faces robot first last := by
  induction turns generalizing robot with
  | zero => exact ⟨0, robot, Nat.le_refl 0, .here closer⟩
  | succ turns ih =>
    cases now : robot.isCloser 0 with
    | true => exact ⟨0, robot, Nat.zero_le _, .here now⟩
    | false =>
      obtain ⟨first, last, le, faces⟩ := ih closer
      exact ⟨first + 1, last, Nat.succ_le_succ le, .turn now faces⟩

/-- Three `turn`s to the right lead past all headings. -/
theorem exists_turns (heading target : Heading) :
    ∃ turns ≤ 3, (Heading.turn · 1)^[turns] heading = target := by
  cases heading <;> cases target <;> decide

/-- `turnRight` changes the heading only, however often. -/
theorem iterate_turnRight (robot : Robot) (turns : Nat) :
    turnRight^[turns] robot =
      { robot with heading := (Heading.turn · 1)^[turns] robot.heading } := by
  induction turns generalizing robot with
  | zero => rfl
  | succ turns ih => rw [Function.iterate_succ_apply, ih, Function.iterate_succ_apply, turnRight]

/-- The `neighbour` straight ahead is one `step` in the heading. -/
theorem neighbour_zero (robot : Robot) : robot.neighbour 0 = robot.position.step robot.heading := by
  have same : robot.heading.turn 0 = robot.heading := by cases robot.heading <;> rfl
  rw [neighbour, same]

/-! ## Shortest walks -/

/-- A robot on a shortest walk from an origin to a goal: the walk has `total` steps, of which `left`
are left. -/
structure Approaches (g : Grid) (origin : Position) (total : Nat) (robot : Robot) (left : Nat) :
    Prop where
  /-- The robot is in the maze. -/
  grid : robot.grid = g
  /-- Nothing has gone wrong. -/
  failure : robot.failure? = none
  /-- The robot has reached a goal when no step is left. -/
  completed : robot.completed = decide (left = 0)
  /-- The path of the robot is a walk. -/
  walk : g.IsWalk robot.path
  /-- The path starts at the origin. -/
  start : robot.path.head? = some origin
  /-- The path ends where the robot is. -/
  here : robot.path.getLast? = some robot.position
  /-- The steps left are the distance to a goal. -/
  distance : g.distance? robot.position = some left
  /-- The steps taken and the steps left make up the walk. -/
  length : robot.path.length + left = total + 1

namespace Approaches

variable {g : Grid} {origin : Position} {total left : Nat} {robot : Robot}

/-- A robot at its `start` with a goal some steps away `Approaches` it on a shortest walk. -/
theorem of_start {heading : Heading} (found : g.distance? origin = some total)
    (positive : 1 ≤ total) :
    Approaches g origin total (.start g origin heading) total where
  grid := rfl
  failure := rfl
  completed := (decide_eq_false (by omega)).symm
  walk := Grid.isWalk_singleton (Grid.free_of_distance? found)
  start := rfl
  here := rfl
  distance := found
  length := Nat.add_comm 1 total

/-- The run of a robot that `Approaches` a goal with steps left is not over. -/
theorem running (approaches : Approaches g origin total robot (left + 1)) : robot.done = false := by
  rw [done, approaches.completed, approaches.failure]
  rfl

/-- `turnRight` does not leave the walk on which a robot `Approaches` a goal. -/
theorem turnRight (approaches : Approaches g origin total robot left) :
    Approaches g origin total robot.turnRight left :=
  ⟨approaches.grid, approaches.failure, approaches.completed, approaches.walk, approaches.start,
    approaches.here, approaches.distance, approaches.length⟩

/-- With at most three turns a robot that `Approaches` a goal `Faces` a nearer position. -/
theorem exists_faces (approaches : Approaches g origin total robot (left + 1)) :
    ∃ turns last, turns ≤ 3 ∧ Faces robot turns last := by
  obtain ⟨heading, nearer⟩ := Grid.exists_nearer approaches.distance
  -- Turning to the right comes to the heading of the nearer neighbour, or finds another one first.
  obtain ⟨turns, few, turned⟩ := exists_turns robot.heading heading
  have closer : (Robot.turnRight^[turns] robot).isCloser 0 = true := by
    rw [iterate_turnRight, turned]
    refine (isCloser_iff (approaches.grid ▸ approaches.distance) 0).mpr ?_
    rw [neighbour_zero, approaches.grid]
    exact nearer
  obtain ⟨first, last, le, faces⟩ := Robot.exists_faces closer
  exact ⟨first, last, Nat.le_trans le few, faces⟩

/-- A robot that has turned to what it `Faces` stays on its walk, and `isCloser` holds straight
ahead. -/
theorem of_faces {turns : Nat} {last : Robot} (faces : Faces robot turns last)
    (approaches : Approaches g origin total robot left) :
    Approaches g origin total last left ∧ last.isCloser 0 = true := by
  induction faces with
  | here closer => exact ⟨approaches, closer⟩
  | turn _ _ ih => exact ih approaches.turnRight

/-- A robot that `Approaches` a goal can `perform` a turn. -/
theorem perform_turnRight (approaches : Approaches g origin total robot (left + 1)) :
    (robot.perform .turnRight).1 = robot.turnRight := by
  rw [perform, approaches.running]
  rfl

/-- A step forward where `isCloser` holds brings the robot one step further on its walk. -/
theorem perform_forward (approaches : Approaches g origin total robot (left + 1))
    (closer : robot.isCloser 0 = true) :
    Approaches g origin total (robot.perform .forward).1 left := by
  have nearer := (isCloser_iff (approaches.grid ▸ approaches.distance) 0).mp closer
  rw [neighbour_zero, approaches.grid] at nearer
  have free := Grid.free_of_distance? nearer
  have ahead : robot.grid.blocked (robot.position.step robot.heading) = false := by
    rw [approaches.grid]
    exact Grid.free_iff.mp free
  have adjacent := Position.adjacent_step robot.position robot.heading
  have path : (robot.perform .forward).1.path =
      robot.path ++ [robot.position.step robot.heading] := by
    simp [perform, approaches.running, advance, ahead, Robot.path]
  have position : (robot.perform .forward).1.position = robot.position.step robot.heading := by
    simp [perform, approaches.running, advance, ahead]
  refine ⟨?grid, ?failure, ?completed, ?walk, ?start, ?here, ?distance, ?length⟩
  case grid =>
    rw [← approaches.grid]
    simp [perform, approaches.running, advance, ahead]
  case failure =>
    rw [← approaches.failure]
    simp [perform, approaches.running, advance, ahead]
  case completed =>
    -- The new cell is a goal exactly when it is no step away from one.
    have goal : (g.cell (robot.position.step robot.heading) = .goal) ↔ left = 0 := by
      rw [← Grid.distance?_eq_zero_iff, nearer, Option.some.injEq]
    simp [perform, approaches.running, advance, Grid.free_iff.mp free, approaches.completed,
      approaches.grid, goal]
  case walk =>
    rw [path]
    exact approaches.walk.append approaches.here adjacent free
  case start =>
    rw [path, List.head?_append, approaches.start, Option.some_or]
  case here =>
    rw [path, position, List.getLast?_concat]
  case distance =>
    rw [position]
    exact nearer
  case length =>
    have length := approaches.length
    rw [path, List.length_append, List.length_singleton]
    omega

/-- A robot that `Approaches` with no step left has walked a shortest walk to a goal: its path
`LeadsToGoal`. -/
theorem leadsToGoal (approaches : Approaches g origin total robot 0) :
    g.LeadsToGoal origin robot.path ∧ robot.path.length = total + 1 := by
  have goal := Grid.distance?_eq_zero_iff.mp approaches.distance
  exact ⟨⟨approaches.walk, approaches.start, robot.position, approaches.here, goal⟩,
    approaches.length⟩

end Approaches

end Robot

end MazeRobot
