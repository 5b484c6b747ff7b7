import MazeRobot.Proofs.Descent
import MazeRobot.Proofs.Rotation

/-! # Steps that lead nearer

A robot that is asked whether a direction leads nearer to a goal compares the distances of two
positions. Neighbours differ by at most one step, so what is nearer is nearer by exactly one step;
from every position with a goal some steps away one of the four directions is; and a robot that
turns there and steps forward gets one step nearer.

* `Heading.iterate_turn_emod`: a turn by any number of quarters, made one quarter at a time.
* `Robot.isCloser_iff_exists`: what a robot takes for nearer, with nothing known about the goal.
* `Robot.exists_isCloser`: one of the four directions is nearer.
* `Robot.execute_forward_of_nearer`: a step to a nearer position.
* `Robot.isCloser_exact`: all of this in one statement. -/

namespace MazeRobot

/-! ## Quarter turns one at a time -/

namespace Heading

/-- The `code` of a heading after some quarter turns, one at a time. -/
theorem toInt_code_iterate_turn (heading : Heading) (turns : Nat) :
    ((turn · 1)^[turns] heading).code.toInt = (heading.code.toInt + turns) % 4 := by
  induction turns with
  | zero =>
    have range : 0 ≤ heading.code.toInt ∧ heading.code.toInt < 4 := by cases heading <;> decide
    rw [Function.iterate_zero_apply]
    omega
  | succ turns ih =>
    have one : (1 : Int64).toInt = 1 := rfl
    rw [Function.iterate_succ_apply', toInt_code_turn, ih, one]
    omega

/-- `turn` by any number of quarters is as many single quarters as the number has beyond whole
turns. -/
theorem iterate_turn_emod (heading : Heading) (quarterTurns : Int64) :
    (turn · 1)^[(quarterTurns.toInt % 4).toNat] heading = heading.turn quarterTurns := by
  apply eq_of_toInt_code
  rw [toInt_code_iterate_turn, toInt_code_turn]
  omega

/-- From every heading a `turn` by the `quarterTurns` of one of the four directions leads to any
other heading. -/
theorem exists_turn_quarterTurns (heading target : Heading) :
    ∃ direction : Direction, heading.turn direction.quarterTurns = target := by
  have some : ∃ direction ∈ Direction.all, heading.turn direction.quarterTurns = target := by
    cases heading <;> cases target <;> decide
  obtain ⟨direction, -, turned⟩ := some
  exact ⟨direction, turned⟩

end Heading

namespace Robot

variable {robot : Robot} {k : Nat}

/-! ## What is nearer -/

/-- **`isCloser` holds exactly where the neighbour is free and nearer by one step**, from a position
with a goal some steps away. -/
theorem isCloser_iff_exists (robot : Robot) (quarterTurns : Int64) :
    robot.isCloser quarterTurns = true ↔
      robot.senses quarterTurns = false ∧
        ∃ k, robot.grid.distance? robot.position = some (k + 1) ∧
          robot.grid.distance? (robot.neighbour quarterTurns) = some k := by
  constructor
  · intro closer
    have answer := closer
    simp only [isCloser] at answer
    split at answer
    · cases answer
    · next free =>
      simp only [Bool.and_eq_true, decide_eq_true_eq] at answer
      obtain ⟨⟨-, nonnegative⟩, less⟩ := answer
      -- The distance here is greater than that of the neighbour, so it is a successor.
      obtain ⟨here, distance⟩ : ∃ n : Nat, robot.grid.distance robot.position = (n + 1 : Nat) :=
        ⟨(robot.grid.distance robot.position - 1).toNat, by omega⟩
      have found := Grid.distance_eq_natCast_iff.mp distance
      exact ⟨Bool.eq_false_iff.mpr free, here, found, (isCloser_iff found quarterTurns).mp closer⟩
  · rintro ⟨-, k, here, there⟩
    exact (isCloser_iff here quarterTurns).mpr there

/-- **`isCloser` holds in one of the four directions**, where a goal is some steps away. -/
theorem exists_isCloser (here : robot.grid.distance? robot.position = some (k + 1)) :
    ∃ direction : Direction, robot.isCloser direction.quarterTurns = true := by
  obtain ⟨heading, nearer⟩ := Grid.exists_nearer here
  obtain ⟨direction, turned⟩ := robot.heading.exists_turn_quarterTurns heading
  refine ⟨direction, (isCloser_iff here _).mpr ?_⟩
  rw [neighbour, turned]
  exact nearer

/-! ## Going there -/

/-- `execute` of an instruction is `perform` of the command that it gives, while the robot runs. -/
theorem execute_eq_perform {instruction : String} {kind : Command} (running : robot.done = false)
    (given : Command.ofInstruction? instruction = some kind) :
    robot.execute instruction = robot.perform kind := by
  rw [execute, running, if_neg Bool.false_ne_true, given]

/-- Turning to the right with `execute`, a number of times, changes the heading only. -/
theorem after_replicate_turnRight (running : robot.done = false) (turns : Nat) :
    robot.after (List.replicate turns (.execute "turn right")) =
      { robot with heading := (Heading.turn · 1)^[turns] robot.heading } := by
  rw [← iterate_turnRight]
  induction turns generalizing robot with
  | zero => rfl
  | succ turns ih =>
    have right : Command.ofInstruction? "turn right" = some .turnRight := by decide +kernel
    have turned : (robot.execute "turn right").1 = robot.turnRight := by
      rw [execute_eq_perform running right, perform, running]
      rfl
    rw [List.replicate_succ, after_cons, Function.iterate_succ_apply, respond, turned]
    exact ih running

/-- **`execute` of a step to a nearer position succeeds** and brings the robot one step nearer; it
completes the run exactly if no step is left. -/
theorem execute_forward_of_nearer (running : robot.done = false)
    (nearer : robot.grid.distance? (robot.position.step robot.heading) = some k) :
    (robot.execute "forward").2 = true ∧ (robot.execute "forward").1.distanceToGoal = k ∧
      ((robot.execute "forward").1.status = .completed ↔ k = 0) := by
  have forward : Command.ofInstruction? "forward" = some .forward := by decide +kernel
  have ahead := Grid.free_iff.mp (Grid.free_of_distance? nearer)
  have moved : robot.execute "forward" = robot.advance := by
    rw [execute_eq_perform running forward, perform, running]
    rfl
  have fresh : robot.completed = false ∧ robot.failure? = none := by
    simpa [done] using running
  have goal : robot.grid.cell (robot.position.step robot.heading) = .goal ↔ k = 0 := by
    rw [← Grid.distance?_eq_zero_iff, nearer, Option.some.injEq]
  rw [moved]
  refine ⟨by simp [advance, ahead], ?_, ?_⟩
  · simpa [advance, ahead, distanceToGoal] using Grid.distance_eq_natCast_iff.mpr nearer
  · simp [advance, ahead, status, fresh, goal]

/-- **`isCloser` tells exactly which steps lead nearer.** A direction is nearer exactly if the
neighbour there is free, a goal is some steps away, and from the neighbour it is one step less.
Where a goal is some steps away one of the four directions is nearer. A robot that turns to the
right as often as a nearer direction says, whole turns left aside, and steps forward, succeeds, is
one step nearer, and completes its run exactly if the goal was one step away. -/
theorem isCloser_exact (robot : Robot) (quarterTurns : Int64) :
    (robot.isCloser quarterTurns = true ↔
      robot.senses quarterTurns = false ∧
        ∃ k : Nat, 1 ≤ k ∧ robot.distanceToGoal = k ∧
          robot.grid.distance (robot.neighbour quarterTurns) = (k : Int) - 1) ∧
    (∀ k : Nat, 1 ≤ k → robot.distanceToGoal = k →
      ∃ direction : Direction, robot.isCloser direction.quarterTurns = true) ∧
    (robot.done = false → robot.isCloser quarterTurns = true →
      let turned := robot.after
        (List.replicate (quarterTurns.toInt % 4).toNat (.execute "turn right"))
      (turned.execute "forward").2 = true ∧
        (turned.execute "forward").1.distanceToGoal = robot.distanceToGoal - 1 ∧
        ((turned.execute "forward").1.status = .completed ↔ robot.distanceToGoal = 1)) := by
  refine ⟨?_, ?_, ?_⟩
  · rw [isCloser_iff_exists]
    refine and_congr_right fun _ => ⟨?_, ?_⟩
    · rintro ⟨k, here, there⟩
      refine ⟨k + 1, Nat.succ_pos k, Grid.distance_eq_natCast_iff.mpr here, ?_⟩
      rw [Grid.distance_eq_natCast_iff.mpr there]
      omega
    · rintro ⟨k, positive, here, there⟩
      obtain ⟨n, rfl⟩ := Nat.exists_eq_add_of_le' positive
      refine ⟨n, Grid.distance_eq_natCast_iff.mp here, Grid.distance_eq_natCast_iff.mp ?_⟩
      rw [there]
      omega
  · intro k positive here
    obtain ⟨n, rfl⟩ := Nat.exists_eq_add_of_le' positive
    exact exists_isCloser (Grid.distance_eq_natCast_iff.mp here)
  · intro running closer turned
    obtain ⟨-, k, here, there⟩ := (isCloser_iff_exists robot quarterTurns).mp closer
    -- After the turns the robot looks where the question was about.
    have facing : turned = { robot with heading := robot.heading.turn quarterTurns } := by
      rw [← Heading.iterate_turn_emod]
      exact after_replicate_turnRight running _
    have distance : robot.distanceToGoal = (k + 1 : Nat) := Grid.distance_eq_natCast_iff.mpr here
    have nearer : turned.grid.distance? (turned.position.step turned.heading) = some k := by
      rw [facing]
      exact there
    have still : turned.done = false := by
      rw [facing]
      exact running
    obtain ⟨succeeds, left, ends⟩ := execute_forward_of_nearer still nearer
    refine ⟨succeeds, ?_, ?_⟩
    · rw [left, distance]
      omega
    · rw [ends, distance]
      omega

/-- A ragged maze with two goals, one of them behind a wall. -/
def twoGoals : Grid := ⟨[[.goal, .empty, .empty, .wall], [.wall, .wall, .empty, .wall, .goal]]⟩

/-- The nearer goal is to the left of a robot that looks north, which is nine quarters to the left
as well. Three quarters to the right and a step lead nearer, but not to the goal yet. -/
theorem isCloser_exact_twoGoals :
    let robot := start twoGoals ⟨2, 0⟩ .north
    let turned := robot.after (List.replicate 3 (.execute "turn right"))
    robot.done = false ∧ robot.distanceToGoal = 2 ∧ robot.isCloser (-9) = true ∧
      robot.isCloser 2 = false ∧ (turned.execute "forward").2 = true ∧
      (turned.execute "forward").1.distanceToGoal = 1 ∧
      ¬ (turned.execute "forward").1.status = .completed := by
  intro robot turned
  have distance : robot.distanceToGoal = 2 := by decide +kernel
  have closer : robot.isCloser (-9) = true := by decide +kernel
  obtain ⟨-, -, going⟩ := isCloser_exact robot (-9)
  obtain ⟨succeeds, left, ends⟩ := going rfl closer
  rw [distance] at left ends
  exact ⟨rfl, distance, closer, by decide +kernel, succeeds, left, fun completed => by
    have one := ends.mp completed
    omega⟩

end Robot

end MazeRobot
