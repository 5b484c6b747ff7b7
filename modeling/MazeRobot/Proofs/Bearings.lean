import MazeRobot.Proofs.Closer

/-! # Directions are headings

A robot is asked about a direction, which may be any word. The heading it stands for is computed in
machine arithmetic: the sum with the robot's own heading may wrap around, and the remainder of a
negative sum is negative. Nothing of this shows. A direction stands for the heading that the sum of
the two numbers has beyond whole turns, and a question about a direction is the question about the
front, asked after turning there.

* `Robot.turned`: a robot that looks elsewhere, with all else as it is.
* `Robot.neighbour_turned`, `Robot.sense_turned`, `Robot.isCloser_turned`: directions add up.
* `Robot.turned_eq_iterate`: a turn by any word, made one quarter at a time.
* `Robot.directions_exact`: directions, turns and questions in one statement. -/

namespace MazeRobot

namespace Robot

variable (robot : Robot) (quarterTurns direction : Int64)

/-- The robot after some quarter turns to the right, whether or not its run is over. -/
def turned : Robot := { robot with heading := robot.heading.turn quarterTurns }

/-- The `neighbour` of a `turned` robot in a direction is that of the robot in the sum of both
directions, where the sum may wrap around. -/
theorem neighbour_turned :
    (robot.turned quarterTurns).neighbour direction =
      robot.neighbour (quarterTurns + direction) := by
  rw [neighbour, neighbour, turned, Heading.turn_turn]

/-- A `turned` robot has the readings of `sense` that the robot has in the sum of both
directions. -/
theorem sense_turned :
    ((robot.turned quarterTurns).sense direction).2 =
      (robot.sense (quarterTurns + direction)).2 :=
  congrArg robot.grid.blocked (robot.neighbour_turned quarterTurns direction)

/-- `isCloser` holds for a `turned` robot where it does for the robot in the sum of both
directions. -/
theorem isCloser_turned :
    (robot.turned quarterTurns).isCloser direction =
      robot.isCloser (quarterTurns + direction) := by
  rw [isCloser, isCloser, neighbour_turned]
  rfl

/-- `turned` by any number of quarters is as many `turnRight` as the number has beyond whole
turns. -/
theorem turned_eq_iterate :
    robot.turned quarterTurns = turnRight^[(quarterTurns.toInt % 4).toNat] robot := by
  rw [iterate_turnRight, Heading.iterate_turn_emod, turned]

end Robot

/-- **Directions are exact.** Turning a heading by any word gives the heading whose `code` is the
sum of both numbers, reduced to the range from zero to three by whole turns. Turning twice is
turning by the sum of both words, which may wrap around. Whatever the robot has done, a question
about a direction has the same answer as the question about the front after as many `turnRight` as
the direction has beyond whole turns. -/
theorem Robot.directions_exact :
    (∀ (heading : Heading) (quarterTurns : Int64),
      (heading.turn quarterTurns).code = ((heading.code + quarterTurns) % 4 + 4) % 4 ∧
        (heading.turn quarterTurns).code.toInt = (heading.code.toInt + quarterTurns.toInt) % 4 ∧
        0 ≤ (heading.turn quarterTurns).code.toInt ∧ (heading.turn quarterTurns).code.toInt < 4) ∧
    (∀ (heading : Heading) (first second : Int64),
      (heading.turn first).turn second = heading.turn (first + second)) ∧
    ∀ (robot : Robot) (quarterTurns : Int64),
      let turned := turnRight^[(quarterTurns.toInt % 4).toNat] robot
      (robot.sense quarterTurns).2 = (turned.sense Direction.front.quarterTurns).2 ∧
        robot.isCloser quarterTurns = turned.isCloser Direction.front.quarterTurns := by
  refine ⟨?_, Heading.turn_turn, ?_⟩
  · intro heading quarterTurns
    have number := heading.toInt_code_turn quarterTurns
    exact ⟨heading.code_turn quarterTurns, number, by omega, by omega⟩
  · intro robot quarterTurns turned
    have looks : turned = robot.turned quarterTurns := (robot.turned_eq_iterate quarterTurns).symm
    have front : quarterTurns + Direction.front.quarterTurns = quarterTurns :=
      Int64.add_zero quarterTurns
    rw [looks, sense_turned, isCloser_turned, front]
    exact ⟨rfl, rfl⟩

/-- The sum of these numbers wraps around to a negative number. -/
example : Heading.west.code + 9223372036854775807 < 0 ∧
    Heading.west.turn 9223372036854775807 = .south := by decide

end MazeRobot
