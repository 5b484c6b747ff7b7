/-! # Outcomes

Where an attempt at a level stands, as the user is told.

* `Outcome`: running, or one of three ways to end.
* `Outcome.terminal`: whether the attempt has ended. -/

namespace MazeRobot

/-- Where an attempt stands. -/
inductive Outcome where
  /-- It goes on. -/
  | running
  /-- The robot reached a goal. -/
  | completed
  /-- Something went wrong. -/
  | failed
  /-- The program ended and the robot is not at a goal. -/
  | outOfProgram
  deriving DecidableEq, Repr

namespace Outcome

/-- All outcomes, in the order of their numbers. -/
def all : List Outcome := [running, completed, failed, outOfProgram]

/-- The name of an outcome. -/
def name : Outcome → String
  | running => "running"
  | completed => "completed"
  | failed => "failed"
  | outOfProgram => "out of program"

/-- Whether the attempt has ended. -/
def terminal (outcome : Outcome) : Bool := outcome ≠ running

/-- The name shown for a number, also one that numbers no outcome. -/
def nameOfCode (n : Int) : String :=
  if n < 0 then "unknown" else (all[n.toNat]?).elim "unknown" name

/-- Whether a number counts as that of an ended attempt: every one but that of a running one. -/
def terminalCode (n : Int) : Bool := n ≠ 0

end Outcome

end MazeRobot
